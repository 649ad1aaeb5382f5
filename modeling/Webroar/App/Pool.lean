import Mathlib.Data.List.Basic
import Mathlib.Logic.Function.Basic
import Webroar.App.Worker

/-! # Workers and requests of an application

An application keeps three queues: its registered workers, those of them that are free, and the
requests that wait for a worker. Requests and workers are objects known by number; the records
of those that were freed are left behind but nothing refers to them.

The queues are bounded. An insertion whose result the code does not look at sets `lost` if it
fails. `queued`, `dropped` and `given` record which requests were put into the message queue,
taken out of it because of an error, and handed to workers.
-/

/-- What the pool needs to know of a request: the worker pointer, whether that worker uses it,
whether its connection failed, and whether the object is allocated. -/
structure ReqState where
  wkr : Option Nat
  usingWkr : Bool
  connErr : Bool
  live : Bool
deriving DecidableEq

/-- `wr_queue_insert`: nothing is inserted when the queue is full. -/
def queueInsert {α : Type} (size : Nat) (queue : List α) (element : α) : Option (List α) :=
  if queue.length < size then some (queue ++ [element]) else none

structure Pool where
  wkr : Nat → Wkr
  req : Nat → ReqState
  workers : List Nat
  freeWorkers : List Nat
  messages : List Nat
  nextWkr : Nat
  nextReq : Nat
  lost : Bool
  queued : List Nat
  dropped : List Nat
  given : List Nat
  failed : List Nat

namespace Pool

/-- The pool of a new application. -/
def empty (config : Config) : Pool where
  wkr := fun _ => Wkr.new config 0
  req := fun _ => ⟨none, false, false, false⟩
  workers := []
  freeWorkers := []
  messages := []
  nextWkr := 0
  nextReq := 0
  lost := false
  queued := []
  dropped := []
  given := []
  failed := []

variable (config : Config)

def setWkr (pool : Pool) (worker : Nat) (record : Wkr) : Pool :=
  { pool with wkr := Function.update pool.wkr worker record }

def setReq (pool : Pool) (req : Nat) (record : ReqState) : Pool :=
  { pool with req := Function.update pool.req req record }

@[simp] theorem setWkr_wkr (pool : Pool) (worker : Nat) (record : Wkr) :
    (pool.setWkr worker record).wkr worker = record := Function.update_self _ _ _

@[simp] theorem setWkr_setWkr (pool : Pool) (worker : Nat) (first second : Wkr) :
    (pool.setWkr worker first).setWkr worker second = pool.setWkr worker second := by
  simp only [setWkr, Function.update_idem]

@[simp] theorem setReq_req (pool : Pool) (req : Nat) (record : ReqState) :
    (pool.setReq req record).req req = record := Function.update_self _ _ _

@[simp] theorem setReq_setReq (pool : Pool) (req : Nat) (first second : ReqState) :
    (pool.setReq req first).setReq req second = pool.setReq req second := by
  simp only [setReq, Function.update_idem]

/-- The size of the worker queues leaves room for one worker more than are configured. -/
def workerRoom : Nat := config.workerMax + 1

/-- `WR_QUEUE_INSERT` of a free worker; the code does not look at the result. -/
def insertFree (pool : Pool) (worker : Nat) : Pool :=
  match queueInsert (workerRoom config) pool.freeWorkers worker with
  | some queue => { pool with freeWorkers := queue }
  | none => { pool with lost := true }

/-- `wr_wkr_req_processing`. -/
def reqProcessing (pool : Pool) (worker req : Nat) : Pool :=
  { (pool.setReq req { pool.req req with wkr := some worker, usingWkr := true }).setWkr worker
      ((pool.wkr worker).take config req) with
    given := pool.given ++ [req] }

/-- `wr_wrk_allocate`: the oldest message, or a place among the free workers. -/
def allocate (pool : Pool) (worker : Nat) : Pool :=
  match pool.messages with
  | req :: rest => { pool with messages := rest }.reqProcessing config worker req
  | [] => pool.insertFree config worker

/-- `wr_req_free`. -/
def reqFree (pool : Pool) (req : Nat) : Pool :=
  pool.setReq req { pool.req req with live := false }

@[simp] theorem reqFree_wkr (pool : Pool) (req : Nat) : (pool.reqFree req).wkr = pool.wkr := rfl

/-- `wr_conn_err_resp` for a connection whose request is the given one. -/
def errResp (pool : Pool) (req : Nat) : Pool :=
  match (pool.req req).wkr with
  | some _ =>
      if (pool.req req).usingWkr then pool.setReq req { pool.req req with connErr := true }
      else pool.reqFree req
  | none =>
      { pool.reqFree req with
        messages := pool.messages.erase req
        dropped := if req ∈ pool.messages then pool.dropped ++ [req] else pool.dropped }

/-- The part of `wr_wkr_free` that deals with the request: the client gets an error. -/
def answerFailed (pool : Pool) (worker : Nat) : Pool :=
  match (pool.wkr worker).req with
  | some req =>
      let pool := pool.setReq req { pool.req req with usingWkr := false }
      { pool.errResp req with failed := pool.failed ++ [req] }
  | none => pool

/-- `wr_wkr_free`. -/
def wkrFree (pool : Pool) (worker : Nat) : Pool :=
  let pool := pool.answerFailed worker
  { pool with
    workers := pool.workers.erase worker
    freeWorkers := pool.freeWorkers.erase worker }

@[simp] theorem errResp_freeWorkers (pool : Pool) (req : Nat) :
    (pool.errResp req).freeWorkers = pool.freeWorkers := by
  rw [errResp]
  split
  · split <;> rfl
  · rfl

@[simp] theorem errResp_workers (pool : Pool) (req : Nat) :
    (pool.errResp req).workers = pool.workers := by
  rw [errResp]
  split
  · split <;> rfl
  · rfl

@[simp] theorem wkrFree_freeWorkers (pool : Pool) (worker : Nat) :
    (pool.wkrFree worker).freeWorkers = pool.freeWorkers.erase worker := by
  have same : (pool.answerFailed worker).freeWorkers = pool.freeWorkers := by
    rw [answerFailed]
    split
    · exact errResp_freeWorkers _ _
    · rfl
  exact congrArg (·.erase worker) same

@[simp] theorem wkrFree_workers (pool : Pool) (worker : Nat) :
    (pool.wkrFree worker).workers = pool.workers.erase worker := by
  have same : (pool.answerFailed worker).workers = pool.workers := by
    rw [answerFailed]
    split
    · exact errResp_workers _ _
    · rfl
  exact congrArg (·.erase worker) same

/-- `wr_wkr_state_machine`: the record changes, then the worker is given a request or freed. Whether
the application has to be balanced afterwards is left to the caller. -/
def stateMachine (pool : Pool) (worker : Nat) (action : WkrAction) : Pool :=
  let outcome := (pool.wkr worker).stateMachine config action
  let pool := pool.setWkr worker outcome.1
  match outcome.2 with
  | .stay => pool
  | .allocate => pool.allocate config worker
  | .free | .freeAndBalance => pool.wkrFree worker

/-- `wr_wkr_req_processed`. -/
def reqProcessed (pool : Pool) (worker : Nat) : Pool :=
  let pool := match (pool.wkr worker).req with
    | some req => pool.reqFree req
    | none => pool
  (pool.setWkr worker ((pool.wkr worker).release config)).stateMachine config worker .reqProcessed

/-- `wr_wait_watcher_start`. -/
def waitStart (pool : Pool) (worker : Nat) : Pool :=
  pool.setWkr worker ((pool.wkr worker).waitStart config)

/-- `wr_wkr_wait_cb`. -/
def waitCb (pool : Pool) (worker : Nat) : Pool :=
  (pool.setWkr worker
    { pool.wkr worker with tWait := (pool.wkr worker).tWait.stop }).stateMachine config worker
      .pingTimeout

/-- `WR_APP_MSG_DISPATCH` with what `wr_wkr_dispatch_req` does afterwards. -/
def dispatch (pool : Pool) : Pool :=
  match pool.freeWorkers, pool.messages with
  | worker :: idle, req :: rest =>
      { pool with freeWorkers := idle, messages := rest }.reqProcessing config worker req
  | _, _ => pool

/-- `wr_req_complete_cb` for a request of this application: it is queued, or turned away when the
queue is full. -/
def complete (pool : Pool) : Pool :=
  let req := pool.nextReq
  let pool := { pool.setReq req ⟨none, false, false, true⟩ with nextReq := req + 1 }
  match queueInsert config.msgQueueSize pool.messages req with
  | some queue => { pool with messages := queue, queued := pool.queued ++ [req] }.dispatch config
  | none => pool.errResp req

/-- `wr_wkr_set_ratio`: the new worker enters the queue unless there is no room. -/
def setRatio (pool : Pool) (pid : Nat) : Option Pool :=
  let worker := pool.nextWkr
  match queueInsert (workerRoom config) pool.workers worker with
  | some queue =>
      let pool := { pool.setWkr worker (Wkr.new config pid) with
        workers := queue, nextWkr := worker + 1 }
      some (pool.stateMachine config worker .add)
  | none => none

/-- The first loop of `wr_app_reload`: the free workers are freed. -/
def freeIdle (pool : Pool) : Pool :=
  pool.freeWorkers.foldl (fun pool worker =>
    (pool.setWkr worker { pool.wkr worker with state := .error }).wkrFree worker) pool

/-- The second loop: every worker is fetched from the queue, put back and marked. The code does not
look at the result of the insertion. -/
def expireLoop : Nat → Pool → Pool
  | 0, pool => pool
  | count + 1, pool =>
      match pool.workers with
      | [] => pool
      | worker :: rest =>
          let marked := { pool with workers := rest }.setWkr worker
            { pool.wkr worker with state := .expired }
          match queueInsert (workerRoom config) rest worker with
          | some queue => expireLoop count { marked with workers := queue }
          | none => expireLoop count { marked with lost := true }

def expireAll (pool : Pool) : Pool := pool.expireLoop config pool.workers.length

/-- What `wr_app_wkr_remove_cb` does with the process id it read: a free worker with it is freed,
otherwise the first worker with it is marked. -/
def removeWkr (pool : Pool) (pid : Nat) : Pool :=
  match pool.freeWorkers.find? fun worker => (pool.wkr worker).pid = pid with
  | some worker => (pool.setWkr worker { pool.wkr worker with state := .error }).wkrFree worker
  | none =>
      match pool.workers.find? fun worker => (pool.wkr worker).pid = pid with
      | some worker => pool.setWkr worker { pool.wkr worker with state := .expired }
      | none => pool

/-- What `wr_app_free` does with the workers and the waiting requests. -/
def free (pool : Pool) : Pool :=
  let pool := pool.workers.foldl wkrFree pool
  pool.messages.foldl errResp pool

end Pool
