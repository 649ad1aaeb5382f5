import Mathlib.Data.Nat.Basic

/-! # One worker process as the head sees it

The head keeps a record for each registered worker. What happens to a worker is an action on its
record; besides changing the record, an action may ask for the worker to be given the next
request or to be freed.
-/

/-- The numbers of the configuration that the applications use. -/
structure Config where
  workerMax : Nat
  pending : Nat
  addTrials : Nat
  addWait : Nat
  addTimeout : Nat
  idleTime : Nat
  pingTimeout : Nat
  pingTrials : Nat
  msgQueueSize : Nat
  maxReqRatio : Nat
  minReqRatio : Nat
  highLoad : Nat
  lowLoad : Nat

/-- The values before the configuration files are read. -/
def Config.init : Config where
  workerMax := 20
  pending := 10
  addTrials := 3
  addWait := 1800
  addTimeout := 25
  idleTime := 60
  pingTimeout := 15
  pingTrials := 2
  msgQueueSize := 2048
  maxReqRatio := 1
  minReqRatio := 3
  highLoad := 2
  lowLoad := 600

/-- A timer of the event loop. -/
structure Timer where
  active : Bool
  period : Nat
deriving DecidableEq, Repr

namespace Timer

/-- `ev_timer_stop`. -/
def stop (timer : Timer) : Timer := { timer with active := false }

/-- `ev_timer_again`: the timer is started anew, or stopped if its period is zero. -/
def again (timer : Timer) : Timer := { timer with active := 0 < timer.period }

end Timer

inductive WkrState where
  | connecting | active | inactive | pinging | expired | error | timedout | errorAck | hangup
  | disconnecting
deriving DecidableEq, Repr

inductive WkrAction where
  | add | addTimeout | addError | remove | ping | pingTimeout | pingReplay | reqProcessed
  | reqProcessing | error
deriving DecidableEq, Repr

/-- The record of a worker; requests are known by number. -/
structure Wkr where
  state : WkrState
  pid : Nat
  trialsDone : Nat
  tWait : Timer
  req : Option Nat
deriving DecidableEq

/-- What an action asks for besides the change of the record: nothing, the next request, to free
the worker, or to free it and then to balance the application. -/
inductive Next where
  | stay | allocate | free | freeAndBalance
deriving DecidableEq, Repr

namespace Wkr

variable (config : Config)

/-- `wr_wkr_new`, with the process id of the message cut to sixteen bits. -/
def new (pid : Nat) : Wkr where
  state := .connecting
  pid := pid % 65536
  trialsDone := 0
  tWait := ⟨false, config.idleTime⟩
  req := none

/-- `wr_wkr_ping_send`. -/
def pingSend (worker : Wkr) : Wkr :=
  { worker with
    trialsDone := worker.trialsDone + 1
    tWait := { worker.tWait with period := config.pingTimeout }.again }

/-- A timeout sends the next ping, or gives the worker up. -/
def timeout (worker : Wkr) : Wkr × Next :=
  if worker.trialsDone < config.pingTrials then
    ({ worker with state := .pinging }.pingSend config, .stay)
  else ({ worker with state := .hangup }, .freeAndBalance)

/-- `wr_wkr_state_machine`. -/
def stateMachine (worker : Wkr) (action : WkrAction) : Wkr × Next :=
  if action = .error ∨ action = .remove then ({ worker with state := .error }, .free)
  else
    match worker.state, action with
    | .connecting, .add => ({ worker with state := .inactive }, .stay)
    | .active, .reqProcessed => ({ worker with state := .inactive }, .allocate)
    | .active, .pingTimeout => worker.timeout config
    | .inactive, .reqProcessing => ({ worker with state := .active }, .stay)
    | .pinging, .reqProcessed => ({ worker with state := .inactive }, .allocate)
    | .pinging, .reqProcessing => ({ worker with state := .active }, .stay)
    | .pinging, .pingReplay =>
        ({ worker with
          state := .active
          tWait := { worker.tWait.stop with period := config.idleTime }.again }, .stay)
    | .pinging, .pingTimeout => worker.timeout config
    | .expired, .reqProcessed => ({ worker with state := .disconnecting }, .free)
    | .expired, .pingTimeout => ({ worker with state := .disconnecting }, .free)
    | .error, _ => (worker, .free)
    | .timedout, _ => (worker, .free)
    | .hangup, _ => (worker, .free)
    | .disconnecting, _ => (worker, .free)
    | _, _ => (worker, .stay)

/-- `wr_wait_watcher_start`: called when the request was sent and when a part of the response that
is not the last was read. -/
def waitStart (worker : Wkr) : Wkr :=
  let next := { (worker.stateMachine config .reqProcessing).1 with trialsDone := 0 }
  if 0 < config.idleTime then
    { next with tWait := { next.tWait with period := config.idleTime }.again }
  else next

/-- The worker's side of `wr_wkr_req_processing`. -/
def take (worker : Wkr) (req : Nat) : Wkr :=
  (({ worker with req := some req }).stateMachine config .reqProcessing).1

/-- The worker's side of `wr_wkr_req_processed`, up to the action. -/
def release (worker : Wkr) : Wkr :=
  { worker with
    req := none
    tWait := if 0 < config.idleTime then worker.tWait.stop else worker.tWait }

/-- `wr_wkr_wait_cb`, for a worker that has an application. -/
def waitCb (worker : Wkr) : Wkr × Next :=
  ({ worker with tWait := worker.tWait.stop }).stateMachine config .pingTimeout

/-! ### What the actions do -/

/-- The worker serves a request, or did when it was marked. -/
def Busy (worker : Wkr) : Prop :=
  worker.state = .active ∨ worker.state = .pinging ∨ worker.state = .expired

variable {config}

theorem timeout_spec (worker : Wkr) :
    (worker.timeout config).1.req = worker.req ∧
      ((worker.timeout config).2 = .stay ∧ (worker.timeout config).1.Busy ∨
        (worker.timeout config).2 = .freeAndBalance) := by
  rw [timeout]
  split
  · exact ⟨rfl, .inl ⟨rfl, .inr (.inl rfl)⟩⟩
  · exact ⟨rfl, .inr rfl⟩

/-- An action other than the end of a request leaves a busy worker busy or has it freed. -/
theorem stateMachine_busy {worker : Wkr} (busy : worker.Busy) {action : WkrAction}
    (other : action ≠ .reqProcessed) :
    (worker.stateMachine config action).1.req = worker.req ∧
      ((worker.stateMachine config action).2 = .stay ∧
          (worker.stateMachine config action).1.Busy ∨
        (worker.stateMachine config action).2 = .free ∨
        (worker.stateMachine config action).2 = .freeAndBalance) := by
  have timed := @timeout_spec config worker
  obtain ⟨state, pid, trialsDone, tWait, req⟩ := worker
  rcases busy with same | same | same <;> cases same <;> cases action
  all_goals first
    | exact absurd rfl other
    | exact ⟨rfl, .inl ⟨rfl, .inl rfl⟩⟩
    | exact ⟨rfl, .inl ⟨rfl, .inr (.inl rfl)⟩⟩
    | exact ⟨rfl, .inl ⟨rfl, .inr (.inr rfl)⟩⟩
    | exact ⟨rfl, .inr (.inl rfl)⟩
    | exact ⟨timed.1, timed.2.imp_right .inr⟩

/-- The end of a request leaves a worker idle, or has it freed when it was marked. -/
theorem stateMachine_processed {worker : Wkr} (busy : worker.Busy) :
    (worker.stateMachine config .reqProcessed).1.req = worker.req ∧
      ((worker.stateMachine config .reqProcessed).2 = .allocate ∧
          (worker.stateMachine config .reqProcessed).1.state = .inactive ∨
        (worker.stateMachine config .reqProcessed).2 = .free) := by
  obtain ⟨state, pid, trialsDone, tWait, req⟩ := worker
  rcases busy with same | same | same <;> cases same
  · exact ⟨rfl, .inl ⟨rfl, rfl⟩⟩
  · exact ⟨rfl, .inl ⟨rfl, rfl⟩⟩
  · exact ⟨rfl, .inr rfl⟩

/-- An idle worker is not moved by replies and timeouts. -/
theorem stateMachine_idle {worker : Wkr} (idle : worker.state = .inactive) {action : WkrAction}
    (known : action = .pingReplay ∨ action = .pingTimeout) :
    worker.stateMachine config action = (worker, .stay) := by
  obtain ⟨state, pid, trialsDone, tWait, req⟩ := worker
  cases idle
  rcases known with rfl | rfl <;> rfl

/-- Errors and removals have every worker freed. -/
theorem stateMachine_free (worker : Wkr) {action : WkrAction}
    (known : action = .error ∨ action = .remove) :
    worker.stateMachine config action = ({ worker with state := .error }, .free) := if_pos known

/-- The watch over a busy worker keeps its request. -/
theorem waitStart_spec {worker : Wkr} (busy : worker.Busy) :
    (worker.waitStart config).req = worker.req ∧ (worker.waitStart config).Busy := by
  have moved : (worker.stateMachine config .reqProcessing).1.req = worker.req ∧
      (worker.stateMachine config .reqProcessing).1.Busy := by
    obtain ⟨state, pid, trialsDone, tWait, req⟩ := worker
    rcases busy with same | same | same <;> cases same
    · exact ⟨rfl, .inl rfl⟩
    · exact ⟨rfl, .inl rfl⟩
    · exact ⟨rfl, .inr (.inr rfl)⟩
  rw [waitStart]
  split <;> exact moved

end Wkr
