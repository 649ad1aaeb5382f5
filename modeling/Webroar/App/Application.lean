import Webroar.App.Pool
import Webroar.Head.Resolver

/-! # The life of an application

An application is inserted with a configuration, has workers forked until it has the number it
needs, and takes them up as they register. It can be reloaded under a new configuration: a worker
is forked for it, and the old ones are let go when that worker registers. What goes wrong with
forked workers is noticed by a timer or by a message.

Here is every callback that changes an application, as a function of the application. What comes
from outside is an argument: the process ids that forks return, the process id the operating
system reports, and whether the steps of connecting to a worker succeed.
-/

/-- What an application uses of its configuration. -/
structure Conf where
  minWorker : Nat
  maxWorker : Nat
  resolver : Resolver.AppConf
deriving DecidableEq

inductive AppState where
  | new | active | restart | restarting | destroy
deriving DecidableEq, Repr

/-- A `short` holds sixteen bits. -/
@[irreducible] def short (value : Int) : Int := (value + 32768) % 65536 - 32768

/-- An application. `resolved` is the configuration its resolver entries were made from; `linked`
are the control connections whose application pointer leads to it; `replies` are the answers sent
to administrators, true for `STATUS: OK`; `forks` counts the calls of fork; `lost` is set when an
insertion into the queue of pending workers fails and the code does not look at the result. -/
structure App where
  pool : Pool
  conf : Conf
  new : Option Conf
  state : AppState
  timeoutCounter : Int
  pending : List Int
  highRatio : Int
  lowRatio : Int
  tAdd : Timer
  tRemove : Timer
  tAddTimeout : Timer
  ctl : Option Nat
  resolved : Conf
  linked : List Nat
  replies : List (Nat × Bool)
  forks : Nat
  lost : Bool

namespace App

variable (config : Config) (fork : Nat → Int)

/-- `TOTAL_WORKER_COUNT`. -/
def total (app : App) : Nat := app.pending.length + app.pool.workers.length

def resetHighRatio (app : App) : App :=
  { app with highRatio := short (app.total * config.maxReqRatio) }

/-- A pool in which workers were freed; the ratios follow the number of workers. -/
def withPool (app : App) (pool : Pool) : App :=
  if pool.workers.length < app.pool.workers.length then
    { { app with pool := pool }.resetHighRatio config with
      lowRatio := short (pool.workers.length * config.minReqRatio) }
  else { app with pool := pool }

/-! ### Load -/

/-- `wr_app_chk_load_to_add_wkr`, for a number of waiting messages. -/
def chkLoadToAdd (app : App) (messages : Nat) : App :=
  if app.total < app.conf.maxWorker then
    if app.highRatio < messages then
      if app.tAdd.active then app else { app with tAdd := app.tAdd.again }
    else { app with tAdd := app.tAdd.stop }
  else app

/-- `wr_app_chk_load_to_remove_wkr`. -/
def chkLoadToRemove (app : App) : App :=
  if app.conf.minWorker < app.pool.workers.length then
    if (app.pool.messages.length : Int) < app.lowRatio then
      if app.tRemove.active then app else { app with tRemove := app.tRemove.again }
    else { app with tRemove := app.tRemove.stop }
  else app

/-! ### Forking workers -/

/-- `wr_queue_insert` of a pending worker. -/
def insertPending (app : App) (pid : Int) : App :=
  match queueInsert config.pending app.pending pid with
  | some queue => { app with pending := queue }
  | none => { app with lost := true }

/-- `wr_app_wkr_add`. -/
def wkrAdd (app : App) : App × Bool :=
  if app.pending.length < config.pending then
    if (config.addTrials : Int) ≤ app.timeoutCounter then (app, false)
    else
      let retval := fork app.forks
      let app := { app with forks := app.forks + 1 }
      if 0 < retval then
        let app := (app.insertPending config retval).resetHighRatio config
        (if 0 < config.addTimeout then { app with tAddTimeout := app.tAddTimeout.again } else app,
          true)
      else (app, false)
  else (app, false)

/-- The loop of `wr_app_wkr_balance`: every turn adds a worker, so it ends when there are enough or
when one cannot be added. -/
def balanceLoop : Nat → App → App
  | 0, app => app
  | turns + 1, app =>
      if app.total < app.conf.minWorker then
        match app.wkrAdd config fork with
        | (app, true) =>
            balanceLoop turns { app with lowRatio := short (app.total * config.minReqRatio) }
        | (app, false) => app
      else app

/-- `wr_app_wkr_balance`. -/
def balance (app : App) : App :=
  let app := app.balanceLoop config fork (app.conf.minWorker - app.total)
  if app.conf.minWorker ≤ app.pool.workers.length ∧ app.state = .restart then
    { app with state := .active, new := none }
  else app

/-- `wr_app_kill_pending_wkr`: the oldest pending worker, or all of them. -/
def killPending (app : App) (single : Bool) : App :=
  { app with pending := if single then app.pending.tail else [] }.resetHighRatio config

/-- The loop of `wr_pending_worker_exist`: the queue is turned until the process id is found. The
results are whether it was, the queue, and whether an insertion failed. -/
def pendingExist (pid : Int) : Nat → List Int → Bool × List Int × Bool
  | 0, queue => (false, queue, false)
  | _ + 1, [] => (false, [], false)
  | turns + 1, first :: rest =>
      if first = pid then (true, rest, false)
      else
        match queueInsert config.pending rest first with
        | some queue => pendingExist pid turns queue
        | none =>
            let (found, queue, _) := pendingExist pid turns rest
            (found, queue, true)

/-- `wr_pending_worker_exist`: the application with the queue as it is left, and whether the process
id was in it. -/
def takePending (app : App) (pid : Int) : App × Bool :=
  let (found, queue, lost) := pendingExist config pid app.pending.length app.pending
  ({ app with pending := queue, lost := app.lost || lost }, found)

/-! ### The end of an application -/

/-- `wr_app_add_error_msg`. -/
def addErrorMsg (app : App) : App :=
  { app with
    replies := match app.ctl with
      | some ctl => app.replies ++ [(ctl, false)]
      | none => app.replies
    timeoutCounter := 0
    ctl := none }

/-- `wr_app_remove` of this application: it is freed with its workers and waiting requests. -/
def remove (app : App) : App :=
  { app with
    pool := app.pool.free
    state := .destroy
    tAdd := app.tAdd.stop
    tRemove := app.tRemove.stop
    tAddTimeout := if 0 < config.addTimeout then app.tAddTimeout.stop else app.tAddTimeout }

/-! ### Timers -/

/-- `wr_app_wkr_add_cb`. -/
def addCb (app : App) : App :=
  let app := { app with tAdd := app.tAdd.stop }
  if app.total < app.conf.maxWorker then (app.wkrAdd config fork).1 else app

/-- A reload is rolled back, and the administrator is told. -/
def rollBack (app : App) : App :=
  { app with new := none, state := .active }.addErrorMsg

/-- The trials are used up: all pending workers are killed, and the timer runs for the time the
application is to wait. -/
def backOff (app : App) : App :=
  let killed := { app with timeoutCounter := short (app.timeoutCounter + 1) }.killPending config
    false
  { killed with tAddTimeout := { killed.tAddTimeout with period := config.addWait }.again }

/-- The first part of `wr_app_wkr_add_timeout_cb`: the oldest pending worker is killed, and the
timer runs on for the others. -/
def killOldest (app : App) : App :=
  let spared : App :=
    if app.timeoutCounter = (config.addTrials : Int) then app.backOff config else app
  let killed : App := spared.killPending config true
  if killed.pending = [] then killed else { killed with tAddTimeout := killed.tAddTimeout.again }

/-- `wr_app_wkr_add_timeout_cb`. -/
def addTimeoutCb (app : App) : App :=
  let expired : App := { app with
    tAddTimeout := app.tAddTimeout.stop
    timeoutCounter := short (app.timeoutCounter + 1) }
  if (config.addTrials : Int) < expired.timeoutCounter then { expired with timeoutCounter := 0 }
  else
    let killed := expired.killOldest config
    match killed.state with
    | .restart => killed.rollBack
    | .new => if killed.pending = [] then killed.addErrorMsg.remove config else killed
    | _ => killed.balance config fork

/-- `wr_app_wkr_remove_cb`, with the process id that was read, if any was. -/
def removeTimerCb (app : App) (reported : Option Nat) : App :=
  let app := { app with tRemove := app.tRemove.stop }
  let registered := app.pool.workers
  let (after, forecast) :=
    if app.conf.minWorker < registered.length then
      match reported with
      | some pid =>
          (app.withPool config (app.pool.removeWkr pid),
            if (app.pool.freeWorkers ++ registered).any fun worker =>
                (app.pool.wkr worker).pid = pid then
              registered.length - 1
            else registered.length)
      | none => (app, registered.length)
    else (app, registered.length)
  if app.conf.minWorker < forecast then { after with tRemove := after.tRemove.again } else after

/-! ### Requests and responses -/

/-- `wr_req_complete_cb` for a request of this application. -/
def complete (app : App) : App :=
  let app :=
    if app.pool.messages.length < config.msgQueueSize then
      app.chkLoadToAdd (app.pool.messages.length + 1)
    else app
  { app with pool := app.pool.complete config }

/-- `wr_wrk_allocate`. -/
def allocate (app : App) (worker : Nat) : App :=
  let app := app.chkLoadToRemove
  { app with pool := app.pool.allocate config worker }

/-- `wr_wkr_req_processed`; a worker that goes on looks at the load first. -/
def reqProcessed (app : App) (worker : Nat) : App :=
  let outcome := ((app.pool.wkr worker).release config).stateMachine config .reqProcessed
  let app := if outcome.2 = .allocate then app.chkLoadToRemove else app
  app.withPool config (app.pool.reqProcessed config worker)

/-! ### The death of a worker -/

/-- An error on the data socket of a worker. -/
def dataError (app : App) (worker : Nat) : App :=
  app.withPool config (app.pool.stateMachine config worker .error)

/-- `wr_ctl_free` for the control connection of a worker. -/
def ctlFree (app : App) (worker : Nat) : App :=
  let app := app.withPool config
    ((app.pool.setWkr worker { app.pool.wkr worker with state := .error }).wkrFree worker)
  if app.state = .active then app.balance config fork else app

/-- `wr_wkr_remove_cb`. -/
def removeCb (app : App) (worker : Nat) : App :=
  let app := app.withPool config (app.pool.stateMachine config worker .remove)
  if app.state = .active then app.balance config fork else app

/-- `wr_wkr_wait_cb`: a worker that hangs is freed, and the application is balanced. -/
def waitCb (app : App) (worker : Nat) : App :=
  let outcome := (app.pool.wkr worker).waitCb config
  let app := app.withPool config (app.pool.waitCb config worker)
  if outcome.2 = .freeAndBalance then app.balance config fork else app

/-! ### Control messages -/

/-- `wr_app_reload`. -/
def reload (app : App) (new : Conf) : App :=
  { { app with conf := new, new := none, resolved := new }.withPool config
      (app.pool.freeIdle.expireAll config) with
    state := .restarting }

/-- The waiting administrator gets `STATUS: OK`. -/
def replyOk (app : App) : App :=
  { app with
    replies := match app.ctl with
      | some ctl => app.replies ++ [(ctl, true)]
      | none => app.replies
    ctl := none }

/-- A worker has been heard of: the count of the timeouts starts anew, and without a pending worker
the timer stops. -/
def heard (app : App) : App :=
  { app with
    timeoutCounter := 0
    tAddTimeout :=
      if app.pending = [] ∧ 0 < config.addTimeout then app.tAddTimeout.stop
      else app.tAddTimeout }

/-- `wr_app_wkr_insert`, with the process id the worker object holds. -/
def wkrInsert (app : App) (pid : Nat) : App × Bool :=
  if app.pool.workers.length < app.conf.maxWorker ∨ app.state = .restart then
    match app.takePending config pid with
    | (app, false) => (app, false)
    | (app, true) =>
        let app := app.heard config
        match app.state, app.new with
        | .restart, some new => ((app.reload config new).replyOk, true)
        | .new, _ => ({ app.replyOk with state := .active }, true)
        | _, _ => (app, true)
  else (app, false)

/-- How the steps of connecting to a worker turn out: the kind of socket it offers, the connection,
and the switch to non-blocking mode. -/
structure Connection where
  uds : Bool
  connected : Bool
  nonblock : Bool
deriving DecidableEq

/-- `wr_wkr_connect`; the result says whether the worker was taken. -/
def connect (app : App) (pid : Nat) (connection : Connection) : App × Bool :=
  if connection.uds then
    match app.wkrInsert config (pid % 65536) with
    | (app, false) => (app, false)
    | (app, true) =>
        if connection.connected && connection.nonblock then
          match app.pool.setRatio config pid with
          | none => (app.resetHighRatio config, false)
          | some pool =>
              let worker := app.pool.nextWkr
              let app := { app with
                pool := pool, lowRatio := short (pool.workers.length * config.minReqRatio) }
              ((app.allocate config worker).balance config fork, true)
        else (app.resetHighRatio config, false)
  else (app, false)

/-- `wr_app_wkr_error`. -/
def wkrError (app : App) (pid : Int) : App :=
  match app.state with
  | .restart => app.rollBack
  | .new => app.addErrorMsg.remove config
  | _ => (app.takePending config pid).1.heard config

/-- `wr_app_reload_cb` for this application, with the configuration that was read. -/
def reloadCb (app : App) (ctl : Nat) (read : Option Conf) : App :=
  match read with
  | none => { app with replies := app.replies ++ [(ctl, false)] }
  | some new =>
      ({ app with
        new := some new
        state := .restart
        timeoutCounter := 0
        pending := []
        ctl := some ctl }.wkrAdd config fork).1

/-- `wr_app_add_cb` when the application exists already. -/
def addAgain (app : App) (ctl : Nat) : App :=
  { app with linked := ctl :: app.linked, replies := app.replies ++ [(ctl, false)] }

/-- `wr_app_remove_cb`. -/
def removeReq (app : App) (ctl : Nat) : App :=
  { app.remove config with replies := app.replies ++ [(ctl, true)] }

/-- `wr_ctl_free` for the connection of an administrator. -/
def ctlClosed (app : App) (ctl : Nat) : App :=
  { app with
    ctl := if ctl ∈ app.linked then none else app.ctl
    linked := app.linked.filter (· ≠ ctl) }

/-! ### The application from its insertion on -/

/-- The object `wr_app_insert` makes. -/
def created (conf : Conf) (ctl : Option Nat) : App where
  pool := Pool.empty config
  conf := conf
  new := none
  state := .new
  timeoutCounter := 0
  pending := []
  highRatio := 0
  lowRatio := 0
  tAdd := ⟨false, config.highLoad⟩
  tRemove := ⟨false, config.lowLoad⟩
  tAddTimeout := ⟨false, config.addTimeout⟩
  ctl := ctl
  resolved := conf
  linked := ctl.toList
  replies := []
  forks := 0
  lost := false

/-- `wr_app_insert`. -/
def insert (conf : Conf) (ctl : Option Nat) : App := (created config conf ctl).balance config fork

end App

/-- What happens to an application. -/
inductive Event where
  | complete
  | clientError (req : Nat)
  | sent (worker : Nat)
  | part (worker : Nat)
  | processed (worker : Nat)
  | dataError (worker : Nat)
  | ctlFree (worker : Nat)
  | removeCb (worker : Nat)
  | timeout (worker : Nat)
  | reply (worker : Nat)
  | connect (pid : Nat) (connection : App.Connection)
  | wkrError (pid : Int)
  | reload (ctl : Nat) (read : Option Conf)
  | addAgain (ctl : Nat)
  | remove (ctl : Nat)
  | ctlClosed (ctl : Nat)
  | addTimeout
  | addTimer
  | removeTimer (reported : Option Nat)

namespace App

variable (config : Config) (fork : Nat → Int)

/-- The worker is registered and has a request. -/
def Occupied (app : App) (worker : Nat) : Prop :=
  worker ∈ app.pool.workers ∧ (app.pool.wkr worker).req.isSome = true

instance (app : App) (worker : Nat) : Decidable (app.Occupied worker) :=
  inferInstanceAs (Decidable (_ ∧ _))

/-- One callback. What is not due in a state, or meant for an object that is gone, has no
effect. -/
def step (event : Event) (app : App) : App :=
  if app.state = .destroy then app
  else
    match event with
    | .complete => app.complete config
    | .clientError req =>
        if (app.pool.req req).live then { app with pool := app.pool.errResp req } else app
    | .sent worker | .part worker =>
        if app.Occupied worker then { app with pool := app.pool.waitStart config worker } else app
    | .processed worker => if app.Occupied worker then app.reqProcessed config worker else app
    | .dataError worker => if app.Occupied worker then app.dataError config worker else app
    | .ctlFree worker =>
        if worker ∈ app.pool.workers then app.ctlFree config fork worker else app
    | .removeCb worker =>
        if worker ∈ app.pool.workers then app.removeCb config fork worker else app
    | .timeout worker =>
        if worker ∈ app.pool.workers ∧ (app.pool.wkr worker).tWait.active then
          app.waitCb config fork worker
        else app
    | .reply worker =>
        if worker ∈ app.pool.workers then
          { app with pool := app.pool.stateMachine config worker .pingReplay }
        else app
    | .connect pid connection => (app.connect config fork pid connection).1
    | .wkrError pid => app.wkrError config pid
    | .reload ctl read => app.reloadCb config fork ctl read
    | .addAgain ctl => app.addAgain ctl
    | .remove ctl => app.removeReq config ctl
    | .ctlClosed ctl => app.ctlClosed ctl
    | .addTimeout => if app.tAddTimeout.active then app.addTimeoutCb config fork else app
    | .addTimer => if app.tAdd.active then app.addCb config fork else app
    | .removeTimer reported =>
        if app.tRemove.active then app.removeTimerCb config reported else app

/-- An application of one worker. -/
def smallConf : Conf := ⟨1, 2, ⟨⟨[], noNul_nil⟩, none, []⟩⟩

end App
