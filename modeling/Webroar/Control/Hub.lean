import Webroar.App.Answering
import Webroar.App.Atomicity
import Webroar.Control.HeadSlot

/-! # What the head does with a control message

A control message reaches past its connection: it can insert and remove applications, free workers
together with their connections, and answer an administrator who waits on another connection. So
the callbacks work on all applications and all control connections of the head.

They are partial. They have no result where the head uses a header, a worker, an application or a
connection that is not there, or writes behind the path of a socket address.
-/

open HeadCtl (MsgType wrCtlMsgValidate)

/-- `wr_ctl_t`: whether the object is allocated and has an object to send, the number of the
application of its worker and that of the worker, and the application it was linked to. -/
structure CtlConn where
  live : Bool
  scgi : Bool
  wkr : Option (Nat × Nat)
  app : Option Nat
deriving DecidableEq

/-- The connection after `wr_ctl_free`. -/
def CtlConn.ended (conn : CtlConn) : CtlConn := { conn with live := false, wkr := none }

/-- The application when the connection of the administrator has ended who waited for it. -/
def App.abandon (app : App) : App := { app with ctl := none }

/-- `STATUS: OK`, `STATUS: ERROR`, or the configuration of an application. -/
inductive CtlAnswer where
  | ok | error
  | conf (app : Nat)
deriving DecidableEq, Repr

/-- The configuration of the head. -/
structure HeadSetup where
  config : Config
  uds : Bool
  staticName : List UInt8

/-- What comes from outside while a message is handled: the process ids that forks return, the
result of `wr_conf_app_read`, and whether the steps of connecting to a worker succeed. -/
structure Outside where
  fork : Nat → Int
  read : Option Conf
  socket : Bool
  connected : Bool
  nonblock : Bool

/-- The applications and the control connections of the head. `names` are those of `server->apps`,
the last inserted first, `owner` is `worker->ctl`, and `answers` are the objects that were handed
over to be sent. -/
structure Hub where
  apps : Nat → Option App
  names : List (List UInt8 × Nat)
  staticApp : Option Nat
  nextApp : Nat
  conns : Nat → CtlConn
  owner : Nat → Nat → Option Nat
  answers : List (Nat × CtlAnswer)

namespace Hub

variable (setup : HeadSetup) (outside : Outside)

/-- The application has not been removed. -/
def serves (hub : Hub) (app : Nat) : Bool :=
  (hub.apps app).any fun app => app.state ≠ .destroy

/-- `wr_app_exist`. -/
def exist (hub : Hub) (name : List UInt8) : Option Nat :=
  match hub.names.find? fun known => known.1 = name && hub.serves known.2 with
  | some known => some known.2
  | none => if name = setup.staticName then hub.staticApp.filter hub.serves else none

def setConn (hub : Hub) (ctl : Nat) (conn : CtlConn) : Hub :=
  { hub with conns := Function.update hub.conns ctl conn }

def modify (hub : Hub) (app : Nat) (change : App → App) : Hub :=
  { hub with apps := Function.update hub.apps app ((hub.apps app).map change) }

/-- An answer is handed over; without an object there is nothing to send. -/
def answer (ctl : Nat) (reply : CtlAnswer) (hub : Hub) : Option Hub :=
  if (hub.conns ctl).live then
    if (hub.conns ctl).scgi then some { hub with answers := hub.answers ++ [(ctl, reply)] }
    else some hub
  else none

/-- An answer for the administrator who waits for the application, if there is one. -/
def tell (app : Nat) (reply : CtlAnswer) (hub : Hub) : Option Hub :=
  match (hub.apps app).bind App.ctl with
  | some ctl => hub.answer ctl reply
  | none => some hub

/-! ### Connections that end -/

/-- `wr_ctl_free`, called from `wr_wkr_free`. -/
def ctlFree (ctl : Nat) (hub : Hub) : Option Hub :=
  if (hub.conns ctl).live then
    let freed := hub.setConn ctl (hub.conns ctl).ended
    match (hub.conns ctl).app with
    | some app => if hub.serves app then some (freed.modify app App.abandon) else none
    | none => some freed
  else none

/-- The connections of workers of an application. -/
def owners (hub : Hub) (app : Nat) (workers : List Nat) : List Nat :=
  workers.filterMap (hub.owner app)

/-- Workers are freed one after the other. -/
def ctlFreeAll : List Nat → Hub → Option Hub
  | [], hub => some hub
  | ctl :: rest, hub => (hub.ctlFree ctl).bind (ctlFreeAll rest)

/-- `wr_app_remove` of an application that was found. -/
def appRemove (app : Nat) (workers : List Nat) (hub : Hub) : Option Hub :=
  (hub.ctlFreeAll (hub.owners app workers)).map fun hub =>
    hub.modify app (App.remove setup.config)

/-! ### Messages about applications -/

/-- `wr_app_insert`. -/
def appInsert (name : List UInt8) (conf : Conf) (ctl : Nat) (hub : Hub) : Hub where
  apps := Function.update hub.apps hub.nextApp
    (some (App.insert setup.config outside.fork conf (some ctl)))
  names := if name = setup.staticName then hub.names else (name, hub.nextApp) :: hub.names
  staticApp := if name = setup.staticName then some hub.nextApp else hub.staticApp
  nextApp := hub.nextApp + 1
  conns := Function.update hub.conns ctl { hub.conns ctl with app := some hub.nextApp }
  owner := hub.owner
  answers := hub.answers

/-- What `wr_app_add_cb` and `wr_app_reload_cb` do when there is no such application. -/
def insertFor (ctl : Nat) (name : List UInt8) (hub : Hub) : Option Hub :=
  match outside.read with
  | some conf => some (hub.appInsert setup outside name conf ctl)
  | none => hub.answer ctl .error

/-- `wr_app_add_cb`. -/
def appAddCb (ctl : Nat) (get : List UInt8 → Option (List UInt8)) (hub : Hub) : Option Hub := do
  let name ← get (ascii "APP_NAME")
  match hub.exist setup name with
  | some app => (hub.setConn ctl { hub.conns ctl with app := some app }).answer ctl .error
  | none => hub.insertFor setup outside ctl name

/-- `wr_app_remove_cb`. The static server counts as removed also when it was not there. -/
def appRemoveCb (ctl : Nat) (get : List UInt8 → Option (List UInt8)) (hub : Hub) : Option Hub := do
  let name ← get (ascii "APP_NAME")
  match hub.exist setup name with
  | some number =>
      let app ← hub.apps number
      let removed ← hub.appRemove setup number app.pool.workers
      removed.answer ctl .ok
  | none => hub.answer ctl (if name = setup.staticName then .ok else .error)

/-- `wr_app_reload_cb`. -/
def appReloadCb (ctl : Nat) (get : List UInt8 → Option (List UInt8)) (hub : Hub) : Option Hub := do
  let name ← get (ascii "APP_NAME")
  match hub.exist setup name with
  | some number =>
      match outside.read with
      | some conf =>
          some (hub.modify number fun app =>
            app.reloadCb setup.config outside.fork ctl (some conf))
      | none => hub.answer ctl .error
  | none => hub.insertFor setup outside ctl name

/-- `wr_app_conf_req_cb`. While the application restarts its new configuration is sent. -/
def appConfReqCb (ctl : Nat) (get : List UInt8 → Option (List UInt8)) (hub : Hub) :
    Option Hub := do
  let name ← get (ascii "APPLICATION")
  match hub.exist setup name with
  | some number =>
      let app ← hub.apps number
      let _ ← if app.state = .restart then app.new else some app.conf
      hub.answer ctl (.conf number)
  | none => hub.answer ctl .error

/-! ### Messages about workers -/

/-- `wr_wkr_check_uds`. -/
def wkrCheckUds (get : List UInt8 → Option (List UInt8)) : Option Bool := do
  let uds ← get (ascii "UDS")
  if setup.uds then
    some (uds = ascii "YES" && (get (ascii "SOCK_PATH")).isSome)
  else
    some (uds = ascii "NO" && (get (ascii "PORT")).isSome)

/-- The size of `sun_path` in a socket address. -/
def sunPath : Nat := 108

/-- `wr_wkr_connect_uds` or `wr_wkr_connect_inet`: whether the connection stands. -/
def wkrConnectSocket (get : List UInt8 → Option (List UInt8)) : Option Bool := do
  if outside.socket then
    if setup.uds then
      let path ← get (ascii "SOCK_PATH")
      if path.length < sunPath then some outside.connected else none
    else
      let _ ← get (ascii "PORT")
      some outside.connected
  else
    some false

/-- What `wr_app_wkr_insert` does outside the application when it takes a worker: with a reload the
free workers go, and the administrator who waits gets his answer. -/
def wkrGreet (number : Nat) (app : App) (hub : Hub) : Option Hub :=
  match app.state with
  | .restart => do
      let reloaded ← hub.ctlFreeAll (hub.owners number app.pool.freeWorkers)
      reloaded.tell number .ok
  | .new => hub.tell number .ok
  | _ => some hub

/-- `ctl->wkr` and `worker->ctl` of a worker that is taken. -/
def wkrRegister (ctl number worker : Nat) (hub : Hub) : Hub :=
  { hub.setConn ctl { hub.conns ctl with wkr := some (number, worker) } with
    owner := Function.update hub.owner number
      (Function.update (hub.owner number) worker (some ctl)) }

/-- The rest of `wr_wkr_connect` for a worker that `wr_app_wkr_insert` took, and the answer. -/
def wkrJoin (ctl number pid : Nat) (worker : Nat) (connection : App.Connection) (hub : Hub) :
    Option Hub := do
  let app ← hub.apps number
  let joined := app.connect setup.config outside.fork pid connection
  let hub := hub.modify number fun _ => joined.1
  if joined.2 then (hub.wkrRegister ctl number worker).answer ctl .ok else hub.answer ctl .error

/-- The process id of a message as `worker->pid` holds it. -/
def pidOf (value : List UInt8) : Nat := (Decimal.atoi value % 65536).toNat

/-- `wr_wkr_add_cb`. -/
def wkrAddCb (ctl : Nat) (get : List UInt8 → Option (List UInt8)) (hub : Hub) : Option Hub := do
  if ← wkrCheckUds setup get then
    let pid := pidOf (← get (ascii "PID"))
    match hub.exist setup (← get (ascii "APPLICATION")) with
    | some number =>
        let app ← hub.apps number
        match app.wkrInsert setup.config pid with
        | (_, true) =>
            let greeted ← hub.wkrGreet number app
            let connected ← wkrConnectSocket setup outside get
            greeted.wkrJoin setup outside ctl number pid app.pool.nextWkr
              ⟨true, connected, outside.nonblock⟩
        | (after, false) => (hub.modify number fun _ => after).answer ctl .error
    | none => hub.answer ctl .error
  else
    hub.answer ctl .error

/-- What `wr_app_wkr_error` does outside the application. -/
def wkrFail (number : Nat) (app : App) (hub : Hub) : Option Hub :=
  match app.state with
  | .restart => hub.tell number .error
  | .new => do
      let told ← hub.tell number .error
      told.ctlFreeAll (hub.owners number app.pool.workers)
  | _ => some hub

/-- `wr_wkr_add_error_cb`. -/
def wkrAddErrorCb (ctl : Nat) (get : List UInt8 → Option (List UInt8)) (hub : Hub) :
    Option Hub := do
  match hub.exist setup (← get (ascii "APPLICATION")) with
  | some number =>
      let app ← hub.apps number
      let pid := Decimal.atoi (← get (ascii "PID"))
      let failed ← hub.wkrFail number app
      (failed.modify number fun app => app.wkrError setup.config pid).answer ctl .ok
  | none => hub.answer ctl .ok

/-- `wr_wkr_remove_cb`. The worker is freed with its connection before the answer is written. -/
def wkrRemoveCb (ctl : Nat) (hub : Hub) : Option Hub :=
  match (hub.conns ctl).wkr with
  | some (number, worker) => do
      let freed ← hub.ctlFreeAll (hub.owners number [worker])
      let answered ← freed.answer ctl .ok
      some (answered.modify number fun app => app.removeCb setup.config outside.fork worker)
  | none => hub.answer ctl .error

/-- `wr_wkr_ping_cb`. The answer is thrown away. -/
def wkrPingCb (ctl : Nat) (hub : Hub) : Option Hub := do
  let (number, worker) ← (hub.conns ctl).wkr
  let app ← hub.apps number
  let freed ←
    if ((app.pool.wkr worker).stateMachine setup.config .pingReplay).2 = .stay then some hub
    else hub.ctlFreeAll (hub.owners number [worker])
  let moved := freed.modify number fun app =>
    { app with pool := app.pool.stateMachine setup.config worker .pingReplay }
  if (moved.conns ctl).live then
    some (moved.setConn ctl { moved.conns ctl with scgi := false })
  else none

/-! ### A message -/

/-- `wr_ctl_msg_validate` begins a reply. -/
def replyNew (ctl : Nat) (hub : Hub) : Hub :=
  hub.setConn ctl { hub.conns ctl with scgi := true }

/-- The type of a message whose headers are read with `get`. -/
def msgType (get : List UInt8 → Option (List UInt8)) : MsgType :=
  (wrCtlMsgValidate (fun _ => 0) get).1

/-- `wr_ctl_msg_process`. -/
def msgProcess (ctl : Nat) (get : List UInt8 → Option (List UInt8)) (hub : Hub) : Option Hub :=
  let hub := hub.replyNew ctl
  match msgType get with
  | .none => some hub
  | .typeError => hub.answer ctl .error
  | .applicationAdd => hub.appAddCb setup outside ctl get
  | .applicationRemove => hub.appRemoveCb setup ctl get
  | .applicationReload => hub.appReloadCb setup outside ctl get
  | .workerAdd => hub.wkrAddCb setup outside ctl get
  | .workerAddError => hub.wkrAddErrorCb setup ctl get
  | .workerRemove => hub.wkrRemoveCb setup outside ctl
  | .workerPing => hub.wkrPingCb setup ctl
  | .workerConfReq => hub.appConfReqCb setup ctl get

/-- `wr_ctl_msg_read_cb` with the bytes that are in `ctl->msg` then. At its end it writes to the
connection. -/
def msgReadCb (ctl : Nat) (msg : List UInt8) (hub : Hub) : Option Hub :=
  match CtlMessage.headLook msg with
  | .wait => some hub
  | .refuse => none
  | .take request => do
      let after ← hub.msgProcess setup outside ctl request.headerValueGet
      if (after.conns ctl).live then some after else none

/-! ### Looking applications up -/

section

variable {setup outside} {hub after : Hub} {ctl number : Nat} {name : List UInt8}

/-- An application that is found has not been removed. -/
theorem exist_serves (found : hub.exist setup name = some number) : hub.serves number = true := by
  unfold exist at found
  split at found
  · next known looked =>
      cases found
      have held := List.find?_some looked
      rw [Bool.and_eq_true] at held
      exact held.2
  · split at found
    · exact (Option.filter_eq_some_iff.mp found).2
    · exact nomatch found

/-- One of the connections was linked to the application. -/
def unlinks (hub : Hub) (ctls : List Nat) (number : Nat) : Bool :=
  ctls.any fun ctl => (hub.conns ctl).app = some number

/-- The head after connections have ended. -/
def closed (hub : Hub) (ctls : List Nat) : Hub :=
  { hub with
    apps := fun number => (hub.apps number).map fun app =>
      if hub.unlinks ctls number then app.abandon else app
    conns := fun ctl =>
      if ctl ∈ ctls then (hub.conns ctl).ended else hub.conns ctl }

/-- Each of the connections is there when its turn comes, and so is the application it was linked
to. -/
structure Closable (hub : Hub) (ctls : List Nat) : Prop where
  nodup : ctls.Nodup
  live : ∀ ctl ∈ ctls, (hub.conns ctl).live = true
  linked : ∀ ctl ∈ ctls, ∀ number, (hub.conns ctl).app = some number → hub.serves number = true

theorem closed_other {ctls : List Nat} (other : ctl ∉ ctls) :
    (hub.closed ctls).conns ctl = hub.conns ctl := if_neg other

end

end Hub
