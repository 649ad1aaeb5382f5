import Webroar.Control.Slot

/-! # Outgoing messages of the head

For every message that the head reads it begins a reply in the slot of the connection. Most replies
are finished at once; the reply to a request to add or to reload an application is finished when the
application has started or failed. The timer of a worker puts a ping into the slot of the worker's
connection.

What the rest of the server answers to a message comes with the message.
-/

open Scgi (Call)

namespace HeadCtl

/-- The types of control messages. -/
inductive MsgType where
  | none
  | typeError
  | applicationAdd
  | applicationRemove
  | applicationReload
  | workerAdd
  | workerAddError
  | workerRemove
  | workerPing
  | workerConfReq
deriving DecidableEq, Repr

/-- How a request to reload an application ends, or that the application answers later. -/
inductive Reloaded where
  | reloading
  /-- The new configuration cannot be read. -/
  | unreadable (errMsg : List UInt8)
  /-- There is no such application, and it is inserted, or not. -/
  | inserted
  | notInserted
  | notFound (errMsg : List UInt8)

/-- What the rest of the server makes of a message. -/
structure Server where
  /-- None when the application is inserted. -/
  appAdd : Option (List UInt8)
  /-- None when the application is removed. -/
  appRemove : Option (List UInt8)
  appReload : Reloaded
  /-- A text when the worker is not connected. -/
  wkrConnect : Option (Option (List UInt8))
  /-- The object of the configuration, if there is one. -/
  conf : Option ConfReplies.Conf

/-- `wr_ctl_t`: beside the slot whether the object is freed when it was sent, the type of the last
message, whether an application is to answer here, whether there is a worker, and whether the
connection was freed or the head has crashed. -/
structure Ctl where
  slot : Slot
  destroyScgi : Bool
  type : MsgType
  waiting : Bool
  wkr : Bool
  freed : Bool
  crashed : Bool

/-- A new connection. -/
def Ctl.new : Ctl := ⟨.empty, true, .none, false, false, false, false⟩

/-! ### Reading a message -/

def component : List UInt8 := ascii "COMPONENT"
def method : List UInt8 := ascii "METHOD"
def status : List UInt8 := ascii "STATUS"

/-- A reply that says what is wrong. -/
def ctlMsgErr (scgi : Scgi) (error : String) : MsgType × Scgi :=
  (.typeError, (scgi.bodyAdd (ascii error)).headerAdd status (ascii "ERROR"))

/-- The headers that say who a worker is. -/
def workerHeaders (get : List UInt8 → Option (List UInt8)) : Bool :=
  (get (ascii "APPLICATION")).isSome && (get (ascii "PID")).isSome && (get (ascii "UDS")).isSome

/-- The type of a message whose headers are read with `get`, and the reply that is begun. -/
def wrCtlMsgValidate (junk : Nat → UInt8) (get : List UInt8 → Option (List UInt8)) :
    MsgType × Scgi :=
  let scgi := Scgi.new junk
  match get component with
  | none => ctlMsgErr scgi "COMPONENT missing."
  | some val =>
      let scgi := scgi.headerAdd component val
      if val = ascii "APPLICATION" then
        match get method with
        | none => ctlMsgErr scgi "METHOD missing."
        | some val =>
            let scgi := scgi.headerAdd method val
            if get (ascii "APP_NAME") = none then
              ctlMsgErr scgi "Application name is missing."
            else if val = ascii "ADD" then
              (.applicationAdd, scgi)
            else if val = ascii "REMOVE" then
              (.applicationRemove, scgi)
            else if val = ascii "RELOAD" then
              (.applicationReload, scgi)
            else
              ctlMsgErr scgi "Invalid METHOD."
      else if val = ascii "WORKER" then
        match get method with
        | none => ctlMsgErr scgi "METHOD missing."
        | some val =>
            let scgi := scgi.headerAdd method (if val = ascii "ERROR" then ascii "ACK" else val)
            if val = ascii "ADD" then
              if workerHeaders get then (.workerAdd, scgi)
              else ctlMsgErr scgi "Missing some headers."
            else if val = ascii "REMOVE" then
              (.workerRemove, scgi)
            else if val = ascii "PING" then
              (.workerPing, scgi)
            else if val = ascii "CONF_REQ" then
              (.workerConfReq, scgi)
            else if val = ascii "ERROR" then
              if workerHeaders get then (.workerAddError, scgi)
              else ctlMsgErr scgi "Missing some headers."
            else
              ctlMsgErr scgi "Invalid METHOD."
      else
        ctlMsgErr scgi "Invalid COMPONENT."

namespace Ctl

/-- Add a header to the reply. -/
def headerAdd (field value : List UInt8) (ctl : Ctl) : Ctl :=
  { ctl with slot := ctl.slot.edit fun scgi => scgi.headerAdd field value }

/-- Add to the body of the reply. -/
def bodyAdd (body : List UInt8) (ctl : Ctl) : Ctl :=
  { ctl with slot := ctl.slot.edit fun scgi => scgi.bodyAdd body }

def statusOk (ctl : Ctl) : Ctl := ctl.headerAdd status (ascii "OK")

def statusError (ctl : Ctl) : Ctl := ctl.headerAdd status (ascii "ERROR")

/-- Finish the reply and start to send it; a shared object is finished already. -/
def wrCtlRespWrite (ctl : Ctl) : Ctl :=
  match ctl.slot.scgi with
  | none => ctl
  | some _ =>
      { ctl with slot := (if ctl.destroyScgi then ctl.slot.edit Scgi.build else ctl.slot).start }

/-- The application is to answer here. -/
def wait (ctl : Ctl) : Ctl := { ctl with waiting := true }

def wrAppAddCb (server : Server) (ctl : Ctl) : Ctl :=
  match server.appAdd with
  | none => ctl.wait
  | some errMsg => (ctl.statusError.bodyAdd errMsg).wrCtlRespWrite

def wrAppRemoveCb (server : Server) (ctl : Ctl) : Ctl :=
  match server.appRemove with
  | none => ctl.statusOk.wrCtlRespWrite
  | some errMsg => (ctl.statusError.bodyAdd errMsg).wrCtlRespWrite

def wrAppReloadCb (server : Server) (ctl : Ctl) : Ctl :=
  let missing :=
    ctl.bodyAdd (ascii "Couldn't remove application. But trying to start application.")
  match server.appReload with
  | .reloading => ctl.wait
  | .unreadable errMsg => (ctl.bodyAdd errMsg).statusError.wrCtlRespWrite
  | .inserted => missing.wait
  | .notInserted => missing.statusError.wrCtlRespWrite
  | .notFound errMsg => (missing.bodyAdd errMsg).statusError.wrCtlRespWrite

def wrWkrAddCb (server : Server) (ctl : Ctl) : Ctl :=
  match server.wkrConnect with
  | none => { ctl with wkr := true }.statusOk.wrCtlRespWrite
  | some none => ctl.statusError.wrCtlRespWrite
  | some (some text) => (ctl.bodyAdd text).statusError.wrCtlRespWrite

def wrWkrAddErrorCb (ctl : Ctl) : Ctl := ctl.statusOk.wrCtlRespWrite

/-- Removing the worker frees its connection; the reply is written to that all the same. -/
def wrWkrRemoveCb (ctl : Ctl) : Ctl :=
  if ctl.wkr then
    { ctl with wkr := false, freed := true }.statusOk.wrCtlRespWrite
  else
    ctl.statusError.wrCtlRespWrite

/-- The reply is thrown away. Without a worker the head crashes. -/
def wrWkrPingCb (ctl : Ctl) : Ctl :=
  if ctl.wkr then { ctl with slot := ctl.slot.clear }.wrCtlRespWrite
  else { ctl with crashed := true }

/-- The object of the configuration takes the place of the reply. -/
def wrAppConfReqCb (server : Server) (ctl : Ctl) : Ctl :=
  match server.conf with
  | none => ctl.statusError.wrCtlRespWrite
  | some conf =>
      { ctl with slot := ctl.slot.put conf.scgi, destroyScgi := false }.wrCtlRespWrite

/-- Begin a reply and process the message. -/
def wrCtlMsgProcess (junk : Nat → UInt8) (get : List UInt8 → Option (List UInt8))
    (server : Server) (ctl : Ctl) : Ctl :=
  let (type, reply) := wrCtlMsgValidate junk get
  let ctl := { ctl with slot := ctl.slot.put reply, type := type }
  match type with
  | .none => ctl
  | .typeError => ctl.wrCtlRespWrite
  | .applicationAdd => ctl.wrAppAddCb server
  | .applicationRemove => ctl.wrAppRemoveCb server
  | .applicationReload => ctl.wrAppReloadCb server
  | .workerAdd => ctl.wrWkrAddCb server
  | .workerAddError => ctl.wrWkrAddErrorCb
  | .workerRemove => ctl.wrWkrRemoveCb
  | .workerPing => ctl.wrWkrPingCb
  | .workerConfReq => ctl.wrAppConfReqCb server

/-! ### The other events of a connection -/

/-- `wr_wkr_ping_send`. -/
def wrWkrPingSend (junk : Nat → UInt8) (ctl : Ctl) : Ctl :=
  let scgi := ((Scgi.new junk).headerAdd component (ascii "WORKER")).headerAdd method (ascii "PING")
  { ctl with slot := (ctl.slot.put scgi.build).start }

/-- The application has started. -/
def appStarted (ctl : Ctl) : Ctl := { ctl.statusOk.wrCtlRespWrite with waiting := false }

/-- What is said of an application that failed. -/
def startError (name : List UInt8) : List UInt8 :=
  ascii "The application could not be started due to the following error. Please refer '" ++
  ascii "/var/log/webroar/" ++ name ++
  ascii ".log' and the application log file for more details."

/-- `wr_app_add_error_msg`. -/
def wrAppAddErrorMsg (name : List UInt8) (ctl : Ctl) : Ctl :=
  { (ctl.statusError.bodyAdd (startError name)).wrCtlRespWrite with waiting := false }

/-- The connection is closed with the last byte of a reply to an error. -/
def wrCtlMsgWriteCb (room : Nat) (ctl : Ctl) : Ctl :=
  match ctl.slot.scgi with
  | none => { ctl with crashed := true }
  | some outgoing =>
      let sent := Slot.sent room outgoing
      if (outgoing.progress.scgi.sendOnce (Slot.taken room)).2.1 ≤ 0 then
        { ctl with slot := { ctl.slot with scgi := some sent } }
      else if sent.progress.scgi.length ≤ sent.progress.scgi.bytesSent then
        let ctl := { ctl with slot := ctl.slot.finish sent, destroyScgi := true }
        if ctl.type = .typeError ∨ ctl.type = .workerAddError then { ctl with freed := true }
        else ctl
      else
        { ctl with slot := { ctl.slot with scgi := some sent } }

/-- The object of the configuration is freed; the pointer to it shows nothing any more. -/
def confFreed (ctl : Ctl) : Ctl :=
  if ctl.destroyScgi then ctl else { ctl with slot := ctl.slot.clear }

end Ctl

/-- A message is read, the timer of the worker runs out, the application has started or failed,
there is room on the socket, or the configuration is freed. -/
inductive Event where
  | message (get : List UInt8 → Option (List UInt8)) (server : Server)
  | ping
  | started
  | failed (name : List UInt8)
  | writable (room : Nat)
  | confFreed

/-- Nothing happens any more when the connection was freed or the head has crashed; pings are sent
to workers only, an application answers once, and only an active watcher is called. -/
def step (junk : Nat → UInt8) (event : Event) (ctl : Ctl) : Ctl :=
  if ctl.freed || ctl.crashed then
    ctl
  else
    match event with
    | .message get server => ctl.wrCtlMsgProcess junk get server
    | .ping => if ctl.wkr then ctl.wrWkrPingSend junk else ctl
    | .started => if ctl.waiting then ctl.appStarted else ctl
    | .failed name => if ctl.waiting then ctl.wrAppAddErrorMsg name else ctl
    | .writable room => if ctl.slot.active then ctl.wrCtlMsgWriteCb room else ctl
    | .confFreed => ctl.confFreed

/-! ### What is in the slot -/

/-- What a connection is in: it is idle, an application is to answer, something is sent, or nothing
happens any more. -/
inductive Stage (ctl : Ctl) : Prop where
  | idle (alive : (ctl.freed || ctl.crashed) = false) (none : ctl.slot.scgi = none)
      (inactive : ctl.slot.active = false) (quiet : ctl.waiting = false)
      (destroy : ctl.destroyScgi = true)
  | constructing (alive : (ctl.freed || ctl.crashed) = false) (reply : Outgoing)
      (some : ctl.slot.scgi = some reply) (fresh : reply.Fresh)
      (inactive : ctl.slot.active = false) (waits : ctl.waiting = true)
      (destroy : ctl.destroyScgi = true)
  | sending (alive : (ctl.freed || ctl.crashed) = false) (message : Outgoing)
      (some : ctl.slot.scgi = some message) (flight : message.Flight)
      (active : ctl.slot.active = true) (quiet : ctl.waiting = false)
  | gone (ended : (ctl.freed || ctl.crashed) = true) (inactive : ctl.slot.active = false)

/-- The invariant of a connection. -/
structure Holds (ctl : Ctl) : Prop where
  stage : Stage ctl
  numbered : ctl.slot.Numbered

/-- A reply was begun in an empty slot. -/
structure Begun (ctl : Ctl) : Prop where
  alive : (ctl.freed || ctl.crashed) = false
  reply : ∃ reply, ctl.slot.scgi = some reply ∧ reply.Fresh
  inactive : ctl.slot.active = false
  quiet : ctl.waiting = false
  destroy : ctl.destroyScgi = true
  numbered : ctl.slot.Numbered

variable {junk : Nat → UInt8} {ctl : Ctl} {get : List UInt8 → Option (List UInt8)}
  {server : Server}

/-- A call changes a reply, and nothing of it was sent. -/
theorem fresh_edit {reply : Outgoing} (fresh : reply.Fresh) {f : Scgi → Scgi}
    (kept : ∀ scgi, (f scgi).bytesSent = scgi.bytesSent) : (reply.edit f).Fresh :=
  ⟨(kept _).trans fresh.bytesSent, fresh.accepted⟩

theorem Begun.edit (begun : Begun ctl) {f : Scgi → Scgi}
    (kept : ∀ scgi, (f scgi).bytesSent = scgi.bytesSent) :
    Begun { ctl with slot := ctl.slot.edit f } := by
  obtain ⟨reply, some, fresh⟩ := begun.reply
  refine ⟨begun.alive, ⟨reply.edit f, ?_, fresh_edit fresh kept⟩, begun.inactive, begun.quiet,
    begun.destroy, begun.numbered.edit f⟩
  simp only [Slot.edit, some, Option.map_some]

theorem Begun.headerAdd (begun : Begun ctl) (field value : List UInt8) :
    Begun (ctl.headerAdd field value) :=
  begun.edit fun scgi => Scgi.bytesSent_call scgi (.headerAdd field value)

theorem Begun.bodyAdd (begun : Begun ctl) (body : List UInt8) : Begun (ctl.bodyAdd body) :=
  begun.edit fun scgi => Scgi.bytesSent_call scgi (.bodyAdd body)

/-- A reply that is finished is sent. -/
theorem Begun.wrCtlRespWrite (begun : Begun ctl) : Holds ctl.wrCtlRespWrite := by
  obtain ⟨reply, some, fresh⟩ := begun.reply
  unfold Ctl.wrCtlRespWrite
  simp only [some, begun.destroy, ↓reduceIte]
  refine ⟨.sending begun.alive (reply.edit Scgi.build) ?_ fresh.build rfl begun.quiet,
    (begun.numbered.edit Scgi.build).start⟩
  simp only [Slot.edit, Slot.start, some, Option.map_some]

/-- The application is to finish the reply. -/
theorem Begun.wait (begun : Begun ctl) : Holds ctl.wait := by
  obtain ⟨reply, some, fresh⟩ := begun.reply
  exact ⟨.constructing begun.alive reply some fresh begun.inactive rfl begun.destroy,
    begun.numbered⟩

/-- A reply is begun from a new object, with headers and a body. -/
theorem bytesSent_validate (junk : Nat → UInt8) (get : List UInt8 → Option (List UInt8)) :
    (wrCtlMsgValidate junk get).2.bytesSent = 0 := by
  have header : ∀ (scgi : Scgi) (field value : List UInt8),
      (scgi.headerAdd field value).bytesSent = scgi.bytesSent := fun scgi field value =>
    Scgi.bytesSent_call scgi (.headerAdd field value)
  have body : ∀ (scgi : Scgi) (text : List UInt8),
      (scgi.bodyAdd text).bytesSent = scgi.bytesSent := fun _ _ => rfl
  have new : (Scgi.new junk).bytesSent = 0 := Scgi.bytesSent_call _ (.headerAdd _ _)
  unfold wrCtlMsgValidate ctlMsgErr
  dsimp only
  -- Every branch only adds headers and bodies.
  repeat' split
  all_goals simp only [header, body, new]

/-- The reply to a message that finds the slot empty. -/
theorem begun_validate (holds : Holds ctl) (alive : (ctl.freed || ctl.crashed) = false)
    (none : ctl.slot.scgi = none) (type : MsgType) :
    Begun { ctl with slot := ctl.slot.put (wrCtlMsgValidate junk get).2, type := type } := by
  obtain ⟨stage, numbered⟩ := holds
  cases stage with
  | idle _ _ inactive quiet destroy =>
      exact ⟨alive, ⟨_, rfl, bytesSent_validate junk get, rfl⟩, inactive, quiet, destroy,
        numbered.put _⟩
  | constructing _ reply some =>
      rw [none] at some
      cases some
  | sending _ message some =>
      rw [none] at some
      cases some
  | gone ended =>
      rw [alive] at ended
      cases ended

/-- A finished object that is put into the slot is sent. -/
theorem Begun.send (begun : Begun ctl) {scgi : Scgi}
    (flight : (Outgoing.mk ctl.slot.next ⟨scgi, []⟩).Flight) :
    Holds { ctl with slot := ctl.slot.put scgi, destroyScgi := false }.wrCtlRespWrite :=
  ⟨.sending begun.alive _ rfl flight rfl begun.quiet, (begun.numbered.put scgi).start⟩

/-- The object of a configuration can be sent. -/
theorem flight_conf (conf : ConfReplies.Conf) (serial : Nat) :
    (Outgoing.mk serial ⟨conf.scgi, []⟩).Flight := by
  refine ⟨conf.scgi.block, [], 0, ⟨⟨?_, rfl, conf.bodiless, conf.fresh, Nat.zero_le _⟩, rfl⟩, ?_⟩
  · rw [List.length_nil, Nat.add_zero]
    exact conf.length
  · simp only [Outgoing.wire, Scgi.wire, conf.bodiless]

/-- A message that finds the slot empty. -/
theorem Begun.process (begun : Begun ctl) (server : Server) :
    Holds (ctl.wrAppAddCb server) ∧ Holds (ctl.wrAppRemoveCb server) ∧
      Holds (ctl.wrAppReloadCb server) ∧ Holds (ctl.wrWkrAddCb server) ∧
      Holds ctl.wrWkrAddErrorCb ∧ (ctl.wkr = false → Holds ctl.wrWkrRemoveCb) ∧
      Holds ctl.wrWkrPingCb ∧ Holds (ctl.wrAppConfReqCb server) := by
  have error : Begun ctl.statusError := begun.headerAdd _ _
  have missing := begun.bodyAdd
    (ascii "Couldn't remove application. But trying to start application.")
  refine ⟨?_, ?_, ?_, ?_, ?_, ?_, ?_, ?_⟩
  · unfold Ctl.wrAppAddCb
    split
    · exact begun.wait
    · exact (error.bodyAdd _).wrCtlRespWrite
  · unfold Ctl.wrAppRemoveCb
    split
    · exact (begun.headerAdd _ _).wrCtlRespWrite
    · exact (error.bodyAdd _).wrCtlRespWrite
  · unfold Ctl.wrAppReloadCb
    dsimp only
    split
    · exact begun.wait
    · exact ((begun.bodyAdd _).headerAdd _ _).wrCtlRespWrite
    · exact missing.wait
    · exact (missing.headerAdd _ _).wrCtlRespWrite
    · exact ((missing.bodyAdd _).headerAdd _ _).wrCtlRespWrite
  · unfold Ctl.wrWkrAddCb
    split
    · have connected : Begun { ctl with wkr := true } :=
        ⟨begun.alive, begun.reply, begun.inactive, begun.quiet, begun.destroy, begun.numbered⟩
      exact (connected.headerAdd _ _).wrCtlRespWrite
    · exact error.wrCtlRespWrite
    · exact ((begun.bodyAdd _).headerAdd _ _).wrCtlRespWrite
  · exact (begun.headerAdd _ _).wrCtlRespWrite
  · intro none
    unfold Ctl.wrWkrRemoveCb
    rw [if_neg (by rw [none]; decide)]
    exact error.wrCtlRespWrite
  · unfold Ctl.wrWkrPingCb
    split
    · exact ⟨.idle begun.alive rfl begun.inactive begun.quiet begun.destroy,
        begun.numbered.clear⟩
    · refine ⟨.gone ?_ begun.inactive, begun.numbered⟩
      rw [Bool.or_true]
  · unfold Ctl.wrAppConfReqCb
    split
    · exact error.wrCtlRespWrite
    · next conf _ => exact begun.send (flight_conf conf _)

/-- A step loses no message, and leaves no watcher active on a connection that was freed. -/
def Safe (junk : Nat → UInt8) (event : Event) (ctl : Ctl) : Prop :=
  Slot.Keeps ctl.slot (step junk event ctl).slot ctl.waiting ∧
    ((step junk event ctl).freed = true → (step junk event ctl).slot.active = false)

/-- A worker asks to be removed. -/
def Removes (get : List UInt8 → Option (List UInt8)) : Prop :=
  get component = some (ascii "WORKER") ∧ get method = some (ascii "REMOVE")

/-- A message or a ping finds the slot empty, a worker that has connected does not remove itself,
and a configuration is not freed while it is sent. -/
def Good (event : Event) (ctl : Ctl) : Prop :=
  (ctl.freed || ctl.crashed) = true ∨
    match event with
    | .message get _ => ctl.slot.scgi = none ∧
        (Removes get → ctl.wkr = false)
    | .ping => ctl.wkr = true → ctl.slot.scgi = none
    | .confFreed => ctl.destroyScgi = false → ctl.slot.scgi = none
    | _ => True

/-! ### One step -/

/-- An active watcher has its object, and a connection that was freed has no active watcher. -/
theorem Holds.watched (holds : Holds ctl) :
    (ctl.slot.active = true → ctl.slot.scgi ≠ none) ∧
      (ctl.freed = true → ctl.slot.active = false) := by
  cases holds.stage with
  | idle alive none inactive =>
      exact ⟨fun active => absurd (inactive.symm.trans active) Bool.false_ne_true,
        fun _ => inactive⟩
  | constructing alive reply some fresh inactive =>
      exact ⟨fun _ => by rw [some]; exact nofun, fun _ => inactive⟩
  | sending alive message some flight active quiet =>
      refine ⟨fun _ => by rw [some]; exact nofun, fun freed => ?_⟩
      rw [freed, Bool.true_or] at alive
      cases alive
  | gone ended inactive =>
      exact ⟨fun active => absurd (inactive.symm.trans active) Bool.false_ne_true,
        fun _ => inactive⟩

/-- The type of a message of a worker that asks to be removed. -/
theorem type_eq_workerRemove_iff (junk : Nat → UInt8) (get : List UInt8 → Option (List UInt8)) :
    (wrCtlMsgValidate junk get).1 = .workerRemove ↔ Removes get := by
  have application : ¬ ascii "APPLICATION" = ascii "WORKER" := by decide
  have add : ¬ ascii "ADD" = ascii "REMOVE" := by decide
  have ping : ¬ ascii "PING" = ascii "REMOVE" := by decide
  unfold wrCtlMsgValidate ctlMsgErr Removes
  dsimp only
  -- One goal for each type and each error.
  repeat' split
  all_goals simp_all

theorem type_validate (junk : Nat → UInt8) (get : List UInt8 → Option (List UInt8)) :
    (wrCtlMsgValidate junk get).1 ≠ .none := by
  unfold wrCtlMsgValidate ctlMsgErr
  dsimp only
  repeat' split
  all_goals exact nofun

/-- A message that finds the slot empty, and does not remove a worker of this connection. -/
theorem Holds.message (holds : Holds ctl) (alive : (ctl.freed || ctl.crashed) = false)
    (none : ctl.slot.scgi = none)
    (kept : (wrCtlMsgValidate junk get).1 = .workerRemove → ctl.wkr = false) (server : Server) :
    Holds (ctl.wrCtlMsgProcess junk get server) := by
  have begun := fun type => @begun_validate junk ctl get holds alive none type
  have known := type_validate junk get
  unfold Ctl.wrCtlMsgProcess
  generalize wrCtlMsgValidate junk get = validated at begun known kept ⊢
  obtain ⟨type, reply⟩ := validated
  obtain ⟨add, remove, reload, wkrAdd, wkrError, wkrRemove, ping, conf⟩ :=
    (begun type).process server
  cases type with
  | none => exact absurd rfl known
  | typeError => exact (begun _).wrCtlRespWrite
  | applicationAdd => exact add
  | applicationRemove => exact remove
  | applicationReload => exact reload
  | workerAdd => exact wkrAdd
  | workerAddError => exact wkrError
  | workerRemove => exact wkrRemove (kept rfl)
  | workerPing => exact ping
  | workerConfReq => exact conf

/-- A ping that finds the slot empty. -/
theorem Holds.ping (holds : Holds ctl) (alive : (ctl.freed || ctl.crashed) = false)
    (none : ctl.slot.scgi = none) (junk : Nat → UInt8) : Holds (ctl.wrWkrPingSend junk) := by
  have quiet : ctl.waiting = false := by
    cases holds.stage with
    | idle _ _ _ quiet => exact quiet
    | sending _ _ _ _ _ quiet => exact quiet
    | constructing _ reply some =>
        rw [none] at some
        cases some
    | gone ended =>
        rw [alive] at ended
        cases ended
  have fresh : (((Scgi.new junk).headerAdd component (ascii "WORKER")).headerAdd method
      (ascii "PING")).bytesSent = 0 :=
    (Scgi.bytesSent_call _ (.headerAdd _ _)).trans
      ((Scgi.bytesSent_call _ (.headerAdd _ _)).trans (Scgi.bytesSent_call _ (.headerAdd _ _)))
  have flight : (Outgoing.mk ctl.slot.next ⟨(((Scgi.new junk).headerAdd component
      (ascii "WORKER")).headerAdd method (ascii "PING")).build, []⟩).Flight :=
    @Outgoing.Fresh.build ⟨ctl.slot.next, ⟨_, []⟩⟩ ⟨fresh, rfl⟩
  exact ⟨.sending alive _ rfl flight rfl quiet, (holds.numbered.put _).start⟩

/-- The reply that an application finishes, after some changes, is sent; it is the one that was
begun. -/
theorem answered {reply : Outgoing} (alive : (ctl.freed || ctl.crashed) = false)
    (some : ctl.slot.scgi = some reply) (fresh : reply.Fresh)
    (inactive : ctl.slot.active = false) (destroy : ctl.destroyScgi = true)
    (numbered : ctl.slot.Numbered) {f : Scgi → Scgi}
    (kept : ∀ scgi, (f scgi).bytesSent = scgi.bytesSent) {after : Ctl}
    (written : after =
      { { ctl with slot := ctl.slot.edit f }.wrCtlRespWrite with waiting := false }) :
    Holds after ∧ ∃ same, after.slot.scgi = Option.some same ∧ same.serial = reply.serial := by
  have begun : Begun { ctl with waiting := false, slot := ctl.slot.edit f } :=
    @Begun.edit { ctl with waiting := false }
      ⟨alive, ⟨reply, some, fresh⟩, inactive, rfl, destroy, numbered⟩ f kept
  have shape : after = { ctl with waiting := false, slot := ctl.slot.edit f }.wrCtlRespWrite := by
    rw [written]
    simp only [Ctl.wrCtlRespWrite, Slot.edit, some, Option.map_some]
  refine ⟨shape ▸ begun.wrCtlRespWrite, (reply.edit f).edit Scgi.build, ?_, rfl⟩
  rw [shape]
  simp only [Ctl.wrCtlRespWrite, Slot.edit, some, Option.map_some, destroy, ↓reduceIte, Slot.start]

/-- A write to a socket with some room. -/
theorem Holds.write (holds : Holds ctl) (alive : (ctl.freed || ctl.crashed) = false)
    (active : ctl.slot.active = true) (room : Nat) :
    Holds (ctl.wrCtlMsgWriteCb room) ∧
      Slot.Keeps ctl.slot (ctl.wrCtlMsgWriteCb room).slot ctl.waiting := by
  obtain ⟨stage, numbered⟩ := holds
  cases stage with
  | idle _ _ inactive =>
      rw [inactive] at active
      cases active
  | constructing _ _ _ _ inactive =>
      rw [inactive] at active
      cases active
  | gone _ inactive =>
      rw [inactive] at active
      cases active
  | sending _ message some flight _ quiet =>
      obtain ⟨positive, next, -, whole⟩ := Slot.flight_sent flight room
      have going : ¬ (message.progress.scgi.sendOnce (Slot.taken room)).2.1 ≤ 0 :=
        Int.not_le_of_gt positive
      unfold Ctl.wrCtlMsgWriteCb
      simp only [some, if_neg going]
      by_cases ended : (Slot.sent room message).progress.scgi.length ≤
          (Slot.sent room message).progress.scgi.bytesSent
      · simp only [if_pos ended]
        have kept := Slot.keeps_finish some quiet (whole ended)
        have counted := numbered.finish some room
        split
        · refine ⟨⟨.gone ?_ rfl, counted⟩, kept⟩
          rw [Bool.true_or]
        · exact ⟨⟨.idle alive rfl rfl quiet rfl, counted⟩, kept⟩
      · simp only [if_neg ended]
        exact ⟨⟨.sending alive _ rfl next active quiet, numbered.sent some room⟩,
          Slot.keeps_sent some quiet room⟩

/-- A step that changes nothing loses nothing. -/
theorem Holds.unchanged (holds : Holds ctl) {event : Event} (same : step junk event ctl = ctl) :
    Holds (step junk event ctl) ∧ Safe junk event ctl := by
  unfold Safe
  rw [same]
  obtain ⟨watched, freed⟩ := holds.watched
  exact ⟨holds, ⟨watched, fun _ message found => Or.inl ⟨message, found, rfl⟩,
    fun _ message found => ⟨message, found, rfl⟩⟩, freed⟩

/-- A step to a new state of a connection whose slot was empty loses nothing. -/
theorem safe_of_none {event : Event} (none : ctl.slot.scgi = none)
    (holds : Holds (step junk event ctl)) :
    Holds (step junk event ctl) ∧ Safe junk event ctl :=
  ⟨holds, Slot.keeps_of_none none holds.watched.1, holds.watched.2⟩

/-- The application answers a request that waits for it. -/
theorem Holds.answer (holds : Holds ctl) (alive : (ctl.freed || ctl.crashed) = false)
    (waits : ctl.waiting = true) {f : Scgi → Scgi}
    (kept : ∀ scgi, (f scgi).bytesSent = scgi.bytesSent) {after : Ctl}
    (written : after =
      { { ctl with slot := ctl.slot.edit f }.wrCtlRespWrite with waiting := false }) :
    Holds after ∧ Slot.Keeps ctl.slot after.slot ctl.waiting := by
  obtain ⟨stage, numbered⟩ := holds
  cases stage with
  | idle _ _ _ quiet =>
      rw [quiet] at waits
      cases waits
  | sending _ _ _ _ _ quiet =>
      rw [quiet] at waits
      cases waits
  | gone ended =>
      rw [alive] at ended
      cases ended
  | constructing _ reply some fresh inactive _ destroy =>
      obtain ⟨holds, same, found, serial⟩ :=
        answered alive some fresh inactive destroy numbered kept written
      refine ⟨holds, holds.watched.1, fun active => ?_, fun _ message there => ?_⟩
      · rw [inactive] at active
        cases active
      · rw [some] at there
        cases there
        exact ⟨same, found, serial⟩

theorem wrAppAddErrorMsg_eq (name : List UInt8) (ctl : Ctl) :
    ctl.wrAppAddErrorMsg name =
      { { ctl with slot := ctl.slot.edit fun scgi =>
        (scgi.headerAdd status (ascii "ERROR")).bodyAdd (Ctl.startError name) }.wrCtlRespWrite with
        waiting := false } := by
  simp only [Ctl.wrAppAddErrorMsg, Ctl.statusError, Ctl.headerAdd, Ctl.bodyAdd, Slot.edit,
    Option.map_map]
  rfl

/-- A good step keeps the invariant and loses nothing. -/
theorem Holds.step (holds : Holds ctl) (event : Event) (good : Good event ctl) :
    Holds (step junk event ctl) ∧ Safe junk event ctl := by
  cases alive : ctl.freed || ctl.crashed with
  | true => exact holds.unchanged (by unfold HeadCtl.step; rw [if_pos alive])
  | false =>
      have going : ¬ (ctl.freed || ctl.crashed) = true := Bool.eq_false_iff.mp alive
      have good := good.resolve_left going
      cases event with
      | message get server =>
          obtain ⟨none, kept⟩ := good
          refine safe_of_none none ?_
          unfold HeadCtl.step
          rw [if_neg going]
          exact holds.message alive none
            (fun type => kept ((type_eq_workerRemove_iff junk get).mp type)) server
      | ping =>
          cases worker : ctl.wkr with
          | false => exact holds.unchanged (by unfold HeadCtl.step; simp [worker])
          | true =>
              refine safe_of_none (good worker) ?_
              unfold HeadCtl.step
              rw [if_neg going]
              simp only [worker, ↓reduceIte]
              exact holds.ping alive (good worker) junk
      | started =>
          cases waits : ctl.waiting with
          | false => exact holds.unchanged (by unfold HeadCtl.step; simp [waits])
          | true =>
              have shape : HeadCtl.step junk .started ctl = ctl.appStarted := by
                unfold HeadCtl.step
                rw [if_neg going]
                simp only [waits, ↓reduceIte]
              unfold Safe
              rw [shape]
              obtain ⟨after, keeps⟩ := @Holds.answer ctl holds alive waits
                (fun scgi => scgi.headerAdd status (ascii "OK"))
                (fun scgi => Scgi.bytesSent_call scgi (.headerAdd _ _)) ctl.appStarted rfl
              exact ⟨after, keeps, after.watched.2⟩
      | failed name =>
          cases waits : ctl.waiting with
          | false => exact holds.unchanged (by unfold HeadCtl.step; simp [waits])
          | true =>
              have shape : HeadCtl.step junk (.failed name) ctl = ctl.wrAppAddErrorMsg name := by
                unfold HeadCtl.step
                rw [if_neg going]
                simp only [waits, ↓reduceIte]
              unfold Safe
              rw [shape]
              obtain ⟨after, keeps⟩ := @Holds.answer ctl holds alive waits
                (fun scgi => (scgi.headerAdd status (ascii "ERROR")).bodyAdd _)
                (fun scgi => Scgi.bytesSent_call scgi (.headerAdd _ _))
                (ctl.wrAppAddErrorMsg name) (wrAppAddErrorMsg_eq name ctl)
              exact ⟨after, keeps, after.watched.2⟩
      | writable room =>
          cases active : ctl.slot.active with
          | false => exact holds.unchanged (by unfold HeadCtl.step; simp [active])
          | true =>
              have shape : HeadCtl.step junk (.writable room) ctl = ctl.wrCtlMsgWriteCb room := by
                unfold HeadCtl.step
                rw [if_neg going]
                simp only [active, ↓reduceIte]
              unfold Safe
              rw [shape]
              obtain ⟨after, keeps⟩ := holds.write alive active room
              exact ⟨after, keeps, after.watched.2⟩
      | confFreed =>
          refine holds.unchanged ?_
          unfold HeadCtl.step
          rw [if_neg going]
          unfold Ctl.confFreed
          cases shared : ctl.destroyScgi with
          | true => rfl
          | false =>
              have none : ctl.slot.scgi = none := good shared
              have same : ctl.slot.clear = ctl.slot := by
                unfold Slot.clear
                rw [← none]
              rw [if_neg Bool.false_ne_true, same]
              rw [← shared]

/-! ### What makes a step lose a message -/

/-- What was in the slot is not there any more. -/
structure Replaced (before : Slot) (after : Ctl) : Prop where
  fresh : ∀ message, after.slot.scgi = some message → before.next ≤ message.serial
  done : after.slot.done = before.done
  next : before.next ≤ after.slot.next

variable {before : Slot}

theorem Replaced.edit (replaced : Replaced before ctl) (f : Scgi → Scgi) :
    Replaced before { ctl with slot := ctl.slot.edit f } := by
  refine ⟨fun message same => ?_, replaced.done, replaced.next⟩
  obtain ⟨old, found, rfl⟩ := Option.map_eq_some_iff.mp same
  exact replaced.fresh old found

theorem Replaced.wrCtlRespWrite (replaced : Replaced before ctl) :
    Replaced before ctl.wrCtlRespWrite := by
  unfold Ctl.wrCtlRespWrite
  split
  · exact replaced
  · cases ctl.destroyScgi with
    | true =>
        have edited := replaced.edit Scgi.build
        exact ⟨edited.fresh, edited.done, edited.next⟩
    | false => exact ⟨replaced.fresh, replaced.done, replaced.next⟩

theorem Replaced.put (replaced : Replaced before ctl) (scgi : Scgi) (destroyed : Bool) :
    Replaced before { ctl with slot := ctl.slot.put scgi, destroyScgi := destroyed } := by
  refine ⟨?_, replaced.done, Nat.le_succ_of_le replaced.next⟩
  rintro message ⟨⟩
  exact replaced.next

theorem Replaced.headerAdd (replaced : Replaced before ctl) (field value : List UInt8) :
    Replaced before (ctl.headerAdd field value) := replaced.edit _

theorem Replaced.bodyAdd (replaced : Replaced before ctl) (body : List UInt8) :
    Replaced before (ctl.bodyAdd body) := replaced.edit _

/-- A message replaces what the slot holds, whatever it is. -/
theorem replaced_process (junk : Nat → UInt8) (get : List UInt8 → Option (List UInt8))
    (server : Server) (ctl : Ctl) :
    Replaced ctl.slot (ctl.wrCtlMsgProcess junk get server) := by
  unfold Ctl.wrCtlMsgProcess
  generalize wrCtlMsgValidate junk get = validated
  obtain ⟨type, reply⟩ := validated
  have begun : Replaced ctl.slot { ctl with slot := ctl.slot.put reply, type := type } := by
    refine ⟨?_, rfl, Nat.le_succ _⟩
    rintro message ⟨⟩
    exact Nat.le_refl _
  dsimp only
  generalize { ctl with slot := ctl.slot.put reply, type := type } = fresh at begun
  have error : Replaced ctl.slot fresh.statusError := begun.headerAdd _ _
  have missing := begun.bodyAdd
    (ascii "Couldn't remove application. But trying to start application.")
  cases type with
  | none => exact begun
  | typeError => exact begun.wrCtlRespWrite
  | applicationAdd =>
      dsimp only [Ctl.wrAppAddCb]
      split
      · exact ⟨begun.fresh, begun.done, begun.next⟩
      · exact (error.bodyAdd _).wrCtlRespWrite
  | applicationRemove =>
      dsimp only [Ctl.wrAppRemoveCb]
      split
      · exact (begun.headerAdd _ _).wrCtlRespWrite
      · exact (error.bodyAdd _).wrCtlRespWrite
  | applicationReload =>
      dsimp only [Ctl.wrAppReloadCb]
      split
      · exact ⟨begun.fresh, begun.done, begun.next⟩
      · exact ((begun.bodyAdd _).headerAdd _ _).wrCtlRespWrite
      · exact ⟨missing.fresh, missing.done, missing.next⟩
      · exact (missing.headerAdd _ _).wrCtlRespWrite
      · exact ((missing.bodyAdd _).headerAdd _ _).wrCtlRespWrite
  | workerAdd =>
      dsimp only [Ctl.wrWkrAddCb]
      split
      · have connected : Replaced ctl.slot { fresh with wkr := true } :=
          ⟨begun.fresh, begun.done, begun.next⟩
        exact (connected.headerAdd _ _).wrCtlRespWrite
      · exact error.wrCtlRespWrite
      · exact ((begun.bodyAdd _).headerAdd _ _).wrCtlRespWrite
  | workerAddError => exact (begun.headerAdd _ _).wrCtlRespWrite
  | workerRemove =>
      dsimp only [Ctl.wrWkrRemoveCb]
      split
      · have freed : Replaced ctl.slot { fresh with wkr := false, freed := true } :=
          ⟨begun.fresh, begun.done, begun.next⟩
        exact (freed.headerAdd _ _).wrCtlRespWrite
      · exact error.wrCtlRespWrite
  | workerPing =>
      dsimp only [Ctl.wrWkrPingCb]
      split
      · exact ⟨nofun, begun.done, begun.next⟩
      · exact ⟨begun.fresh, begun.done, begun.next⟩
  | workerConfReq =>
      dsimp only [Ctl.wrAppConfReqCb]
      split
      · exact error.wrCtlRespWrite
      · exact (begun.put _ false).wrCtlRespWrite

/-- The slot of a connection that goes on is empty unless its object is sent or constructed. -/
theorem Holds.used (holds : Holds ctl) (alive : (ctl.freed || ctl.crashed) = false)
    {message : Outgoing} (found : ctl.slot.scgi = some message) :
    ctl.slot.active = true ∨ ctl.waiting = true := by
  cases holds.stage with
  | idle _ none =>
      rw [none] at found
      cases found
  | constructing _ _ _ _ _ waits => exact Or.inr waits
  | sending _ _ _ _ active => exact Or.inl active
  | gone ended =>
      rw [alive] at ended
      cases ended

/-- A step that replaces an object loses it. -/
theorem Holds.none_of_replaced (holds : Holds ctl) (alive : (ctl.freed || ctl.crashed) = false)
    {after : Ctl} (replaced : Replaced ctl.slot after)
    (keeps : Slot.Keeps ctl.slot after.slot ctl.waiting) : ctl.slot.scgi = none := by
  cases found : ctl.slot.scgi with
  | none => rfl
  | some message =>
      exact absurd keeps (Slot.not_keeps_of_replaced holds.numbered found (holds.used alive found)
        replaced.fresh replaced.done)

/-- The reply to a worker that removes itself is written to the connection that was freed. -/
theorem removed (worker : ctl.wkr = true) (removes : (wrCtlMsgValidate junk get).1 = .workerRemove) :
    (ctl.wrCtlMsgProcess junk get server).freed = true ∧
      (ctl.wrCtlMsgProcess junk get server).slot.active = true := by
  unfold Ctl.wrCtlMsgProcess
  generalize wrCtlMsgValidate junk get = validated at removes
  obtain ⟨type, reply⟩ := validated
  cases removes
  simp only [Ctl.wrWkrRemoveCb, worker, ↓reduceIte, Ctl.wrCtlRespWrite, Ctl.statusOk,
    Ctl.headerAdd, Slot.edit, Slot.put, Option.map_some]
  exact ⟨trivial, rfl⟩

/-- A step that loses nothing is a good one. -/
theorem Holds.good (holds : Holds ctl) (event : Event) (safe : Safe junk event ctl) :
    Good event ctl := by
  cases alive : ctl.freed || ctl.crashed with
  | true => exact Or.inl alive
  | false =>
      have going : ¬ (ctl.freed || ctl.crashed) = true := Bool.eq_false_iff.mp alive
      refine Or.inr ?_
      unfold Safe HeadCtl.step at safe
      rw [if_neg going] at safe
      obtain ⟨keeps, freed⟩ := safe
      cases event with
      | message get server =>
          have none := holds.none_of_replaced alive (replaced_process junk get server ctl) keeps
          refine ⟨none, fun removes => Bool.eq_false_iff.mpr fun worker => ?_⟩
          obtain ⟨ended, active⟩ := removed worker ((type_eq_workerRemove_iff junk get).mpr removes)
          have inactive := freed ended
          dsimp only at inactive
          rw [active] at inactive
          cases inactive
      | ping =>
          intro worker
          simp only [worker, ↓reduceIte] at keeps
          have replaced : Replaced ctl.slot (ctl.wrWkrPingSend junk) := by
            refine ⟨?_, rfl, Nat.le_succ _⟩
            rintro message ⟨⟩
            exact Nat.le_refl _
          exact holds.none_of_replaced alive replaced keeps
      | started => trivial
      | failed name => trivial
      | writable room => trivial
      | confFreed =>
          intro shared
          have replaced : Replaced ctl.slot ctl.confFreed := by
            unfold Ctl.confFreed
            rw [if_neg (by rw [shared]; decide)]
            exact ⟨nofun, rfl, Nat.le_refl _⟩
          exact holds.none_of_replaced alive replaced keeps

/-! ### A whole run -/

/-- A connection after some events. -/
def after (junk : Nat → UInt8) (events : Nat → Event) (count : Nat) : Ctl :=
  Machine.after (step junk) events Ctl.new count

theorem holds_new : Holds Ctl.new := ⟨.idle rfl rfl rfl rfl rfl, Slot.numbered_empty⟩

/-- The head loses no outgoing message exactly when every message and every ping finds the slot
empty, no worker that has connected removes itself, and no configuration is freed on its way. -/
theorem keeps_all_iff (junk : Nat → UInt8) (events : Nat → Event) :
    (∀ count, Safe junk (events count) (after junk events count)) ↔
      ∀ count, Good (events count) (after junk events count) :=
  Machine.safe_iff Holds (Safe junk) Good holds_new
    (fun event _ holds good => holds.step event good)
    fun event _ holds safe => holds.good event safe

end HeadCtl
