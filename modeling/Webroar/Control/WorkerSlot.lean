import Webroar.Control.HeadSlot

/-! # Outgoing messages of a worker

A worker asks for its configuration first, and when it has come, and the application is loaded, says
that it is there or what is wrong. It answers pings at any time. The pointer to its outgoing message
also shows the message that is being processed, and is NULL after that.
-/

namespace WkrCtl

open HeadCtl (component method status)

/-- What a worker says of itself. -/
structure Wkr where
  name : List UInt8
  pid : List UInt8
  /-- The path of its socket, or its port. -/
  listens : List UInt8 ⊕ List UInt8

/-- How loading the application ends: the worker may not change its user, or there is an error, or
it listens. -/
inductive Loaded where
  | unprivileged
  | failed (error : List UInt8)
  | listening

/-- `wkr_ctl_t`: beside the slot whether it holds a message about an error, and `is_alive`. -/
structure Ctl where
  slot : Slot
  error : Bool
  alive : Bool

/-- A message of a worker. -/
def workerScgi (junk : Nat → UInt8) : Scgi :=
  (Scgi.new junk).headerAdd component (ascii "WORKER")

/-- Request the configuration. -/
def getConfigReqScgi (junk : Nat → UInt8) (w : Wkr) : Scgi :=
  (((workerScgi junk).headerAdd (ascii "APPLICATION") w.name).headerAdd method
    (ascii "CONF_REQ")).build

/-- Say that the worker is there, or that there is an error. -/
def getWorkerAddCtlScgi (w : Wkr) (flag : Bool) (scgi : Scgi) : Scgi :=
  let scgi := scgi.headerAdd component (ascii "WORKER")
  let scgi := scgi.headerAdd method (if flag then ascii "ERROR" else ascii "ADD")
  let scgi := (scgi.headerAdd (ascii "APPLICATION") w.name).headerAdd (ascii "PID") w.pid
  let scgi := match w.listens with
    | .inl path =>
        (scgi.headerAdd (ascii "UDS") (ascii "YES")).headerAdd (ascii "SOCK_PATH") path
    | .inr port => (scgi.headerAdd (ascii "UDS") (ascii "NO")).headerAdd (ascii "PORT") port
  scgi.build

/-- The object that is begun while the application is loaded. -/
def loadScgi (junk : Nat → UInt8) (error : Option (List UInt8)) : Scgi :=
  let scgi := Scgi.new junk
  match error with
  | none => scgi
  | some text => scgi.bodyAdd text

/-- The answer to a ping. -/
def pingScgi (junk : Nat → UInt8) : Scgi :=
  (((workerScgi junk).headerAdd method (ascii "PING")).headerAdd status (ascii "OK")).build

/-- A worker that has connected to the head. -/
def start (junk : Nat → UInt8) (w : Wkr) : Ctl where
  slot := (Slot.empty.put (getConfigReqScgi junk w)).start
  error := false
  alive := true

namespace Ctl

/-- Put a message into the slot and start to send it. -/
def send (scgi : Scgi) (ctl : Ctl) : Ctl := { ctl with slot := (ctl.slot.put scgi).start }

/-- Say how the application was loaded; an error stands in the body of the object. -/
def loadApplication (junk : Nat → UInt8) (w : Wkr) (error : Option (List UInt8)) (ctl : Ctl) : Ctl :=
  let scgi := loadScgi junk error
  if 0 < scgi.bodyLength then
    { ctl with error := true }.send (getWorkerAddCtlScgi w true scgi)
  else
    ctl.send (getWorkerAddCtlScgi w false scgi)

def applicationConfigReadCb (junk : Nat → UInt8) (w : Wkr) (loaded : Loaded) (ctl : Ctl) : Ctl :=
  match loaded with
  | .unprivileged => { ctl with alive := false }
  | .failed error => ctl.loadApplication junk w (some error)
  | .listening => ctl.loadApplication junk w none

/-- Process a message whose headers are read with `get`, and say whether the worker goes on. -/
def ctlMsgProcess (junk : Nat → UInt8) (w : Wkr) (get : List UInt8 → Option (List UInt8))
    (loaded : Loaded) (ctl : Ctl) : Ctl × Bool :=
  let ctl := { ctl with slot := ctl.slot.clear }
  match get method with
  | none => (ctl, true)
  | some value =>
      if value = ascii "ADD" then
        (ctl, get status = some (ascii "OK"))
      else if value = ascii "REMOVE" then
        (ctl, false)
      else if value = ascii "PING" then
        (ctl.send (pingScgi junk), true)
      else if value = ascii "ACK" then
        (ctl, false)
      else if value = ascii "CONF_REQ" then
        match get status with
        | none => (ctl.applicationConfigReadCb junk w loaded, true)
        | some value =>
            if value ≠ ascii "OK" then (ctl, false)
            else (ctl.applicationConfigReadCb junk w loaded, true)
      else
        (ctl, true)

/-- A message was read as a whole. -/
def ctlReadCb (junk : Nat → UInt8) (w : Wkr) (get : List UInt8 → Option (List UInt8))
    (loaded : Loaded) (ctl : Ctl) : Ctl :=
  let (ctl, goes) := ctl.ctlMsgProcess junk w get loaded
  if goes then ctl else { ctl with alive := false }

/-- The worker ends with the last byte of a message about an error. Without an object it crashes. -/
def ctlWriteCb (room : Nat) (ctl : Ctl) : Ctl :=
  match ctl.slot.scgi with
  | none => { ctl with alive := false }
  | some outgoing =>
      let sent := Slot.sent room outgoing
      if (outgoing.progress.scgi.sendOnce (Slot.taken room)).2.1 ≤ 0 then
        { ctl with
          slot := { ctl.slot with scgi := some sent, active := false }
          alive := false }
      else if sent.progress.scgi.length ≤ sent.progress.scgi.bytesSent then
        { ctl with
          slot := ctl.slot.finish sent
          alive := ctl.alive && !ctl.error }
      else
        { ctl with slot := { ctl.slot with scgi := some sent } }

end Ctl

/-- A message is read, or there is room on the socket. -/
inductive Event where
  | message (get : List UInt8 → Option (List UInt8)) (loaded : Loaded)
  | writable (room : Nat)

def step (junk : Nat → UInt8) (w : Wkr) (event : Event) (ctl : Ctl) : Ctl :=
  if ctl.alive then
    match event with
    | .message get loaded => ctl.ctlReadCb junk w get loaded
    | .writable room => if ctl.slot.active then ctl.ctlWriteCb room else ctl
  else
    ctl

/-- A step loses no message. -/
def Safe (junk : Nat → UInt8) (w : Wkr) (event : Event) (ctl : Ctl) : Prop :=
  Slot.Keeps ctl.slot (step junk w event ctl).slot false

/-- A message finds the slot empty. -/
def Good (event : Event) (ctl : Ctl) : Prop :=
  ctl.alive = false ∨
    match event with
    | .message _ _ => ctl.slot.scgi = none
    | .writable _ => True

/-! ### What is in the slot -/

/-- A worker is idle, sends a message, or has ended. -/
inductive Stage (ctl : Ctl) : Prop where
  | idle (alive : ctl.alive = true) (none : ctl.slot.scgi = none)
      (inactive : ctl.slot.active = false)
  | sending (alive : ctl.alive = true) (message : Outgoing) (some : ctl.slot.scgi = some message)
      (flight : message.Flight) (active : ctl.slot.active = true)
  | gone (ended : ctl.alive = false) (inactive : ctl.slot.active = false)

structure Holds (ctl : Ctl) : Prop where
  stage : Stage ctl
  numbered : ctl.slot.Numbered

variable {junk : Nat → UInt8} {w : Wkr} {ctl : Ctl} {get : List UInt8 → Option (List UInt8)}
  {loaded : Loaded}

theorem Holds.watched (holds : Holds ctl) : ctl.slot.active = true → ctl.slot.scgi ≠ none := by
  intro active
  cases holds.stage with
  | idle _ _ inactive => exact absurd (inactive.symm.trans active) Bool.false_ne_true
  | sending _ message some =>
      rw [some]
      exact nofun
  | gone _ inactive => exact absurd (inactive.symm.trans active) Bool.false_ne_true

/-- A header is added to an object from which nothing was sent. -/
theorem bytesSent_headerAdd {scgi : Scgi} (fresh : scgi.bytesSent = 0) (field value : List UInt8) :
    (scgi.headerAdd field value).bytesSent = 0 :=
  (Scgi.bytesSent_call scgi (.headerAdd field value)).trans fresh

theorem bytesSent_new (junk : Nat → UInt8) : (Scgi.new junk).bytesSent = 0 :=
  Scgi.bytesSent_call _ (.headerAdd _ _)

/-- A finished object can be sent. -/
theorem flight_build {scgi : Scgi} (fresh : scgi.bytesSent = 0) (serial : Nat) :
    (Outgoing.mk serial ⟨scgi.build, []⟩).Flight :=
  @Outgoing.Fresh.build ⟨serial, ⟨scgi, []⟩⟩ ⟨fresh, rfl⟩

/-- A message that is put into the slot is sent. -/
theorem holds_send (numbered : ctl.slot.Numbered) (alive : ctl.alive = true) {scgi : Scgi}
    (flight : (Outgoing.mk ctl.slot.next ⟨scgi, []⟩).Flight) : Holds (ctl.send scgi) :=
  ⟨.sending alive _ rfl flight rfl, (numbered.put scgi).start⟩

theorem flight_getWorkerAddCtlScgi (w : Wkr) (flag : Bool) {scgi : Scgi}
    (fresh : scgi.bytesSent = 0) (serial : Nat) :
    (Outgoing.mk serial ⟨getWorkerAddCtlScgi w flag scgi, []⟩).Flight := by
  have named := bytesSent_headerAdd (bytesSent_headerAdd (bytesSent_headerAdd
    (bytesSent_headerAdd fresh component (ascii "WORKER")) method
    (if flag then ascii "ERROR" else ascii "ADD")) (ascii "APPLICATION") w.name) (ascii "PID") w.pid
  refine flight_build ?_ serial
  cases w.listens with
  | inl path => exact bytesSent_headerAdd (bytesSent_headerAdd named _ _) _ _
  | inr port => exact bytesSent_headerAdd (bytesSent_headerAdd named _ _) _ _

theorem bytesSent_loadScgi (junk : Nat → UInt8) (error : Option (List UInt8)) :
    (loadScgi junk error).bytesSent = 0 := by
  cases error with
  | none => exact bytesSent_new junk
  | some text => exact bytesSent_new junk

/-- Loading the application puts a message into the slot. -/
theorem holds_loadApplication (numbered : ctl.slot.Numbered) (alive : ctl.alive = true)
    (junk : Nat → UInt8) (w : Wkr) (error : Option (List UInt8)) :
    Holds (ctl.loadApplication junk w error) := by
  have fresh := bytesSent_loadScgi junk error
  unfold Ctl.loadApplication
  dsimp only
  generalize loadScgi junk error = scgi at fresh ⊢
  split
  · have flight := flight_getWorkerAddCtlScgi w true fresh ctl.slot.next
    generalize getWorkerAddCtlScgi w true scgi = message at flight ⊢
    exact ⟨.sending alive _ rfl flight rfl, (numbered.put message).start⟩
  · exact holds_send numbered alive (flight_getWorkerAddCtlScgi w false fresh _)

/-! ### One step -/

/-- An empty slot is not watched. -/
theorem Holds.inactive (holds : Holds ctl) (none : ctl.slot.scgi = none) :
    ctl.slot.active = false := by
  cases holds.stage with
  | idle _ _ inactive => exact inactive
  | gone _ inactive => exact inactive
  | sending _ message some =>
      rw [none] at some
      cases some

/-- The configuration has come to a worker with an empty slot. -/
theorem holds_applicationConfigReadCb (numbered : ctl.slot.Numbered) (alive : ctl.alive = true)
    (inactive : ctl.slot.active = false) (junk : Nat → UInt8) (w : Wkr) (loaded : Loaded) : Holds (ctl.applicationConfigReadCb junk w loaded) := by
  cases loaded with
  | unprivileged => exact ⟨.gone rfl inactive, numbered⟩
  | failed error => exact holds_loadApplication numbered alive junk w _
  | listening => exact holds_loadApplication numbered alive junk w none

/-- A message is processed with an empty slot; a worker that does not go on has an empty slot. -/
theorem holds_ctlMsgProcess (numbered : ctl.slot.Numbered) (alive : ctl.alive = true)
    (inactive : ctl.slot.active = false) (junk : Nat → UInt8) (w : Wkr)
    (get : List UInt8 → Option (List UInt8)) (loaded : Loaded) :
    Holds (ctl.ctlMsgProcess junk w get loaded).1 ∧
      ((ctl.ctlMsgProcess junk w get loaded).2 = false →
        (ctl.ctlMsgProcess junk w get loaded).1.slot.active = false) := by
  have cleared : Holds { ctl with slot := ctl.slot.clear } :=
    ⟨.idle alive rfl inactive, numbered.clear⟩
  have configured := @holds_applicationConfigReadCb { ctl with slot := ctl.slot.clear }
    numbered.clear alive inactive junk w loaded
  have answered : Holds (Ctl.send (pingScgi junk) { ctl with slot := ctl.slot.clear }) := by
    refine @holds_send { ctl with slot := ctl.slot.clear } numbered.clear alive _
      (flight_build ?_ _)
    exact bytesSent_headerAdd (bytesSent_headerAdd
      (bytesSent_headerAdd (bytesSent_new junk) _ _) _ _) _ _
  unfold Ctl.ctlMsgProcess
  dsimp only
  split
  · exact ⟨cleared, nofun⟩
  · split_ifs
    · exact ⟨cleared, fun _ => inactive⟩
    · exact ⟨cleared, fun _ => inactive⟩
    · exact ⟨answered, nofun⟩
    · exact ⟨cleared, fun _ => inactive⟩
    · split
      · exact ⟨configured, nofun⟩
      · split
        · exact ⟨cleared, fun _ => inactive⟩
        · exact ⟨configured, nofun⟩
    · exact ⟨cleared, nofun⟩

/-- A message that finds the slot empty. -/
theorem Holds.message (holds : Holds ctl) (alive : ctl.alive = true) (none : ctl.slot.scgi = none)
    (junk : Nat → UInt8) (w : Wkr) (get : List UInt8 → Option (List UInt8)) (loaded : Loaded) :
    Holds (ctl.ctlReadCb junk w get loaded) := by
  obtain ⟨processed, ends⟩ :=
    holds_ctlMsgProcess holds.numbered alive (holds.inactive none) junk w get loaded
  unfold Ctl.ctlReadCb
  dsimp only
  split
  · exact processed
  · next stops => exact ⟨.gone rfl (ends (Bool.eq_false_iff.mpr stops)), processed.numbered⟩

/-- A write to a socket with some room. -/
theorem Holds.write (holds : Holds ctl) (active : ctl.slot.active = true) (room : Nat) :
    Holds (ctl.ctlWriteCb room) ∧ Slot.Keeps ctl.slot (ctl.ctlWriteCb room).slot false := by
  obtain ⟨stage, numbered⟩ := holds
  cases stage with
  | idle _ _ inactive =>
      rw [inactive] at active
      cases active
  | gone _ inactive =>
      rw [inactive] at active
      cases active
  | sending alive message some flight _ =>
      obtain ⟨positive, next, -, whole⟩ := Slot.flight_sent flight room
      have going : ¬ (message.progress.scgi.sendOnce (Slot.taken room)).2.1 ≤ 0 :=
        Int.not_le_of_gt positive
      unfold Ctl.ctlWriteCb
      simp only [some, if_neg going]
      split
      · next ended =>
          refine ⟨⟨?_, numbered.finish some room⟩, Slot.keeps_finish some rfl (whole ended)⟩
          cases error : ctl.error with
          | true => exact .gone (by rw [Bool.not_true, Bool.and_false]) rfl
          | false => exact .idle (by rw [alive]; rfl) rfl rfl
      · exact ⟨⟨.sending alive _ rfl next active, numbered.sent some room⟩,
          Slot.keeps_sent some rfl room⟩

/-- A step that changes nothing loses nothing. -/
theorem Holds.unchanged (holds : Holds ctl) {event : Event} (same : step junk w event ctl = ctl) :
    Holds (step junk w event ctl) ∧ Safe junk w event ctl := by
  unfold Safe
  rw [same]
  exact ⟨holds, holds.watched, fun _ message found => Or.inl ⟨message, found, rfl⟩,
    fun _ message found => ⟨message, found, rfl⟩⟩

/-- A good step keeps the invariant and loses nothing. -/
theorem Holds.step (holds : Holds ctl) (event : Event) (good : Good event ctl) :
    Holds (step junk w event ctl) ∧ Safe junk w event ctl := by
  cases alive : ctl.alive with
  | false => exact holds.unchanged (by simp only [WkrCtl.step, alive, Bool.false_eq_true, ↓reduceIte])
  | true =>
      cases event with
      | message get loaded =>
          have none : ctl.slot.scgi = none := by
            refine good.resolve_left fun ended => ?_
            rw [alive] at ended
            cases ended
          have after : Holds (WkrCtl.step junk w (.message get loaded) ctl) := by
            simp only [WkrCtl.step, alive, ↓reduceIte]
            exact holds.message alive none junk w get loaded
          exact ⟨after, Slot.keeps_of_none none after.watched⟩
      | writable room =>
          cases active : ctl.slot.active with
          | false =>
              refine holds.unchanged ?_
              simp only [WkrCtl.step, active, Bool.false_eq_true, ↓reduceIte, ite_self]
          | true =>
              unfold Safe
              simp only [WkrCtl.step, alive, active, ↓reduceIte]
              exact holds.write active room

/-! ### What makes a step lose a message -/

/-- What was in the slot is not there any more. -/
structure Replaced (before : Slot) (after : Ctl) : Prop where
  fresh : ∀ message, after.slot.scgi = some message → before.next ≤ message.serial
  done : after.slot.done = before.done
  next : before.next ≤ after.slot.next

variable {before : Slot}

theorem Replaced.send (replaced : Replaced before ctl) (scgi : Scgi) :
    Replaced before (ctl.send scgi) := by
  refine ⟨?_, replaced.done, Nat.le_succ_of_le replaced.next⟩
  rintro message ⟨⟩
  exact replaced.next

theorem Replaced.loadApplication (replaced : Replaced before ctl) (junk : Nat → UInt8) (w : Wkr)
    (error : Option (List UInt8)) : Replaced before (ctl.loadApplication junk w error) := by
  unfold Ctl.loadApplication
  dsimp only
  split
  · have failed : Replaced before { ctl with error := true } :=
      ⟨replaced.fresh, replaced.done, replaced.next⟩
    exact failed.send _
  · exact replaced.send _

theorem Replaced.applicationConfigReadCb (replaced : Replaced before ctl) (junk : Nat → UInt8)
    (w : Wkr) (loaded : Loaded) : Replaced before (ctl.applicationConfigReadCb junk w loaded) := by
  cases loaded with
  | unprivileged => exact ⟨replaced.fresh, replaced.done, replaced.next⟩
  | failed error => exact replaced.loadApplication junk w (some error)
  | listening => exact replaced.loadApplication junk w none

/-- A message replaces what the slot holds, whatever it is. -/
theorem replaced_read (junk : Nat → UInt8) (w : Wkr) (get : List UInt8 → Option (List UInt8))
    (loaded : Loaded) (ctl : Ctl) : Replaced ctl.slot (ctl.ctlReadCb junk w get loaded) := by
  have cleared : Replaced ctl.slot { ctl with slot := ctl.slot.clear } :=
    ⟨nofun, rfl, Nat.le_refl _⟩
  have processed : Replaced ctl.slot (ctl.ctlMsgProcess junk w get loaded).1 := by
    unfold Ctl.ctlMsgProcess
    dsimp only
    split
    · exact cleared
    · split_ifs
      · exact cleared
      · exact cleared
      · exact cleared.send _
      · exact cleared
      · split
        · exact cleared.applicationConfigReadCb junk w loaded
        · split
          · exact cleared
          · exact cleared.applicationConfigReadCb junk w loaded
      · exact cleared
  unfold Ctl.ctlReadCb
  dsimp only
  split
  · exact processed
  · exact ⟨processed.fresh, processed.done, processed.next⟩

/-- A step that loses nothing is a good one. -/
theorem Holds.good (holds : Holds ctl) (event : Event) (safe : Safe junk w event ctl) :
    Good event ctl := by
  cases alive : ctl.alive with
  | false => exact Or.inl alive
  | true =>
      refine Or.inr ?_
      cases event with
      | writable room => trivial
      | message get loaded =>
          simp only [Safe, WkrCtl.step, alive, ↓reduceIte] at safe
          cases found : ctl.slot.scgi with
          | none => rfl
          | some message =>
              have active : ctl.slot.active = true := by
                cases holds.stage with
                | idle _ none =>
                    rw [none] at found
                    cases found
                | sending _ _ _ _ active => exact active
                | gone ended =>
                    rw [alive] at ended
                    cases ended
              have replaced := replaced_read junk w get loaded ctl
              exact absurd safe (Slot.not_keeps_of_replaced holds.numbered found (Or.inl active)
                replaced.fresh replaced.done)

/-! ### A whole run -/

/-- A worker after some events. -/
def after (junk : Nat → UInt8) (w : Wkr) (events : Nat → Event) (count : Nat) : Ctl :=
  Machine.after (step junk w) events (start junk w) count

theorem holds_start (junk : Nat → UInt8) (w : Wkr) : Holds (start junk w) := by
  have flight : (Outgoing.mk 0 ⟨getConfigReqScgi junk w, []⟩).Flight := by
    refine flight_build ?_ 0
    exact bytesSent_headerAdd (bytesSent_headerAdd
      (bytesSent_headerAdd (bytesSent_new junk) _ _) _ _) _ _
  exact ⟨.sending rfl _ rfl flight rfl, (Slot.numbered_empty.put _).start⟩

/-- A worker loses no outgoing message exactly when every message finds the slot empty. -/
theorem keeps_all_iff (junk : Nat → UInt8) (w : Wkr) (events : Nat → Event) :
    (∀ count, Safe junk w (events count) (after junk w events count)) ↔
      ∀ count, Good (events count) (after junk w events count) :=
  Machine.safe_iff Holds (Safe junk w) Good (holds_start junk w)
    (fun event _ holds good => holds.step event good)
    fun event _ holds safe => holds.good event safe

end WkrCtl

namespace Slot

/-- Both ends of the control connections lose no outgoing message exactly in these runs: every
message and every ping of a worker finds the slot empty, no worker that has connected removes
itself, and no configuration is freed on its way. -/
theorem nothing_lost_iff (junk : Nat → UInt8) (headEvents : Nat → HeadCtl.Event) (w : WkrCtl.Wkr)
    (workerEvents : Nat → WkrCtl.Event) :
    ((∀ count, HeadCtl.Safe junk (headEvents count) (HeadCtl.after junk headEvents count)) ↔
      ∀ count, HeadCtl.Good (headEvents count) (HeadCtl.after junk headEvents count)) ∧
    ((∀ count, WkrCtl.Safe junk w (workerEvents count)
        (WkrCtl.after junk w workerEvents count)) ↔
      ∀ count, WkrCtl.Good (workerEvents count) (WkrCtl.after junk w workerEvents count)) :=
  ⟨HeadCtl.keeps_all_iff junk headEvents, WkrCtl.keeps_all_iff junk w workerEvents⟩

/-- A request to add an application, after which only requests to remove another one come. -/
def addThenRemove (count : Nat) : HeadCtl.Event :=
  .message (fun field =>
    [(HeadCtl.component, ascii "APPLICATION"),
      (HeadCtl.method, if count = 0 then ascii "ADD" else ascii "REMOVE"),
      (ascii "APP_NAME", if count = 0 then ascii "a" else ascii "b")].lookup field)
    ⟨none, none, .reloading, none, none⟩

/-- The reply to the request to add is under construction when the next request comes, and is
replaced by the reply to that one. -/
theorem not_nothing_lost :
    ¬ ((∀ junk events count, HeadCtl.Safe junk (events count) (HeadCtl.after junk events count)) ∧
      ∀ junk w events count, WkrCtl.Safe junk w (events count)
        (WkrCtl.after junk w events count)) := by
  rintro ⟨safe, -⟩
  have replied : (HeadCtl.after (fun _ => 0) addThenRemove 1).slot.scgi.isSome = true := by
    decide +kernel
  have alive : ((HeadCtl.after (fun _ => 0) addThenRemove 1).freed ||
      (HeadCtl.after (fun _ => 0) addThenRemove 1).crashed) = false := by
    decide +kernel
  have good := (HeadCtl.keeps_all_iff (fun _ => 0) addThenRemove).mp (safe _ addThenRemove) 1
  rcases good with ended | ⟨empty, -⟩
  · rw [alive] at ended
    cases ended
  · rw [empty] at replied
    cases replied

end Slot
