import Webroar.Control.WorkerSlot
import Webroar.Configurator.Settings

/-! # A worker takes over the user of its application

A worker starts with the ids of the head. When its configuration has come it changes to the user the
reply names, and loads the application then. The ids pass through fields of 16 bits.

The callbacks have no result where the worker uses an object that is absent or was freed.
-/

/-- The real, the effective and the saved id of a process. -/
structure Ids where
  real : BitVec 32
  effective : BitVec 32
  saved : BitVec 32
deriving DecidableEq

/-- Whom a process runs as. -/
structure Credentials where
  user : Ids
  group : Ids
deriving DecidableEq

/-- `struct passwd`, as far as it is read. -/
structure Passwd where
  uid : BitVec 32
  gid : BitVec 32
deriving DecidableEq

/-- What a worker asks the system for. -/
structure System where
  getpwnam : List UInt8 → Option Passwd
  /-- The ids that are valid. -/
  valid : BitVec 32 → Bool

/-- A privileged process changes all its ids. Another one may go back to its real or its saved
id. -/
def Ids.change (ids : Ids) (privileged : Bool) (id : BitVec 32) : Option Ids :=
  if privileged then some ⟨id, id, id⟩
  else if id = ids.real ∨ id = ids.saved then some { ids with effective := id }
  else none

namespace Credentials

def privileged (process : Credentials) : Bool := process.user.effective = 0

def setgid (system : System) (gid : BitVec 32) (process : Credentials) : Option Credentials :=
  if system.valid gid then
    (process.group.change process.privileged gid).map fun group => { process with group := group }
  else none

def setuid (system : System) (uid : BitVec 32) (process : Credentials) : Option Credentials :=
  if system.valid uid then
    (process.user.change process.privileged uid).map fun user => { process with user := user }
  else none

end Credentials

/-- `wkr_tmp_t`, as far as the configuration is concerned. -/
structure WkrTmp where
  path : Option (List UInt8)
  env : Option (List UInt8)
  type : Option (List UInt8)
  resolver : Option (List UInt8)
  profiler : Bool
  gid : BitVec 16
  uid : BitVec 16
  isStatic : Bool
  lowerLimit : Nat
  upperLimit : Nat
  rUserAgent : Option (List UInt8)
  rContentType : Option (List UInt8)

/-- An object of the control connection: a message whose headers are read, or one that is made. -/
inductive CtlObject where
  | received (get : List UInt8 → Option (List UInt8))
  | outgoing (scgi : Scgi)

/-- How loading goes: whether there is room for the message, whether the adapter is made, and
whether the worker listens. -/
structure Loading where
  scgi : Bool
  http : Bool
  listen : Bool

/-- A worker with its control connection, and with whom it loaded the application as. -/
structure WkrProcess where
  process : Credentials
  tmp : Option WkrTmp
  objects : Nat → Option CtlObject
  next : Nat
  scgi : Option Nat
  writing : Bool
  error : Bool
  alive : Bool
  envVar : List (List UInt8)
  logOwner : Option (BitVec 32 × BitVec 32)
  loaded : Option Credentials

namespace WkrProcess

open HeadCtl (method status)
open Configurator (strtok)

variable (system : System) (junk : Nat → UInt8) (w : WkrCtl.Wkr) (loading : Loading)

/-! ### Objects -/

def setObject (number : Nat) (object : Option CtlObject) (worker : WkrProcess) : WkrProcess :=
  { worker with objects := Function.update worker.objects number object }

/-- A new object. -/
def allocate (object : CtlObject) (worker : WkrProcess) : Nat × WkrProcess :=
  (worker.next, { worker.setObject worker.next (some object) with next := worker.next + 1 })

/-- `scgi_body_add`; without an object nothing is added. -/
def scgiBodyAdd (scgi : Option Nat) (body : List UInt8) (worker : WkrProcess) : Option WkrProcess :=
  match scgi with
  | none => some worker
  | some number =>
      match worker.objects number with
      | some (.outgoing scgi) =>
          some (worker.setObject number (some (.outgoing (scgi.bodyAdd body))))
      | some (.received _) => some worker
      | none => none

def scgiFree (scgi : Option Nat) (worker : WkrProcess) : Option WkrProcess :=
  match scgi with
  | none => some worker
  | some number => (worker.objects number).map fun _ => worker.setObject number none

/-- The headers of a message that was received. -/
def headers (request : Nat) (worker : WkrProcess) : Option (List UInt8 → Option (List UInt8)) :=
  match worker.objects request with
  | some (.received get) => some get
  | _ => none

/-! ### The configuration -/

/-- A `short` passed for an id. -/
def passed (id : BitVec 16) : BitVec 32 := id.signExtend 32

/-- `is_alive` is cleared, and the event loop ends. -/
def sigproc (worker : WkrProcess) : WkrProcess := { worker with alive := false }

/-- `drop_privileges`; the result says whether the worker runs as the user. -/
def dropPrivileges (request : Nat) (worker : WkrProcess) : Option (WkrProcess × Bool) := do
  let get ← worker.headers request
  match (get (ascii "USER")).filter (· ≠ []) with
  | some str =>
      match system.getpwnam str with
      | some userInfo =>
          let tmp ← worker.tmp
          let tmp := { tmp with uid := userInfo.uid.setWidth 16, gid := userInfo.gid.setWidth 16 }
          let worker := { worker with
            tmp := some tmp, logOwner := some (passed tmp.uid, passed tmp.gid) }
          match worker.process.setgid system (passed tmp.gid) with
          | some grouped =>
              match grouped.setuid system (passed tmp.uid) with
              | some dropped => some ({ worker with process := dropped }, true)
              | none =>
                  let worker ← scgiBodyAdd worker.scgi (ascii "seteuid() failed")
                    { worker with process := grouped }
                  some (worker, false)
          | none =>
              let worker ← worker.scgiBodyAdd worker.scgi (ascii "setegid() failed")
              some (worker, false)
      | none =>
          let worker ← worker.scgiBodyAdd worker.scgi
            (ascii "Application run_as_user is invalid. Application not started.")
          some (worker, false)
  | none =>
      let worker ← worker.scgiBodyAdd worker.scgi
        (ascii "Application run_as_user is missing. Application not started.")
      some (worker, false)

/-- `manipulate_environment_variable`. -/
def manipulateEnvironmentVariable (request : Nat) (worker : WkrProcess) : Option WkrProcess := do
  let get ← worker.headers request
  some { worker with envVar := ((get (ascii "ENV_VAR")).map (strtok · 35)).getD [] }

/-- `load_application`: the worker says that it is there or what is wrong. -/
def loadApplication (worker : WkrProcess) : Option WkrProcess :=
  let worker := { worker with loaded := some worker.process }
  if loading.scgi then do
    -- the adapter and the message are made from these
    let _ ← worker.tmp
    let failure := if ¬ loading.http then some (ascii "unable to load application.")
      else if ¬ loading.listen then some (ascii "Error Initializing Workers.")
      else none
    let scgi := WkrCtl.loadScgi junk failure
    let error := decide (0 < scgi.bodyLength)
    let (number, worker) := worker.allocate (.outgoing (WkrCtl.getWorkerAddCtlScgi w error scgi))
    some { worker with
      scgi := some number, writing := true, error := worker.error || error, tmp := none }
  else some (sigproc { worker with scgi := none })

/-- The configuration of the worker that serves static files. -/
def staticTmp (get : List UInt8 → Option (List UInt8)) (tmp : WkrTmp) : WkrTmp :=
  { tmp with
    lowerLimit := ((get (ascii "LOWER_LIMIT")).map (Decimal.toSize ∘ Decimal.strtol)).getD
      tmp.lowerLimit
    upperLimit := ((get (ascii "UPPER_LIMIT")).map (Decimal.toSize ∘ Decimal.strtol)).getD
      tmp.upperLimit
    rContentType := some ((get (ascii "CONTENT_TYPE")).getD (ascii "javascript|css|xml|text"))
    rUserAgent := (get (ascii "USER_AGENT")).or tmp.rUserAgent }

/-- The configuration of an application. -/
def appTmp (get : List UInt8 → Option (List UInt8)) (tmp : WkrTmp) : WkrTmp :=
  { tmp with
    path := (get (ascii "PATH")).or tmp.path
    env := (get (ascii "ENV")).or tmp.env
    type := (get (ascii "TYPE")).or tmp.type
    resolver := (get (ascii "BASE_URI")).or tmp.resolver
    profiler := get (ascii "ANALYTICS") = some (ascii "enabled") }

/-- `application_config_read_cb`. -/
def applicationConfigReadCb (request : Nat) (worker : WkrProcess) : Option WkrProcess := do
  let tmp ← worker.tmp
  let get ← worker.headers request
  if tmp.isStatic then
    loadApplication junk w loading { worker with tmp := some (staticTmp get tmp) }
  else
    let (worker, passes) ← worker.dropPrivileges system request
    if passes then
      let worker ← worker.manipulateEnvironmentVariable request
      let tmp ← worker.tmp
      loadApplication junk w loading { worker with tmp := some (appTmp get tmp) }
    else some (sigproc { worker with tmp := none })

/-! ### Control messages -/

/-- `ctl_msg_process`; the result says whether the worker goes on. -/
def ctlMsgProcess (worker : WkrProcess) : Option (WkrProcess × Bool) := do
  let request ← worker.scgi
  let worker := { worker with scgi := none }
  let get ← worker.headers request
  match get method with
  | none => some (worker, true)
  | some value =>
      if value = ascii "ADD" then some (worker, get status = some (ascii "OK"))
      else if value = ascii "REMOVE" then some (worker, false)
      else if value = ascii "PING" then
        let (number, worker) := worker.allocate (.outgoing (WkrCtl.pingScgi junk))
        some ({ worker with scgi := some number, writing := true }, true)
      else if value = ascii "ACK" then some (worker, false)
      else if value = ascii "CONF_REQ" then
        if (get status).all (· = ascii "OK") then
          (worker.applicationConfigReadCb system junk w loading request).map (·, true)
        else some (worker, false)
      else some (worker, true)

/-- `ctl_read_cb` with a whole message. -/
def ctlReadCb (get : List UInt8 → Option (List UInt8)) (worker : WkrProcess) :
    Option WkrProcess := do
  let (ctlReq, worker) := worker.allocate (.received get)
  let (worker, goes) ← ctlMsgProcess system junk w loading { worker with scgi := some ctlReq }
  let worker ← worker.scgiFree (some ctlReq)
  some (if goes then worker else { worker with alive := false })

/-- `worker_free`. -/
def workerFree (worker : WkrProcess) : Option WkrProcess :=
  scgiFree worker.scgi { worker with tmp := none, writing := false }

/-- A turn of the loop of `main`, in which a message is read. After the last one the worker is
freed. -/
def turn (get : List UInt8 → Option (List UInt8)) (worker : WkrProcess) : Option WkrProcess := do
  let worker ← worker.ctlReadCb system junk w loading get
  if worker.alive then some worker else worker.workerFree

end WkrProcess

/-! ### Ids in a `short` -/

/-- The id that arrives at the system. -/
def cut (id : BitVec 32) : BitVec 32 := WkrProcess.passed (id.setWidth 16)

/-- The id is one that a `short` can hold. -/
def Fits (id : BitVec 32) : Prop := id.toNat < 2 ^ 15 ∨ 2 ^ 32 - 2 ^ 15 ≤ id.toNat

theorem cut_eq_iff (id : BitVec 32) : cut id = id ↔ Fits id := by
  have arrives : (cut id).toInt = (id.toNat : Int).bmod (2 ^ 16) := by
    unfold cut WkrProcess.passed
    rw [BitVec.toInt_signExtend_of_le (by decide), BitVec.toInt_setWidth]
  have bound := id.isLt
  rw [← BitVec.toInt_inj, arrives, BitVec.toInt_eq_toNat_bmod]
  unfold Fits
  rw [Int.bmod_def, Int.bmod_def]
  split
  · split
    · omega
    · omega
  · split
    · omega
    · omega

/-! ### Changing the ids -/

/-- The system lets a process with these ids change to another one. -/
def Ids.MayChange (system : System) (ids : Ids) (privileged : Bool) (id : BitVec 32) : Prop :=
  system.valid id = true ∧ (privileged = true ∨ id = ids.real ∨ id = ids.saved)

theorem Ids.change_none {ids : Ids} {privileged : Bool} {id : BitVec 32}
    (refused : ids.change privileged id = none) :
    ¬ (privileged = true ∨ id = ids.real ∨ id = ids.saved) := by
  unfold change at refused
  split at refused
  · exact nomatch refused
  · next plain =>
      split at refused
      · exact nomatch refused
      · next neither => exact fun may => neither (may.resolve_left plain)

theorem Ids.change_some {ids changed : Ids} {privileged : Bool} {id : BitVec 32}
    (changes : ids.change privileged id = some changed) :
    (privileged = true ∨ id = ids.real ∨ id = ids.saved) ∧ changed.effective = id ∧
      (privileged = true → changed = ⟨id, id, id⟩) := by
  unfold change at changes
  split at changes
  · next may =>
      cases Option.some_inj.mp changes
      exact ⟨.inl may, rfl, fun _ => rfl⟩
  · next plain =>
      split at changes
      · next own =>
          cases Option.some_inj.mp changes
          exact ⟨.inr own, rfl, fun may => absurd may plain⟩
      · exact nomatch changes

namespace Credentials

variable {system : System} {process : Credentials}

/-- The process that has changed to a user and a group. -/
def switch (system : System) (uid gid : BitVec 32) (process : Credentials) : Option Credentials :=
  (process.setgid system gid).bind (setuid system uid)

/-- The process runs as the user; where it was privileged, it cannot go back. -/
structure RunsAs (entry : Passwd) (before process : Credentials) : Prop where
  user : process.user.effective = entry.uid
  group : process.group.effective = entry.gid
  forGood : before.privileged = true →
    process = ⟨⟨entry.uid, entry.uid, entry.uid⟩, ⟨entry.gid, entry.gid, entry.gid⟩⟩

theorem setgid_none {gid : BitVec 32} (refused : process.setgid system gid = none) :
    ¬ process.group.MayChange system process.privileged gid := by
  intro ⟨valid, may⟩
  unfold setgid at refused
  rw [if_pos valid, Option.map_eq_none_iff] at refused
  exact Ids.change_none refused may

theorem setgid_some {gid : BitVec 32} {changed : Credentials}
    (changes : process.setgid system gid = some changed) :
    process.group.MayChange system process.privileged gid ∧ changed.user = process.user ∧
      changed.group.effective = gid ∧
        (process.privileged = true → changed.group = ⟨gid, gid, gid⟩) := by
  unfold setgid at changes
  obtain ⟨valid, changes⟩ := Option.ite_none_right_eq_some.mp changes
  obtain ⟨group, accepted, same⟩ := Option.map_eq_some_iff.mp changes
  cases same
  obtain ⟨may, effective, all⟩ := Ids.change_some accepted
  exact ⟨⟨valid, may⟩, rfl, effective, all⟩

theorem setuid_none {uid : BitVec 32} (refused : process.setuid system uid = none) :
    ¬ process.user.MayChange system process.privileged uid := by
  intro ⟨valid, may⟩
  unfold setuid at refused
  rw [if_pos valid, Option.map_eq_none_iff] at refused
  exact Ids.change_none refused may

theorem setuid_some {uid : BitVec 32} {changed : Credentials}
    (changes : process.setuid system uid = some changed) :
    process.user.MayChange system process.privileged uid ∧ changed.group = process.group ∧
      changed.user.effective = uid ∧
        (process.privileged = true → changed.user = ⟨uid, uid, uid⟩) := by
  unfold setuid at changes
  obtain ⟨valid, changes⟩ := Option.ite_none_right_eq_some.mp changes
  obtain ⟨user, accepted, same⟩ := Option.map_eq_some_iff.mp changes
  cases same
  obtain ⟨may, effective, all⟩ := Ids.change_some accepted
  exact ⟨⟨valid, may⟩, rfl, effective, all⟩

/-- The system lets the process change to the ids. -/
def MaySwitch (system : System) (uid gid : BitVec 32) (process : Credentials) : Prop :=
  process.group.MayChange system process.privileged gid ∧
    process.user.MayChange system process.privileged uid

/-- Where the process may not switch it does not. Otherwise it runs with the ids that arrive. -/
theorem switch_cases (uid gid : BitVec 32) :
    (process.switch system uid gid = none ∧ ¬ process.MaySwitch system uid gid) ∨
      ∃ after, process.switch system uid gid = some after ∧ process.MaySwitch system uid gid ∧
        RunsAs ⟨uid, gid⟩ process after := by
  cases grouped : process.setgid system gid with
  | none =>
      have refused : process.switch system uid gid = none :=
        congrArg (·.bind (setuid system uid)) grouped
      exact .inl ⟨refused, fun may => setgid_none grouped may.1⟩
  | some middle =>
      obtain ⟨mayGroup, user, group, allGroup⟩ := setgid_some grouped
      have privileged : middle.privileged = process.privileged := by
        unfold Credentials.privileged
        rw [user]
      have same : process.switch system uid gid = middle.setuid system uid :=
        congrArg (·.bind (setuid system uid)) grouped
      cases dropped : middle.setuid system uid with
      | none =>
          have refused := setuid_none dropped
          rw [user, privileged] at refused
          exact .inl ⟨same.trans dropped, fun may => refused may.2⟩
      | some after =>
          obtain ⟨mayUser, kept, effective, allUser⟩ := setuid_some dropped
          rw [user, privileged] at mayUser
          rw [privileged] at allUser
          refine .inr ⟨after, same.trans dropped, ⟨mayGroup, mayUser⟩, effective, ?_, ?_⟩
          · rw [kept]
            exact group
          · intro may
            rw [← allUser may, ← allGroup may, ← kept]

end Credentials

namespace WkrProcess

open HeadCtl (method status)
open Configurator (strtok)

variable {system : System} {junk : Nat → UInt8} {w : WkrCtl.Wkr} {loading : Loading}
  {worker : WkrProcess} {tmp : WkrTmp} {get : List UInt8 → Option (List UInt8)}

/-- A worker that has asked for its configuration. -/
structure Waits (tmp : WkrTmp) (worker : WkrProcess) : Prop where
  tmp : worker.tmp = some tmp
  alive : worker.alive = true
  loaded : worker.loaded = none

/-- The user that a reply names, if it is known. -/
def named (system : System) (get : List UInt8 → Option (List UInt8)) : Option Passwd :=
  ((get (ascii "USER")).filter (· ≠ [])).bind system.getpwnam

/-- What has become of the worker, while the message is still there. -/
structure Kept (request : Nat) (worker after : WkrProcess) : Prop where
  objects : after.objects = worker.objects
  next : after.next = worker.next
  scgi : after.scgi = worker.scgi
  alive : after.alive = worker.alive
  loaded : after.loaded = worker.loaded
  tmp : after.tmp.isSome = true

theorem dropPrivileges_eq {request : Nat} (present : worker.tmp = some tmp)
    (empty : worker.scgi = none) (reads : worker.headers request = some get) :
    ∃ after passes, worker.dropPrivileges system request = some (after, passes) ∧
      Kept request worker after ∧
        (passes = false → ∀ entry, named system get = some entry →
          worker.process.switch system (cut entry.uid) (cut entry.gid) = none) ∧
        (passes = true → ∃ entry, named system get = some entry ∧
          worker.process.switch system (cut entry.uid) (cut entry.gid) = some after.process) := by
  have silent : ∀ (after : WkrProcess) (text : List UInt8),
      after.scgiBodyAdd worker.scgi text = some after := by
    intro after text
    rw [empty]
    rfl
  unfold dropPrivileges named
  simp only [reads, Option.bind_eq_bind, Option.bind_some]
  cases user : (get (ascii "USER")).filter (· ≠ []) with
  | none =>
      simp only [silent, Option.bind_some]
      refine ⟨_, _, rfl, ⟨rfl, rfl, rfl, rfl, rfl, ?_⟩, ?_, nofun⟩
      · rw [present]
        rfl
      · intro _ entry known
        exact nomatch known
  | some str =>
      cases known : system.getpwnam str with
      | none =>
          simp only [known, silent, Option.bind_some]
          refine ⟨_, _, rfl, ⟨rfl, rfl, rfl, rfl, rfl, ?_⟩, ?_, nofun⟩
          · rw [present]
            rfl
          · intro _ entry found
            exact nomatch found
      | some userInfo =>
          simp only [known, present, Option.bind_some]
          cases grouped : worker.process.setgid system (passed (userInfo.gid.setWidth 16)) with
          | none =>
              simp only [silent, Option.bind_some]
              refine ⟨_, _, rfl, ⟨rfl, rfl, rfl, rfl, rfl, rfl⟩, ?_, nofun⟩
              intro _ entry found
              cases Option.some_inj.mp (found)
              exact congrArg (·.bind (Credentials.setuid system (cut userInfo.uid))) grouped
          | some middle =>
              have same : worker.process.switch system (cut userInfo.uid) (cut userInfo.gid) =
                  middle.setuid system (cut userInfo.uid) :=
                congrArg (·.bind (Credentials.setuid system (cut userInfo.uid))) grouped
              dsimp only
              cases dropped : middle.setuid system (passed (userInfo.uid.setWidth 16)) with
              | none =>
                  simp only [silent, Option.bind_some]
                  refine ⟨_, _, rfl, ⟨rfl, rfl, rfl, rfl, rfl, rfl⟩, ?_, nofun⟩
                  intro _ entry found
                  cases Option.some_inj.mp (found)
                  exact same.trans dropped
              | some after =>
                  dsimp only
                  refine ⟨_, _, rfl, ⟨rfl, rfl, rfl, rfl, rfl, rfl⟩, nofun, ?_⟩
                  exact fun _ => ⟨userInfo, rfl, same.trans dropped⟩

/-- The worker has loaded the application, and the message that was read is still there. -/
structure Loads (request : Nat) (process : Credentials) (after : WkrProcess) : Prop where
  loaded : after.loaded = some process
  received : (after.objects request).isSome = true
  /-- Loading ends with a message, or the worker ends. -/
  scgi : after.scgi = none ∧ after.alive = false ∨
    after.alive = true ∧ ∃ number, after.scgi = some number ∧ number ≠ request ∧
      (after.objects number).isSome = true

theorem loadApplication_eq {request : Nat} (present : worker.tmp = some tmp)
    (alive : worker.alive = true) (read : (worker.objects request).isSome = true)
    (older : request < worker.next) :
    ∃ after, worker.loadApplication junk w loading = some after ∧
      Loads request worker.process after := by
  unfold loadApplication
  by_cases room : loading.scgi = true
  · simp only [room, present, ↓reduceIte, Option.bind_eq_bind, Option.bind_some]
    have differs : worker.next ≠ request := older.ne'
    refine ⟨_, rfl, rfl, ?_, .inr ⟨alive, worker.next, rfl, differs, ?_⟩⟩
    · change (Function.update worker.objects worker.next _ request).isSome = true
      rw [Function.update_of_ne differs.symm]
      exact read
    · change (Function.update worker.objects worker.next _ worker.next).isSome = true
      rw [Function.update_self]
      rfl
  · rw [if_neg room]
    exact ⟨_, rfl, rfl, read, .inl ⟨rfl, rfl⟩⟩

/-- The configuration is read: the worker changes its ids and loads the application, or it ends. -/
theorem applicationConfigReadCb_eq {request : Nat} (present : worker.tmp = some tmp)
    (ordinary : tmp.isStatic = false) (waits : worker.alive = true ∧ worker.loaded = none)
    (empty : worker.scgi = none) (reads : worker.headers request = some get)
    (older : request < worker.next) :
    ∃ after, worker.applicationConfigReadCb system junk w loading request = some after ∧
      ((after.alive = false ∧ after.loaded = none ∧ after.scgi = none ∧
          (after.objects request).isSome = true ∧ ∀ entry, named system get = some entry →
            worker.process.switch system (cut entry.uid) (cut entry.gid) = none) ∨
        ∃ entry process, named system get = some entry ∧
          worker.process.switch system (cut entry.uid) (cut entry.gid) = some process ∧
            Loads request process after) := by
  obtain ⟨dropped, passes, same, kept, fails, succeeds⟩ :=
    @dropPrivileges_eq system _ _ _ _ present empty reads
  have still : dropped.headers request = some get := by
    unfold headers
    rw [kept.objects]
    exact reads
  have there : (worker.objects request).isSome = true := by
    unfold headers at reads
    cases object : worker.objects request with
    | none =>
        rw [object] at reads
        exact nomatch reads
    | some _ => rfl
  unfold applicationConfigReadCb
  simp only [present, reads, ordinary, same, Option.bind_eq_bind, Option.bind_some,
    Bool.false_eq_true, ↓reduceIte]
  cases passes with
  | false =>
      refine ⟨_, rfl, .inl ⟨rfl, kept.loaded.trans waits.2, kept.scgi.trans empty, ?_, fails rfl⟩⟩
      change (dropped.objects request).isSome = true
      rw [kept.objects]
      exact there
  | true =>
      obtain ⟨entry, known, switched⟩ := succeeds rfl
      obtain ⟨tmp, left⟩ := Option.isSome_iff_exists.mp kept.tmp
      unfold manipulateEnvironmentVariable
      simp only [still, left, Option.bind_eq_bind, Option.bind_some, ↓reduceIte]
      have loads := @loadApplication_eq junk w loading
        { dropped with
          envVar := ((get (ascii "ENV_VAR")).map (strtok · 35)).getD []
          tmp := some (appTmp get tmp) }
        (appTmp get tmp) request rfl (kept.alive.trans waits.1)
        (by rw [show dropped.objects = worker.objects from kept.objects]; exact there)
        (by rw [show dropped.next = worker.next from kept.next]; exact older)
      obtain ⟨after, runs, loads⟩ := loads
      exact ⟨after, runs, .inr ⟨entry, dropped.process, known, switched, loads⟩⟩

/-- The reply is accepted: it says that all is well, or nothing. -/
def Accepted (get : List UInt8 → Option (List UInt8)) : Prop :=
  (get status).all (· = ascii "OK") = true

instance (get : List UInt8 → Option (List UInt8)) : Decidable (Accepted get) :=
  inferInstanceAs (Decidable (_ = _))

/-- The worker with a message that is processed. -/
def processing (get : List UInt8 → Option (List UInt8)) (worker : WkrProcess) : WkrProcess :=
  { (worker.allocate (.received get)).2 with scgi := none }

theorem processing_headers : (worker.processing get).headers worker.next = some get := by
  unfold headers processing allocate setObject
  dsimp only
  rw [Function.update_self]

theorem scgiFree_some {number : Nat} (there : (worker.objects number).isSome = true) :
    worker.scgiFree (some number) = some (worker.setObject number none) := by
  obtain ⟨object, same⟩ := Option.isSome_iff_exists.mp there
  unfold scgiFree
  dsimp only
  rw [same]
  rfl

theorem ctlReadCb_conf (reply : get method = some (ascii "CONF_REQ")) :
    worker.ctlReadCb system junk w loading get =
      if Accepted get then
        ((worker.processing get).applicationConfigReadCb system junk w loading worker.next).bind
          (scgiFree (some worker.next))
      else
        ((worker.processing get).scgiFree (some worker.next)).map fun after =>
          { after with alive := false } := by
  have others : ascii "CONF_REQ" ≠ ascii "ADD" ∧ ascii "CONF_REQ" ≠ ascii "REMOVE" ∧
      ascii "CONF_REQ" ≠ ascii "PING" ∧ ascii "CONF_REQ" ≠ ascii "ACK" := by
    decide +kernel
  obtain ⟨add, remove, ping, ack⟩ := others
  have reads := @processing_headers worker get
  have processed : ctlMsgProcess system junk w loading
      { (worker.allocate (.received get)).2 with scgi := some worker.next } =
        if Accepted get then
          ((worker.processing get).applicationConfigReadCb system junk w loading worker.next).map
            (·, true)
        else some (worker.processing get, false) := by
    change ((worker.processing get).headers worker.next >>= fun get => _) = _
    rw [reads, Option.bind_eq_bind, Option.bind_some, reply]
    dsimp only
    rw [if_neg add, if_neg remove, if_neg ping, if_neg ack, if_pos rfl]
    rfl
  unfold ctlReadCb
  change (ctlMsgProcess system junk w loading
      { (worker.allocate (.received get)).2 with scgi := some worker.next } >>= fun _ => _) = _
  rw [processed]
  split
  · cases (worker.processing get).applicationConfigReadCb system junk w loading worker.next with
    | none => rfl
    | some after => exact Option.bind_fun_some _
  · exact Option.map_eq_bind.symm

/-- A worker without a message is freed. -/
theorem workerFree_empty (empty : worker.scgi = none) :
    ∃ freed, worker.workerFree = some freed ∧ freed.alive = worker.alive ∧
      freed.loaded = worker.loaded := by
  unfold workerFree
  rw [empty]
  exact ⟨_, rfl, rfl, rfl⟩

/-- With a reply about the configuration the worker ends, and has not loaded the application, or it
has changed to the user that the reply names. -/
theorem turn_cases (waits : worker.Waits tmp) (ordinary : tmp.isStatic = false)
    (reply : get method = some (ascii "CONF_REQ")) :
    ∃ after, worker.turn system junk w loading get = some after ∧
      ((after.alive = false ∧ after.loaded = none ∧ (Accepted get → ∀ entry,
          named system get = some entry →
            worker.process.switch system (cut entry.uid) (cut entry.gid) = none)) ∨
        ∃ entry process, Accepted get ∧ named system get = some entry ∧
          worker.process.switch system (cut entry.uid) (cut entry.gid) = some process ∧
            after.loaded = some process) := by
  have there : ((worker.processing get).objects worker.next).isSome = true := by
    unfold processing allocate setObject
    dsimp only
    rw [Function.update_self]
    rfl
  have dead : ∀ {after : WkrProcess}, after.alive = false → ¬ after.alive = true := by
    intro after ends alive
    exact Bool.false_ne_true (ends.symm.trans alive)
  unfold turn
  rw [ctlReadCb_conf reply]
  by_cases accepted : Accepted get
  · obtain ⟨after, read, outcome⟩ := @applicationConfigReadCb_eq system junk w loading
      (worker.processing get) tmp get worker.next waits.tmp ordinary ⟨waits.alive, waits.loaded⟩ rfl
      processing_headers (Nat.lt_succ_self _)
    rw [if_pos accepted, read, Option.bind_some]
    rcases outcome with ⟨ends, unloaded, empty, present, refused⟩ |
      ⟨entry, process, known, switched, loads⟩
    · obtain ⟨freed, same, alive, loaded⟩ :=
        @workerFree_empty (after.setObject worker.next none) empty
      have gone : ¬ (after.setObject worker.next none).alive = true := dead ends
      rw [scgiFree_some present, Option.bind_eq_bind, Option.bind_some, if_neg gone, same]
      exact ⟨freed, rfl, .inl ⟨alive.trans ends, loaded.trans unloaded, fun _ => refused⟩⟩
    · rw [scgiFree_some loads.received, Option.bind_eq_bind, Option.bind_some]
      rcases loads.scgi with ⟨empty, ends⟩ | ⟨alive, -⟩
      · obtain ⟨freed, same, -, loaded⟩ :=
          @workerFree_empty (after.setObject worker.next none) empty
        have gone : ¬ (after.setObject worker.next none).alive = true := dead ends
        rw [if_neg gone, same]
        exact ⟨freed, rfl,
          .inr ⟨entry, process, accepted, known, switched, loaded.trans loads.loaded⟩⟩
      · rw [if_pos (show (after.setObject worker.next none).alive = true from alive)]
        exact ⟨_, rfl, .inr ⟨entry, process, accepted, known, switched, loads.loaded⟩⟩
  · rw [if_neg accepted, scgiFree_some there, Option.map_some, Option.bind_eq_bind,
      Option.bind_some]
    obtain ⟨freed, same, alive, loaded⟩ := @workerFree_empty
      { (worker.processing get).setObject worker.next none with alive := false } rfl
    rw [if_neg Bool.false_ne_true, same]
    exact ⟨freed, rfl,
      .inl ⟨alive, loaded.trans waits.loaded, fun accepts => absurd accepts accepted⟩⟩

/-! ### Whom the application runs as -/

/-- The worker touches nothing that is absent. It loads the application as the user that the reply
names, or ends without loading it. -/
def Right (system : System) (junk : Nat → UInt8) (w : WkrCtl.Wkr) (loading : Loading)
    (worker : WkrProcess) (get : List UInt8 → Option (List UInt8)) : Prop :=
  ∃ after, worker.turn system junk w loading get = some after ∧
    match after.loaded with
    | some process => ∃ user entry, get (ascii "USER") = some user ∧
        system.getpwnam user = some entry ∧ Credentials.RunsAs entry worker.process process
    | none => after.alive = false

/-- The ids of the user that an accepted reply names can be held in a `short`, or the system does
not let the worker change to what is left of them. -/
def Held (system : System) (process : Credentials) (get : List UInt8 → Option (List UInt8)) :
    Prop :=
  Accepted get → ∀ entry, named system get = some entry →
    Fits entry.uid ∧ Fits entry.gid ∨
      ¬ process.MaySwitch system (cut entry.uid) (cut entry.gid)

theorem named_some {entry : Passwd} (known : named system get = some entry) :
    ∃ user, get (ascii "USER") = some user ∧ system.getpwnam user = some entry := by
  obtain ⟨user, given, found⟩ := Option.bind_eq_some_iff.mp known
  exact ⟨user, (Option.filter_eq_some_iff.mp given).1, found⟩

/-- Whatever the configuration and the users are: the application is loaded as its user, or not at
all, exactly when the ids of the user survive the way through a `short`. -/
theorem loads_as_user_iff (system : System) (junk : Nat → UInt8) (w : WkrCtl.Wkr)
    (loading : Loading) (worker : WkrProcess) (tmp : WkrTmp)
    (get : List UInt8 → Option (List UInt8)) (waits : worker.Waits tmp)
    (ordinary : tmp.isStatic = false) (reply : get method = some (ascii "CONF_REQ")) :
    Right system junk w loading worker get ↔ Held system worker.process get := by
  obtain ⟨after, same, outcome⟩ := @turn_cases system junk w loading _ _ get waits ordinary reply
  rcases outcome with
    ⟨ends, unloaded, refused⟩ | ⟨entry, process, accepted, known, switched, loaded⟩
  · constructor
    · intro _ accepted entry known
      right
      rcases worker.process.switch_cases (cut entry.uid) (cut entry.gid) with
        ⟨-, cannot⟩ | ⟨process, switched, -⟩
      · exact cannot
      · exact nomatch (refused accepted entry known).symm.trans switched
    · intro _
      refine ⟨after, same, ?_⟩
      rw [unloaded]
      exact ends
  · rcases worker.process.switch_cases (cut entry.uid) (cut entry.gid) with
      ⟨cannot, -⟩ | ⟨changed, switches, may, runs⟩
    · exact nomatch switched.symm.trans cannot
    cases Option.some_inj.mp (switched.symm.trans switches)
    obtain ⟨user, given, found⟩ := named_some known
    constructor
    · rintro ⟨other, turned, right⟩ _ entry' known'
      cases Option.some_inj.mp (same.symm.trans turned)
      cases Option.some_inj.mp (known.symm.trans known')
      rw [loaded] at right
      obtain ⟨user', entry', given', found', runs'⟩ := right
      cases Option.some_inj.mp (given.symm.trans given')
      cases Option.some_inj.mp (found.symm.trans found')
      exact .inl ⟨(cut_eq_iff _).mp (runs.user.symm.trans runs'.user),
        (cut_eq_iff _).mp (runs.group.symm.trans runs'.group)⟩
    · intro held
      obtain ⟨uid, gid⟩ := (held accepted entry known).resolve_right (absurd may ·)
      refine ⟨after, same, ?_⟩
      rw [loaded]
      rw [(cut_eq_iff _).mpr uid, (cut_eq_iff _).mpr gid] at runs
      exact ⟨user, entry, given, found, runs⟩

/-- A system with one user. -/
def oneUser (id : BitVec 32) : System where
  getpwnam name := if name = ascii "web" then some ⟨id, id⟩ else none
  valid id := id ≠ BitVec.allOnes 32

/-- A worker that was started by root. -/
def rootWorker : WkrProcess where
  process := ⟨⟨0, 0, 0⟩, ⟨0, 0, 0⟩⟩
  tmp := some ⟨none, none, none, none, false, 0, 0, false, 0, 0, none, none⟩
  objects _ := none
  next := 0
  scgi := none
  writing := false
  error := false
  alive := true
  envVar := []
  logOwner := none
  loaded := none

/-- The application is to run as that user. -/
def webReply (field : List UInt8) : Option (List UInt8) :=
  if field = method then some (ascii "CONF_REQ")
  else if field = status then some (ascii "OK")
  else if field = ascii "USER" then some (ascii "web")
  else none

theorem loads_as_user_thousand :
    Right (oneUser 1000) (fun _ => 0) ⟨ascii "app", ascii "7", .inr (ascii "80")⟩ ⟨true, true, true⟩
      rootWorker webReply := by
  rw [loads_as_user_iff _ _ _ _ _ _ _ ⟨rfl, rfl, rfl⟩ rfl (by decide +kernel)]
  intro _ entry known
  have found : named (oneUser 1000) webReply = some ⟨1000, 1000⟩ := by decide +kernel
  cases Option.some_inj.mp (known.symm.trans found)
  exact .inl ⟨.inl (by decide), .inl (by decide)⟩

/-- With the id 65536 the application is loaded as root. -/
theorem loads_as_root :
    ¬ Right (oneUser 65536) (fun _ => 0) ⟨ascii "app", ascii "7", .inr (ascii "80")⟩
      ⟨true, true, true⟩ rootWorker webReply := by
  have found : named (oneUser 65536) webReply = some ⟨65536, 65536⟩ := by decide +kernel
  have root : rootWorker.process.switch (oneUser 65536) (cut 65536) (cut 65536) =
      some ⟨⟨0, 0, 0⟩, ⟨0, 0, 0⟩⟩ := by decide +kernel
  obtain ⟨after, same, outcome⟩ := @turn_cases (oneUser 65536) (fun _ => 0)
    ⟨ascii "app", ascii "7", .inr (ascii "80")⟩ ⟨true, true, true⟩ rootWorker _ webReply
    ⟨rfl, rfl, rfl⟩ rfl (by decide +kernel)
  rintro ⟨other, turned, right⟩
  cases Option.some_inj.mp (same.symm.trans turned)
  rcases outcome with ⟨-, -, refused⟩ | ⟨entry, process, -, known, switched, loaded⟩
  · exact nomatch (refused (by decide +kernel) _ found).symm.trans root
  · cases Option.some_inj.mp (found.symm.trans known)
    cases Option.some_inj.mp (root.symm.trans switched)
    rw [loaded] at right
    obtain ⟨user, entry, given, known, runs⟩ := right
    have web : webReply (ascii "USER") = some (ascii "web") := by decide +kernel
    cases Option.some_inj.mp (web.symm.trans given)
    have named : (oneUser 65536).getpwnam (ascii "web") = some ⟨65536, 65536⟩ := by decide +kernel
    cases Option.some_inj.mp (named.symm.trans known)
    exact absurd runs.user (by decide)

end WkrProcess
