import Webroar.Control.Hub

/-! # Does every control message end well?

A message should end in what it asks for or in an error reply that leaves everything else as it
was, and the head should never use what is not there. The headers are checked before a message is
handled, but not all of them, and the callbacks rely on the connection and on the state of the
application.
-/

open HeadCtl (MsgType)

namespace Hub

variable (setup : HeadSetup) (outside : Outside)

/-! ### How a message may end -/

/-- The answers that were handed over on a connection in between. -/
def Answered (ctl : Nat) (hub after : Hub) (replies : List CtlAnswer) : Prop :=
  ∃ more, after.answers = hub.answers ++ more ∧ (more.filter (·.1 = ctl)).map Prod.snd = replies

/-- Objects were handed over to be sent, and nothing else happened. -/
def noted (hub : Hub) (more : List (Nat × CtlAnswer)) : Hub :=
  { hub with answers := hub.answers ++ more }

/-- The application is there in a state, and will answer on the connection. -/
def Waits (name : List UInt8) (ctl : Nat) (state : AppState) (hub after : Hub) : Prop :=
  after.answers = hub.answers ∧
    ∃ number app, after.exist setup name = some number ∧ after.apps number = some app ∧
      app.state = state ∧ app.ctl = some ctl

/-- An application has taken notice of a worker that failed. -/
def Noticed (pid : Int) (number : Nat) (app : App) (after : Hub) : Prop :=
  match app.state with
  | .restart => ∃ later, after.apps number = some later ∧ later.state = .active ∧ later.new = none
  | .new => after.serves number = false
  | _ => ∃ later, after.apps number = some later ∧ later.state = app.state ∧
      later.timeoutCounter = 0 ∧ later.pending.Perm (app.pending.erase pid)

/-- What a message asks for has been done, or begun where the application answers later. -/
def Achieved (ctl : Nat) (get : List UInt8 → Option (List UInt8)) (hub after : Hub) :
    MsgType → Prop
  | .none | .typeError => False
  | .applicationAdd =>
      ∃ name, get (ascii "APP_NAME") = some name ∧ hub.exist setup name = none ∧
        Waits setup name ctl .new hub after
  | .applicationRemove =>
      ∃ name, get (ascii "APP_NAME") = some name ∧ Answered ctl hub after [.ok] ∧
        ∀ number, hub.exist setup name = some number → after.serves number = false
  | .applicationReload =>
      ∃ name, get (ascii "APP_NAME") = some name ∧
        Waits setup name ctl (if (hub.exist setup name).isSome then .restart else .new) hub after
  | .workerAdd =>
      ∃ name number app worker, get (ascii "APPLICATION") = some name ∧
        hub.exist setup name = some number ∧ Answered ctl hub after [.ok] ∧
        (after.conns ctl).wkr = some (number, worker) ∧ after.apps number = some app ∧
        worker ∈ app.pool.workers
  | .workerAddError =>
      ∃ name pid, get (ascii "APPLICATION") = some name ∧ get (ascii "PID") = some pid ∧
        Answered ctl hub after [.ok] ∧
        ∀ number app, hub.exist setup name = some number → hub.apps number = some app →
          Noticed (Decimal.atoi pid) number app after
  | .workerRemove =>
      Answered ctl hub after [.ok] ∧
        ∃ number worker, (hub.conns ctl).wkr = some (number, worker) ∧
          ∀ app, after.apps number = some app → worker ∉ app.pool.workers
  | .workerPing =>
      after.answers = hub.answers ∧
        ∃ number worker app, (hub.conns ctl).wkr = some (number, worker) ∧
          after.apps number = some app ∧ worker ∈ app.pool.workers ∧
          (app.pool.wkr worker).state ≠ .pinging
  | .workerConfReq =>
      ∃ name number, get (ascii "APPLICATION") = some name ∧ hub.exist setup name = some number ∧
        Answered ctl hub after [.conf number]

/-- The connection is still there, and what the message asks for was done, or the error reply is all
that happened. -/
def Ends (ctl : Nat) (get : List UInt8 → Option (List UInt8)) (type : MsgType) (hub : Hub)
    (result : Option Hub) : Prop :=
  ∃ after, result = some after ∧ (after.conns ctl).live = true ∧
    (after = hub.noted [(ctl, .error)] ∨ Achieved setup ctl get hub after type)

/-! ### When it does -/

/-- Connections can be ended for a message on a connection. -/
structure Detachable (hub : Hub) (ctl : Nat) (ctls : List Nat) : Prop where
  closable : hub.Closable ctls
  other : ctl ∉ ctls

/-- Whoever waits for the application can be told, once some connections have ended, and does not
wait on the connection itself. -/
def Answerable (hub : Hub) (ctl number : Nat) (app : App) (ended : List Nat) : Prop :=
  hub.unlinks ended number = false →
    ∀ waiting, app.ctl = some waiting →
      waiting ≠ ctl ∧ (hub.conns waiting).live = true ∧ waiting ∉ ended

/-- The connections that end when the application takes up a worker. -/
def released (hub : Hub) (number : Nat) (app : App) : List Nat :=
  if app.state = .restart then hub.owners number app.pool.freeWorkers else []

/-- Somebody may wait for the application to start or to restart. -/
def Expected (app : App) : Prop := app.state = .restart ∨ app.state = .new

/-- The application can take up a worker to the end. -/
structure Joins (hub : Hub) (ctl number : Nat) (app : App)
    (get : List UInt8 → Option (List UInt8)) : Prop where
  detachable : hub.Detachable ctl (hub.released number app)
  answerable : Expected app → hub.Answerable ctl number app (hub.released number app)
  path : setup.uds = true → outside.socket = true →
    ∀ path, get (ascii "SOCK_PATH") = some path → path.length < sunPath
  completes : App.Connection.Completes setup.config
    ⟨true, outside.socket && outside.connected, outside.nonblock⟩ app

/-- The condition for each type of message. -/
def Safe (ctl : Nat) (get : List UInt8 → Option (List UInt8)) (hub : Hub) : MsgType → Prop
  | .none => False
  | .typeError | .applicationReload => True
  | .applicationAdd =>
      ∀ name number, get (ascii "APP_NAME") = some name → hub.exist setup name = some number →
        (hub.conns ctl).app = some number
  | .applicationRemove =>
      ∀ name number app, get (ascii "APP_NAME") = some name →
        hub.exist setup name = some number → hub.apps number = some app →
        hub.Detachable ctl (hub.owners number app.pool.workers)
  | .workerAdd =>
      ∀ name number app pid, wkrCheckUds setup get = some true →
        get (ascii "APPLICATION") = some name → get (ascii "PID") = some pid →
        hub.exist setup name = some number → hub.apps number = some app →
        (app.Open ∧ (pidOf pid : Int) ∈ app.pending) →
        Joins setup outside hub ctl number app get
  | .workerAddError =>
      ∀ name number app, get (ascii "APPLICATION") = some name →
        hub.exist setup name = some number → hub.apps number = some app →
        (Expected app → hub.Answerable ctl number app []) ∧
        (app.state = .new → hub.Detachable ctl (hub.owners number app.pool.workers))
  | .workerRemove => (hub.conns ctl).wkr = none
  | .workerPing => (hub.conns ctl).wkr ≠ none
  | .workerConfReq => get (ascii "APPLICATION") ≠ none

/-! ### Answers -/

variable {setup outside} {hub after : Hub} {ctl number : Nat} {name : List UInt8}
  {get : List UInt8 → Option (List UInt8)} {reply : CtlAnswer}

/-- A reply has been begun on a connection that is there. -/
structure Ready (hub : Hub) (ctl : Nat) : Prop where
  live : (hub.conns ctl).live = true
  scgi : (hub.conns ctl).scgi = true

theorem noted_nil : hub.noted [] = hub := by
  unfold noted
  rw [List.append_nil]

theorem noted_noted (first second : List (Nat × CtlAnswer)) :
    (hub.noted first).noted second = hub.noted (first ++ second) := by
  unfold noted
  rw [List.append_assoc]

theorem Answered.noted (more : List (Nat × CtlAnswer)) :
    Answered ctl hub (hub.noted more) ((more.filter (·.1 = ctl)).map Prod.snd) :=
  ⟨more, rfl, rfl⟩

theorem Answered.trans {mid : Hub} {first second : List CtlAnswer}
    (before : Answered ctl hub mid first) (later : Answered ctl mid after second) :
    Answered ctl hub after (first ++ second) := by
  obtain ⟨one, wrote, rfl⟩ := before
  obtain ⟨two, wrote', rfl⟩ := later
  refine ⟨one ++ two, ?_, ?_⟩
  · rw [wrote', wrote, List.append_assoc]
  · rw [List.filter_append, List.map_append]

/-- What was answered is determined. -/
theorem Answered.unique {first second : List CtlAnswer} (one : Answered ctl hub after first)
    (two : Answered ctl hub after second) : first = second := by
  obtain ⟨more, wrote, rfl⟩ := one
  obtain ⟨other, wrote', rfl⟩ := two
  rw [List.append_cancel_left (wrote.symm.trans wrote')]

/-- What is handed over when an answer is written. -/
def sheet (hub : Hub) (ctl : Nat) (reply : CtlAnswer) : List (Nat × CtlAnswer) :=
  if (hub.conns ctl).scgi then [(ctl, reply)] else []

theorem answer_iff : hub.answer ctl reply = some after ↔
    (hub.conns ctl).live = true ∧ after = hub.noted (hub.sheet ctl reply) := by
  unfold answer sheet
  split
  · next live =>
      rw [and_iff_right live]
      split
      · exact Option.some_inj.trans eq_comm
      · rw [noted_nil]
        exact Option.some_inj.trans eq_comm
  · next dead => exact ⟨nofun, fun both => absurd both.1 dead⟩

theorem Ready.answer (ready : hub.Ready ctl) (reply : CtlAnswer) :
    hub.answer ctl reply = some (hub.noted [(ctl, reply)]) := by
  rw [answer_iff, sheet, ready.scgi]
  exact ⟨ready.live, rfl⟩

theorem Answered.single (ctl : Nat) (hub : Hub) (reply : CtlAnswer) :
    Answered ctl hub (hub.noted [(ctl, reply)]) [reply] :=
  ⟨[(ctl, reply)], rfl, by simp⟩

/-- The connection the application will answer. -/
def waiting (hub : Hub) (number : Nat) : Option Nat := (hub.apps number).bind App.ctl

/-- What is handed over for whoever waits for the application. -/
def letter (hub : Hub) (number : Nat) (reply : CtlAnswer) : List (Nat × CtlAnswer) :=
  match hub.waiting number with
  | some waits => hub.sheet waits reply
  | none => []

/-- The headers that a message of a type has. -/
def Checked (get : List UInt8 → Option (List UInt8)) : MsgType → Prop
  | .applicationAdd | .applicationRemove | .applicationReload => get (ascii "APP_NAME") ≠ none
  | .workerAdd | .workerAddError => HeadCtl.workerHeaders get = true
  | .none => False
  | _ => True

theorem checked (get : List UInt8 → Option (List UInt8)) : Checked get (msgType get) := by
  unfold msgType HeadCtl.wrCtlMsgValidate HeadCtl.ctlMsgErr
  dsimp only
  repeat' split
  all_goals first
    | exact trivial
    | assumption

theorem reloadCb_waits (config : Config) (fork : Nat → Int) (app : App) (ctl : Nat) (conf : Conf) :
    (app.reloadCb config fork ctl (some conf)).state = .restart ∧
      (app.reloadCb config fork ctl (some conf)).ctl = some ctl := by
  unfold App.reloadCb
  apply App.wkrAdd_induct fun after => after.state = .restart ∧ after.ctl = some ctl
  · exact ⟨rfl, rfl⟩
  · exact fun _ _ => ⟨rfl, rfl⟩
  · exact fun _ _ => ⟨rfl, rfl⟩

/-- The applications are in order, and the worker of a connection is registered with it. -/
structure Sound (setup : HeadSetup) (hub : Hub) : Prop where
  steady : ∀ number app, hub.apps number = some app → app.Steady setup.config
  marked : ∀ number app, hub.apps number = some app → app.Marked
  registered : ∀ ctl number worker, (hub.conns ctl).live = true →
    (hub.conns ctl).wkr = some (number, worker) → hub.owner number worker = some ctl ∧
      ∃ app, hub.apps number = some app ∧ app.state ≠ .destroy ∧ worker ∈ app.pool.workers

/-- An operation that ends with an answer after some others: there were no others, and it is not an
error. -/
theorem Ends.last {type : MsgType} {replies : List CtlAnswer}
    (kind : type = .workerAdd ∨ type = .workerAddError)
    (ends : after = hub.noted [(ctl, .error)] ∨ Achieved setup ctl get hub after type)
    (answered : Answered ctl hub after (replies ++ [.ok])) :
    replies = [] ∧ Achieved setup ctl get hub after type := by
  rcases ends with rfl | achieved
  · have same := answered.unique (Answered.single ctl hub .error)
    obtain ⟨-, last⟩ := List.append_inj' (same.trans (List.nil_append _).symm) rfl
    exact nomatch last
  · have single : Answered ctl hub after [.ok] := by
      rcases kind with rfl | rfl
      · obtain ⟨-, -, -, -, -, -, single, -⟩ := achieved
        exact single
      · obtain ⟨-, -, -, -, single, -⟩ := achieved
        exact single
    have same := answered.unique single
    exact ⟨(List.append_inj' (same.trans (List.nil_append _).symm) rfl).1, achieved⟩

theorem Ready.closed (ready : hub.Ready ctl) {ctls : List Nat} (other : ctl ∉ ctls) :
    (hub.closed ctls).Ready ctl := by
  constructor
  · rw [closed_other other]
    exact ready.live
  · rw [closed_other other]
    exact ready.scgi

variable {app : App} {pid worker : Nat} {connection : App.Connection}

/-- What is looked at when a message is read: the head, the connection it arrives on, and that the
connection is there. -/
structure Reading (setup : HeadSetup) where
  hub : Hub
  ctl : Nat
  live : (hub.conns ctl).live = true
  sound : hub.Sound setup

namespace Reading

/-- The head with a reply begun on the connection. -/
def begun (reading : Reading setup) : Hub := reading.hub.replyNew reading.ctl

/-- The message is handled to its end: what it asks for is done, or the error reply is all that
happens. What is no whole message yet changes nothing. -/
def Handled (outside : Outside) (reading : Reading setup) (msg : List UInt8) : Prop :=
  ∃ after, reading.hub.msgReadCb setup outside reading.ctl msg = some after ∧
    match CtlMessage.headLook msg with
    | .wait => after = reading.hub
    | .refuse => after = reading.begun.noted [(reading.ctl, .error)]
    | .take request =>
        after = reading.begun.noted [(reading.ctl, .error)] ∨
          Achieved setup reading.ctl request.headerValueGet reading.begun after
            (msgType request.headerValueGet)

/-- The body of the message is announced, and what its type relies on is there. -/
def Proper (outside : Outside) (reading : Reading setup) (msg : List UInt8) : Prop :=
  match CtlMessage.headLook msg with
  | .wait => True
  | .refuse => False
  | .take request =>
      Safe setup outside reading.ctl request.headerValueGet reading.begun
        (msgType request.headerValueGet)

variable (reading : Reading setup)

/-- A head without applications, and a connection on which nothing was said. -/
def fresh (config : Config) : Reading ⟨config, true, ascii "static-worker"⟩ where
  hub := ⟨fun _ => none, [], none, 0, fun ctl => ⟨ctl = 0, false, none, none⟩, fun _ _ => none, []⟩
  ctl := 0
  live := rfl
  sound :=
    ⟨fun _ _ known => (nomatch known), fun _ _ known => (nomatch known),
      fun _ _ _ _ served => (nomatch served)⟩

end Reading

end Hub
