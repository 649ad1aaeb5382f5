import Webroar.Client.Phase

/-! # The account of a connection

The head counts the responses a connection owes. An observer keeps a ledger of his own: a request
is entered when the parser has brought it to its end or turns it away, and is struck out when the
rest of its response is produced. The count of the head is to agree with the ledger at any time,
and when the connection is freed no request is to be left behind.
-/

namespace Client

/-- The parser has brought the request to its end: it is complete, or it is turned away. -/
def Event.Asks (event : Event) (client : Client) (req : Nat) : Prop :=
  client.executing = true ∧
    match event with
    | .finish _ _ _ => client.conn.parsing ≠ none ∧ client.conn.currentRequest = some req
    | .reject _ => client.conn.currentRequest = some req
    | .parseError => client.faulty = req
    | _ => False

/-- The response to the request is produced to its end: a request that is turned away gets a page
at once, also for want of an application or of room in its queue; otherwise the worker hands the
last portion over or dies, or the application is removed. -/
def Event.Answers (event : Event) (client : Client) (req : Nat) : Prop :=
  match event with
  | .finish _ room _ =>
      event.Asks client req ∧ ((client.reqs req).app = false ∨ room = false)
  | .reject _ | .parseError => event.Asks client req
  | .head used announced body =>
      used = req ∧ client.executing = false ∧ client.Held req ∧
        (client.reqs req).respBufLen = 0 ∧ (announced = 0 ∨ announced = body.length)
  | .part used read =>
      used = req ∧ client.executing = false ∧ client.Held req ∧
        (client.reqs req).respBufLen ≠ 0 ∧ (read = [] ∨
          (client.reqs req).respBufLen ≤ (client.reqs req).bytesReceived + read.length)
  | .death used => used = req ∧ client.executing = false ∧ client.Held req
  | .removed waiting => waiting = req ∧ client.executing = false ∧ client.Waits req
  | _ => False

/-- The connection is closed, by the client or an error, or by the head after it has written the
last buffer. -/
def Event.Closes (serverKeepAlive : Bool) (event : Event) (client : Client) : Prop :=
  client.executing = false ∧ client.conn.opened = true ∧
    match event with
    | .lost => client.conn.reading = true ∨ client.conn.toWrite.isSome = true
    | .written =>
        client.conn.toWrite.isSome = true ∧ client.conn.resp.tail = [] ∧
          client.conn.respToWrite ≤ 0 ∧ (serverKeepAlive && client.conn.keepAlive) = false
    | _ => False

end Client

/-- A connection with the ledger of the requests that wait for their response. -/
structure Account where
  client : Client
  owed : Nat → Prop

namespace Account

open Client

variable (serverKeepAlive : Bool) (page : Nat → Status → List UInt8)

def step (event : Event) (account : Account) : Option Account :=
  (account.client.step serverKeepAlive page event).map fun client =>
    { client := client
      owed := fun req =>
        (event.Asks account.client req ∨ account.owed req) ∧ ¬ event.Answers account.client req }

/-- A connection that was accepted. -/
def accepted : Account := ⟨Client.accepted, fun _ => False⟩

def after (input : Nat → Event) (count : Nat) : Option Account :=
  Machine.after (Machine.attempt (step serverKeepAlive page)) input (some accepted) count

/-- The count agrees with the ledger, and a connection that is freed leaves no request but those
that a worker uses and that say so. -/
structure Balanced (account : Account) : Prop where
  count : account.client.conn.freed = false →
    account.client.conn.respToWrite = 0 ∨ account.client.conn.respToWrite = 1
  exact : account.client.conn.freed = false →
    (account.client.conn.respToWrite = 1 ↔ ∃ req, account.owed req)
  left : account.client.conn.freed = true → ∀ req, (account.client.reqs req).created = true →
    (account.client.reqs req).live = false ∨
      (account.client.reqs req).usingWkr = true ∧ (account.client.reqs req).connErr = true

end Account

namespace Client

/-- The connection is not closed while a request is being parsed, the temporary file of a request
can be opened, and no worker dies with a request that failed once the connection is freed. -/
structure Gentle (serverKeepAlive : Bool) (event : Event) (client : Client) : Prop where
  temp : event = .tempFail → client.executing = true → client.conn.currentRequest = none
  close : event.Closes serverKeepAlive client → client.conn.currentRequest = none
  worker : ∀ req, event.Kills client req → (client.reqs req).connErr = true →
    client.conn.freed = false

variable {serverKeepAlive : Bool} {page : Nat → Status → List UInt8} {client after : Client}
  {req : Nat}

/-! ### The ledger -/

/-- How the ledger goes on: what was owed before and what is owed now. -/
def Event.Leaves (event : Event) (client : Client) (who next : Option Nat) : Prop :=
  ∀ req, next = some req ↔
    (event.Asks client req ∨ who = some req) ∧ ¬ event.Answers client req

namespace Event.Leaves

variable {event : Event} {who : Option Nat}

theorem same (unasked : ∀ req, ¬ event.Asks client req)
    (unanswered : ∀ req, ¬ event.Answers client req) : event.Leaves client who who := by
  intro req
  constructor
  · exact fun owed => ⟨.inr owed, unanswered req⟩
  · exact fun left => left.1.resolve_left (unasked req)

theorem none (answered : ∀ req, event.Asks client req ∨ who = some req →
    event.Answers client req) : event.Leaves client who none := by
  intro req
  constructor
  · exact nofun
  · exact fun left => absurd (answered req left.1) left.2

theorem entered (asks : ∀ other, event.Asks client other ↔ other = req)
    (waits : ¬ event.Answers client req) : event.Leaves client Option.none (some req) := by
  intro other
  constructor
  · intro same
    cases same
    exact ⟨.inl ((asks req).mpr rfl), waits⟩
  · intro left
    rcases left.1 with asked | owed
    · exact congrArg some ((asks other).mp asked).symm
    · exact nomatch owed

end Event.Leaves

namespace Phase

variable {who : Option Nat}

theorem stepParser {event : Event} (phase : client.Phase who)
    (executing : client.executing = true) (gentle : Gentle serverKeepAlive event client) :
    ∃ after next, client.stepParser page event = some after ∧ after.Phase next ∧
      event.Leaves client who next := by
  unfold Client.stepParser
  cases event with
  | start =>
      have leaves : Event.start.Leaves client who who :=
        .same (fun _ asks => asks.2) (fun _ answers => answers)
      dsimp only
      split
      · next between => exact ⟨_, who, rfl, phase.newReqCb executing between, leaves⟩
      · exact ⟨_, who, rfl, phase, leaves⟩
  | headers app =>
      have leaves : (Event.headers app).Leaves client who who :=
        .same (fun _ asks => asks.2) (fun _ answers => answers)
      dsimp only
      unfold Client.parse
      cases current : client.conn.currentRequest with
      | none => exact ⟨_, who, rfl, phase, leaves⟩
      | some req =>
          obtain ⟨rfl, parses⟩ := phase.parses executing current
          obtain ⟨after, same, kept⟩ := resolve parses app
          exact ⟨after, none, same, kept, leaves⟩
  | tempFail =>
      dsimp only
      unfold Client.parse
      rw [gentle.temp rfl executing]
      exact ⟨_, who, rfl, phase, .same (fun _ asks => asks.2) (fun _ answers => answers)⟩
  | reject status =>
      dsimp only
      unfold Client.parse
      cases current : client.conn.currentRequest with
      | none =>
          refine ⟨_, who, rfl, phase, .same (fun _ asks => ?_) (fun _ answers => ?_)⟩
          · exact nomatch current.symm.trans asks.2
          · exact nomatch current.symm.trans answers.2
      | some req =>
          obtain ⟨rfl, parses⟩ := phase.parses executing current
          obtain ⟨after, same, kept, -⟩ := @Conn.Open.reqInvalid page _ req parses.shows
            parses.own (.inl parses.owed) false parses.place parses.others status
          exact ⟨after, none, same, kept, .none fun other asks => asks.resolve_right nofun⟩
  | finish keepAlive room taken =>
      dsimp only
      by_cases between : client.conn.parsing = none
      · rw [if_pos between]
        exact ⟨_, who, rfl, phase, .same (fun _ asks => asks.2.1 between)
          (fun _ answers => answers.1.2.1 between)⟩
      · rw [if_neg between]
        cases current : client.conn.currentRequest with
        | none =>
            unfold Client.endRequest
            dsimp only
            rw [current]
            refine ⟨_, who, rfl, ?_, .same (fun _ asks => ?_) (fun _ answers => ?_)⟩
            · have passed := phase.between current
              dsimp only at passed
              rwa [current] at passed
            · exact nomatch current.symm.trans asks.2.2
            · exact nomatch current.symm.trans answers.1.2.2
        | some req =>
            obtain ⟨rfl, parses⟩ := phase.parses executing current
            obtain ⟨after, same, kept⟩ := @endRequest page _ req parses keepAlive room taken
            refine ⟨after, _, same, kept, ?_⟩
            have asks : ∀ other, (Event.finish keepAlive room taken).Asks client other ↔
                other = req := by
              intro other
              constructor
              · exact fun asked => Option.some.inj (asked.2.2.symm.trans current)
              · intro same
                cases same
                exact ⟨executing, between, current⟩
            by_cases accepted : (client.reqs req).app = true ∧ room = true
            · rw [if_pos accepted]
              refine .entered asks fun answers => ?_
              rcases answers.2 with unknown | full
              · exact nomatch unknown.symm.trans accepted.1
              · exact nomatch full.symm.trans accepted.2
            · rw [if_neg accepted]
              refine .none fun other asked => ?_
              have asked := asked.resolve_right nofun
              refine ⟨asked, ?_⟩
              rw [(asks other).mp asked]
              rcases not_and_or.mp accepted with unknown | full
              · exact .inl (Bool.eq_false_iff.mpr unknown)
              · exact .inr (Bool.eq_false_iff.mpr full)
  | consumed =>
      exact ⟨_, who, rfl, phase.consumed, .same (fun _ asks => asks.2) (fun _ answers => answers)⟩
  | parseError =>
      obtain ⟨after, same, kept⟩ := @parseErrCb page _ who phase executing
      refine ⟨after, none, same, kept, .none fun other asked => ?_⟩
      rcases asked with asked | owed
      · exact asked
      · refine ⟨executing, ?_⟩
        cases owed
        cases phase with
        | busy req used hand =>
            dsimp only
            unfold faulty
            rw [hand.own]
  | _ =>
      refine ⟨_, who, rfl, phase, .same (fun _ asks => asks.2) (fun _ answers => ?_)⟩
      first
        | exact answers
        | exact nomatch executing.symm.trans answers.2.1

theorem stepOther {event : Event} (phase : client.Phase who) (still : client.executing = false)
    (gentle : Gentle serverKeepAlive event client) :
    ∃ after next, client.stepOther serverKeepAlive page event = some after ∧ after.Phase next ∧
      event.Leaves client who next := by
  have unasked : ∀ req, ¬ event.Asks client req := fun req asks =>
    nomatch still.symm.trans asks.1
  have dies : ∀ req, event.Kills client req → event.Answers client req →
      ∃ after next, client.wkrFree page req = some after ∧ after.Phase next ∧
        event.Leaves client who next := by
    intro req kills answers
    obtain ⟨after, same, kept⟩ := @wkrFree page _ req who phase kills.2.1 (gentle.worker req kills)
    refine ⟨after, none, same, kept, .none fun other asked => ?_⟩
    cases phase.sole (.inl kills.2.1) (asked.resolve_left (unasked other))
    exact answers
  unfold Client.stepOther
  cases event with
  | readable =>
      have leaves : Event.readable.Leaves client who who := .same unasked fun _ answers => answers
      refine ⟨_, who, rfl, ?_, leaves⟩
      split
      · next reads =>
          obtain ⟨opened, reading⟩ := Bool.and_eq_true_iff.mp reads
          exact phase.readable opened reading
      · exact phase
  | written =>
      have leaves : Event.written.Leaves client who who := .same unasked fun _ answers => answers
      refine ⟨_, who, rfl, ?_, leaves⟩
      split
      · next due =>
          exact phase.written due.1 still fun rest owes keeps =>
            gentle.close ⟨still, due.1, due.2, rest, owes, keeps⟩
      · exact phase
  | lost =>
      have leaves : Event.lost.Leaves client who who := .same unasked fun _ answers => answers
      refine ⟨_, who, rfl, ?_, leaves⟩
      split
      · next due => exact phase.close due.1 still (gentle.close ⟨still, due.1, due.2⟩)
      · exact phase
  | timeout =>
      have leaves : Event.timeout.Leaves client who who := .same unasked fun _ answers => answers
      dsimp only
      split
      · next opened =>
          obtain ⟨after, same, kept⟩ := phase.timeoutCb opened still
          exact ⟨after, who, same, kept, leaves⟩
      · exact ⟨_, who, rfl, phase, leaves⟩
  | taken req =>
      have leaves : (Event.taken req).Leaves client who who :=
        .same unasked fun _ answers => answers
      refine ⟨_, who, rfl, ?_, leaves⟩
      split
      · next waits => exact phase.take waits
      · exact phase
  | head req announced body =>
      dsimp only
      split
      · next due =>
          by_cases announces : announced = 0
          · unfold Client.setRespLen
            rw [if_pos announces]
            exact dies req ⟨still, due.1, rfl, due.2, announces⟩
              ⟨rfl, still, due.1, due.2, .inl announces⟩
          · obtain ⟨after, same, kept⟩ :=
              @setRespLen page _ req who phase due.1 announced announces body
            refine ⟨after, _, same, kept, ?_⟩
            by_cases ended : announced = body.length
            · rw [if_pos ended]
              refine .none fun other asked => ?_
              cases phase.sole (.inl due.1) (asked.resolve_left (unasked other))
              exact ⟨rfl, still, due.1, due.2, .inr ended⟩
            · rw [if_neg ended]
              exact .same unasked fun other answers => answers.2.2.2.2.elim announces ended
      · next due =>
          refine ⟨_, who, rfl, phase, .same unasked fun other answers => ?_⟩
          cases answers.1
          exact due ⟨answers.2.2.1, answers.2.2.2.1⟩
  | part req read =>
      dsimp only
      split
      · next due =>
          by_cases reads : read = []
          · unfold Client.respReadCb
            rw [if_pos reads]
            exact dies req ⟨still, due.1, rfl, due.2, reads⟩
              ⟨rfl, still, due.1, due.2, .inl reads⟩
          · obtain ⟨after, same, kept⟩ := @respReadCb page _ req who phase due.1 read reads
            refine ⟨after, _, same, kept, ?_⟩
            by_cases ended :
                (client.reqs req).respBufLen ≤ (client.reqs req).bytesReceived + read.length
            · rw [if_pos ended]
              refine .none fun other asked => ?_
              cases phase.sole (.inl due.1) (asked.resolve_left (unasked other))
              exact ⟨rfl, still, due.1, due.2, .inr ended⟩
            · rw [if_neg ended]
              refine .same unasked fun other answers => ?_
              cases answers.1
              exact answers.2.2.2.2.elim reads ended
      · next due =>
          refine ⟨_, who, rfl, phase, .same unasked fun other answers => ?_⟩
          cases answers.1
          exact due ⟨answers.2.2.1, answers.2.2.2.1⟩
  | death req =>
      dsimp only
      split
      · next held => exact dies req ⟨still, held, rfl⟩ ⟨rfl, still, held⟩
      · next unheld =>
          refine ⟨_, who, rfl, phase, .same unasked fun other answers => ?_⟩
          cases answers.1
          exact unheld answers.2.2
  | removed req =>
      dsimp only
      split
      · next waits =>
          obtain ⟨after, same, kept⟩ := @appFree page _ req who phase waits
          refine ⟨after, none, same, kept, .none fun other asked => ?_⟩
          cases phase.sole (.inr waits) (asked.resolve_left (unasked other))
          exact ⟨rfl, still, waits⟩
      · next idle =>
          refine ⟨_, who, rfl, phase, .same unasked fun other answers => ?_⟩
          cases answers.1
          exact idle answers.2.2
  | _ =>
      refine ⟨_, who, rfl, phase, .same unasked fun other answers => ?_⟩
      first
        | exact answers
        | exact unasked other answers
        | exact unasked other answers.1

/-! ### Every callback of every run -/

theorem step (phase : client.Phase who) {event : Event}
    (gentle : Gentle serverKeepAlive event client) :
    ∃ after next, client.step serverKeepAlive page event = some after ∧ after.Phase next ∧
      event.Leaves client who next := by
  unfold Client.step
  cases executing : client.executing with
  | true => exact phase.stepParser executing gentle
  | false => exact phase.stepOther executing gentle

end Phase

/-- A step with a result did not fail for want of a temporary file. -/
theorem temp_of_step {event : Event} (ran : client.step serverKeepAlive page event = some after) :
    event = .tempFail → client.executing = true → client.conn.currentRequest = none := by
  intro same executing
  subst same
  unfold Client.step at ran
  rw [executing, if_pos rfl] at ran
  unfold Client.stepParser Client.parse at ran
  dsimp only at ran
  split at ran
  · exact nomatch ran
  · next between => exact between

/-- Nor did a worker die with a request whose connection was freed. -/
theorem kept_of_kills {event : Event} (kills : event.Kills client req)
    (ran : client.step serverKeepAlive page event = some after) : client.conn.freed = false := by
  rw [kills_step kills] at ran
  cases freed : client.conn.freed with
  | false => rfl
  | true =>
      unfold Client.wkrFree Client.errResp Conn.respBodyAdd setReq at ran
      dsimp only at ran
      rw [if_pos freed] at ran
      exact nomatch ran

/-- Closing does no more than to close. -/
theorem Event.Closes.step {event : Event} (closes : event.Closes serverKeepAlive client) :
    client.step serverKeepAlive page event =
      some { client with conn := client.conn.scheduleClose } := by
  obtain ⟨still, opened, due⟩ := closes
  have other : client.step serverKeepAlive page event =
      client.stepOther serverKeepAlive page event := by
    unfold Client.step
    rw [still, if_neg Bool.false_ne_true]
  rw [other]
  unfold stepOther
  cases event with
  | lost =>
      dsimp only
      rw [if_pos ⟨opened, due⟩]
  | written =>
      obtain ⟨writes, rest, owes, keeps⟩ := due
      dsimp only
      rw [if_pos ⟨opened, writes⟩, Conn.afterWriteCb_last rest, if_pos owes, keeps,
        if_neg Bool.false_ne_true]
  | _ => exact due.elim

end Client

namespace Account

open Client

variable {serverKeepAlive : Bool} {page : Nat → Status → List UInt8}

/-- The ledger holds what the connection owes. -/
def Kept (account : Account) : Prop :=
  ∃ who, account.client.Phase who ∧ ∀ req, account.owed req ↔ who = some req

theorem Kept.balanced (account : Account) (kept : account.Kept) : account.Balanced := by
  obtain ⟨who, phase, ledger⟩ := kept
  have unowed : who = none → ¬ ∃ req, account.owed req := by
    intro none owed
    obtain ⟨req, owed⟩ := owed
    exact nomatch none.symm.trans ((ledger req).mp owed)
  have zero : account.client.conn.respToWrite = 0 → ¬ account.client.conn.respToWrite = 1 :=
    fun none one => nomatch none.symm.trans one
  cases phase with
  | idle shows unowned owed =>
      exact ⟨fun _ => .inl owed, fun _ => iff_of_false (zero owed) (unowed rfl),
        fun freed => nomatch shows.kept.symm.trans freed⟩
  | parsing req parses =>
      exact ⟨fun _ => .inl parses.owed, fun _ => iff_of_false (zero parses.owed) (unowed rfl),
        fun freed => nomatch parses.shows.kept.symm.trans freed⟩
  | busy req used hand =>
      exact ⟨fun _ => .inr hand.owed, fun _ => iff_of_true hand.owed ⟨req, (ledger req).mpr rfl⟩,
        fun freed => nomatch hand.kept.symm.trans freed⟩
  | failed req shows own owed =>
      exact ⟨fun _ => .inl owed, fun _ => iff_of_false (zero owed) (unowed rfl),
        fun freed => nomatch shows.kept.symm.trans freed⟩
  | gone shut still freed marked =>
      refine ⟨fun kept => (nomatch kept.symm.trans freed),
        fun kept => (nomatch kept.symm.trans freed), fun _ req created => ?_⟩
      cases live : (account.client.reqs req).live with
      | false => exact .inl rfl
      | true => exact .inr (marked req live).2

theorem Kept.step (event : Event) (account : Account) (kept : account.Kept)
    (gentle : Gentle serverKeepAlive event account.client) :
    ∃ after, account.step serverKeepAlive page event = some after ∧ after.Kept := by
  obtain ⟨who, phase, ledger⟩ := kept
  obtain ⟨client, next, stepped, kept, leaves⟩ := @Phase.step _ page _ _ phase event gentle
  unfold Account.step
  rw [stepped]
  refine ⟨_, rfl, next, kept, fun req => ?_⟩
  rw [leaves req, ← ledger req]

/-- A connection that is freed while it parses a request leaves it behind. -/
theorem unbalanced_of_freed {account : Account} {req : Nat}
    (place : (account.client.reqs req).At false false) (freed : account.client.conn.freed = true) :
    ¬ account.Balanced := by
  intro balanced
  rcases balanced.left freed req place.created with dead | held
  · exact nomatch place.live.symm.trans dead
  · exact nomatch place.usingWkr.symm.trans held.1

/-- A step after which the account is balanced was a gentle one. -/
theorem Kept.gentle (event : Event) (account after : Account) (kept : account.Kept)
    (stepped : account.step serverKeepAlive page event = some after) (balanced : after.Balanced) :
    Gentle serverKeepAlive event account.client := by
  obtain ⟨who, phase, ledger⟩ := kept
  obtain ⟨client, ran, rfl⟩ := Option.map_eq_some_iff.mp stepped
  refine ⟨temp_of_step ran, fun closes => ?_, fun req kills _ => kept_of_kills kills ran⟩
  have opened := closes.2.1
  cases phase with
  | idle shows unowned owed between => exact between
  | busy req used hand => exact hand.current
  | failed req shows own owed between => exact between
  | gone shut => exact nomatch opened.symm.trans shut
  | parsing req parses =>
      cases closes.step.symm.trans ran
      refine absurd balanced (@unbalanced_of_freed _ req parses.place ?_)
      dsimp only
      rw [Sound.scheduleClose_freed (Int.le_of_eq parses.owed)]

theorem accepted_kept : accepted.Kept := by
  refine ⟨none, .idle ⟨rfl, rfl, rfl⟩ rfl rfl rfl fun _ => rfl, fun _ => ?_⟩
  exact iff_of_false id nofun

/-- The connection that the account is about goes its own way. -/
theorem after_client (input : Nat → Event) (count : Nat) :
    (Account.after serverKeepAlive page input count).map Account.client =
      Client.after serverKeepAlive page input count := by
  induction count with
  | zero => rfl
  | succ count ih =>
      unfold Client.after at ih ⊢
      rw [Machine.after_succ, ← ih]
      unfold Account.after
      rw [Machine.after_succ]
      cases Machine.after (Machine.attempt (Account.step serverKeepAlive page)) input
          (some accepted) count with
      | none => rfl
      | some account =>
          change Option.map Account.client (account.step serverKeepAlive page (input count)) = _
          unfold Account.step
          rw [Option.map_map]
          exact Option.map_id'

/-- In every state of the run the account is balanced, and the run has all its states. -/
def AlwaysBalanced (serverKeepAlive : Bool) (page : Nat → Status → List UInt8)
    (input : Nat → Event) : Prop :=
  ∀ count, ∃ account, Account.after serverKeepAlive page input count = some account ∧
    account.Balanced

/-- Every callback of the run is a gentle one. -/
def AlwaysGentle (serverKeepAlive : Bool) (page : Nat → Status → List UInt8)
    (input : Nat → Event) : Prop :=
  ∀ count account, Account.after serverKeepAlive page input count = some account →
    Gentle serverKeepAlive (input count) account.client

theorem balanced_iff (serverKeepAlive : Bool) (page : Nat → Status → List UInt8)
    (input : Nat → Event) :
    AlwaysBalanced serverKeepAlive page input ↔ AlwaysGentle serverKeepAlive page input :=
  Machine.attempt_safe_iff Kept Balanced
    (fun event account => Gentle serverKeepAlive event account.client) accepted_kept
    Kept.balanced Kept.step Kept.gentle

/-- The client closes the connection in the middle of a request. -/
def abandonedInput : Nat → Event
  | 0 => .readable
  | 1 => .start
  | 2 => .consumed
  | _ => .lost

theorem not_balanced : ¬ AlwaysBalanced true (fun _ _ => [0]) abandonedInput := by
  intro balanced
  obtain ⟨account, reached, fine⟩ := balanced 4
  have client := @after_client true (fun _ _ => [0]) abandonedInput 4
  rw [reached] at client
  have left : (Client.after true (fun _ _ => [0]) abandonedInput 4).any (fun client =>
      client.conn.freed && (client.reqs 0).created && (client.reqs 0).live &&
        !(client.reqs 0).usingWkr) = true := by
    decide +kernel
  rw [← client] at left
  simp only [Option.map_some, Option.any_some, Bool.and_eq_true, Bool.not_eq_true'] at left
  obtain ⟨⟨⟨freed, created⟩, live⟩, unused⟩ := left
  rcases fine.left freed 0 created with dead | held
  · exact nomatch live.symm.trans dead
  · exact nomatch unused.symm.trans held.1

end Account
