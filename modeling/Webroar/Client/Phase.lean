import Webroar.Client.Integrity

/-! # What a connection is at

Whatever happens, a connection is idle, parses a request, owes the response to one that waits or
that a worker uses, writes the page for one that failed, or is no more. Each callback takes it from
one of these phases to another, as long as it is not closed while it parses a request.
-/

namespace Client

variable {serverKeepAlive : Bool} {page : Nat → Status → List UInt8} {client after : Client}
  {req : Nat}

structure Conn.Open (conn : Conn) : Prop where
  opened : conn.opened = true
  kept : conn.freed = false
  unclosed : conn.isClosed = false

/-- The worker goes on with a request, the connection is done with it. -/
def Req.Marked (record : Req) : Prop :=
  record.live = true →
    record.queued = false ∧ record.usingWkr = true ∧ record.connErr = true

/-- The connection owes the response to a request, also when the client has closed it. -/
structure Hand (client : Client) (req : Nat) : Prop where
  kept : client.conn.freed = false
  shows : client.conn.Open ∨
    client.conn.opened = false ∧ client.conn.isClosed = true ∧ client.executing = false
  owed : client.conn.respToWrite = 1
  own : client.conn.req = some req
  current : client.conn.currentRequest = none
  others : ∀ other, other ≠ req → (client.reqs other).live = false

/-- A request is being parsed. -/
structure Parses (client : Client) (req : Nat) : Prop where
  shows : client.conn.Open
  own : client.conn.req = some req
  owed : client.conn.respToWrite = 0
  current : client.conn.currentRequest = some req
  text : client.conn.parsing = some req
  place : (client.reqs req).At false false
  others : ∀ other, other ≠ req → (client.reqs other).live = false

/-- What a connection does, with the request whose response it owes. -/
inductive Phase (client : Client) : Option Nat → Prop
  | idle (shows : client.conn.Open) (unowned : client.conn.req = none)
      (owed : client.conn.respToWrite = 0) (current : client.conn.currentRequest = none)
      (done : ∀ req, (client.reqs req).live = false) : Phase client none
  | parsing (req : Nat) (parses : client.Parses req) : Phase client none
  | busy (req : Nat) (used : Bool) (hand : client.Hand req)
      (place : (client.reqs req).At (!used) used) : Phase client (some req)
  | failed (req : Nat) (shows : client.conn.Open) (own : client.conn.req = some req)
      (owed : client.conn.respToWrite = 0) (current : client.conn.currentRequest = none)
      (stopped : client.conn.reading = false ∧ client.executing = false)
      (closes : client.conn.keepAlive = false) (writes : client.conn.resp ≠ [])
      (marked : (client.reqs req).Marked)
      (others : ∀ other, other ≠ req → (client.reqs other).live = false) : Phase client none
  | gone (shut : client.conn.opened = false) (still : client.executing = false)
      (freed : client.conn.freed = true) (marked : ∀ req, (client.reqs req).Marked) :
      Phase client none

theorem Phase.opened_of_executing {who : Option Nat} (phase : client.Phase who)
    (executing : client.executing = true) : client.conn.Open := by
  cases phase with
  | idle shows => exact shows
  | parsing _ parses => exact parses.shows
  | busy _ _ hand =>
      rcases hand.shows with shows | ⟨-, -, still⟩
      · exact shows
      · exact nomatch executing.symm.trans still
  | failed _ shows => exact shows
  | gone _ still => exact nomatch executing.symm.trans still

/-! ### A request that is done -/

namespace Hand

/-- The buffer goes to the connection, unless the client closed it. -/
theorem respBodyAdd (hand : client.Hand req) (piece : Piece) :
    client.conn.respBodyAdd piece =
      some (if client.conn.isClosed then client.conn else client.conn.add piece) := by
  have unfreed : ¬ client.conn.freed = true := fun freed => nomatch hand.kept.symm.trans freed
  have owes : ¬ client.conn.respToWrite = 0 := fun none => nomatch hand.owed.symm.trans none
  unfold Conn.respBodyAdd
  rw [if_neg unfreed, if_neg owes]
  split <;> rfl

theorem told (hand : client.Hand req) (piece : Piece) :
    Hand { client with
      conn := if client.conn.isClosed then client.conn else client.conn.add piece } req := by
  obtain ⟨toWrite, writes, added⟩ := client.conn.add_eq piece
  cases closed : client.conn.isClosed with
  | true => exact hand
  | false =>
      rw [if_neg Bool.false_ne_true, added]
      refine ⟨hand.kept, ?_, hand.owed, hand.own, hand.current, hand.others⟩
      rcases hand.shows with shows | ⟨-, same, -⟩
      · exact .inl ⟨shows.opened, shows.kept, shows.unclosed⟩
      · exact nomatch closed.symm.trans same

theorem setReq (hand : client.Hand req) (record : Req) : (client.setReq req record).Hand req := {
  hand with
  others := fun other differs =>
    (congrArg Req.live (Function.update_of_ne differs _ _)).trans (hand.others other differs) }

/-- The request is freed: the connection is idle or, if the client closed it, freed too. -/
theorem finish (hand : client.Hand req) {record : Req} (dead : record.live = false) :
    Phase { client with
      conn := client.conn.release
      reqs := Function.update client.reqs req record } none := by
  have done : ∀ other, (Function.update client.reqs req record other).live = false := by
    intro other
    by_cases same : other = req
    · subst same
      rw [Function.update_self]
      exact dead
    · rw [Function.update_of_ne same]
      exact hand.others other same
  have none : client.conn.respToWrite - 1 = 0 := by
    rw [hand.owed]
    rfl
  unfold Conn.release
  dsimp only
  rcases hand.shows with shows | ⟨shut, closed, still⟩
  · have stays : ¬ (client.conn.isClosed = true ∧ client.conn.respToWrite - 1 = 0) :=
      fun both => nomatch shows.unclosed.symm.trans both.1
    rw [if_neg stays]
    exact .idle ⟨shows.opened, shows.kept, shows.unclosed⟩ rfl none hand.current done
  · rw [if_pos ⟨closed, none⟩]
    exact .gone shut still rfl fun other live => nomatch (done other).symm.trans live

/-- A page that reports an error answers a request that no worker uses. -/
theorem error (hand : client.Hand req) (live : (client.reqs req).live = true)
    (unused : (client.reqs req).usingWkr = false) (intact : (client.reqs req).connErr = false)
    (status : Status) :
    ∃ after, client.errResp page req status = some after ∧ after.Phase none ∧
      after.conn.currentRequest = none := by
  let answers : Piece := ⟨req, .error, page client.conn.pieces.length status⟩
  have quiet : Hand { client with conn := { client.conn with keepAlive := false } } req := {
    hand with
    shows := hand.shows.imp_left fun shows => ⟨shows.opened, shows.kept, shows.unclosed⟩ }
  have added := quiet.respBodyAdd answers
  have told := quiet.told answers
  dsimp only at added told
  generalize (if client.conn.isClosed = true then _ else _) = conn at *
  have finished := @finish _ req told
    { client.reqs req with queued := false, live := false } rfl
  refine ⟨_, ?_, finished, Conn.release_current.trans told.current⟩
  have unfreed : ¬ conn.freed = true := fun freed => nomatch told.kept.symm.trans freed
  have own : conn.req = some req := told.own
  unfold errResp
  rw [added]
  unfold dropRequest
  dsimp only
  rw [if_neg unfreed, own]
  dsimp only
  rw [if_pos live, unused, Bool.and_false, if_neg Bool.false_ne_true]
  exact setReq_reqFree _ live intact told.kept

/-- While a worker uses the request, the page that reports an error only marks it. -/
theorem strand (hand : client.Hand req) (shows : client.conn.Open)
    (stopped : client.conn.reading = false ∧ client.executing = false)
    (place : (client.reqs req).At false true) (status : Status) :
    ∃ after, client.errResp page req status = some after ∧ after.Phase none := by
  let quiet : Conn := { client.conn with keepAlive := false }
  let answers : Piece := ⟨req, .error, page client.conn.pieces.length status⟩
  obtain ⟨toWrite, writes, added⟩ := quiet.add_eq answers
  have body : quiet.respBodyAdd answers = some (quiet.add answers) :=
    @Conn.respBodyAdd_open quiet hand.kept shows.unclosed answers
  refine ⟨{ client with
    conn := { quiet.add answers with respToWrite := (quiet.add answers).respToWrite - 1 }
    reqs := Function.update client.reqs req { client.reqs req with connErr := true } }, ?_, ?_⟩
  · have kept : ¬ quiet.freed = true := fun freed => by cases hand.kept.symm.trans freed
    have own : quiet.req = some req := hand.own
    unfold errResp
    split
    · rename_i conn found
      obtain rfl : conn = quiet.add answers := Option.some.inj (found.symm.trans body)
      unfold dropRequest
      dsimp only
      rw [added]
      dsimp only
      rw [if_neg kept, own]
      dsimp only
      rw [if_pos place.live, place.wkr, place.usingWkr]
      rfl
    · rename_i found
      cases found.symm.trans body
  · rw [added]
    have one : quiet.respToWrite - 1 = 0 := by
      rw [show quiet.respToWrite = 1 from hand.owed]
      rfl
    refine .failed req ⟨shows.opened, hand.kept, shows.unclosed⟩ hand.own one hand.current stopped
      rfl (List.append_ne_nil_of_right_ne_nil _ (List.cons_ne_nil _ _)) ?_ ?_
    · dsimp only
      rw [Function.update_self]
      exact fun _ => ⟨place.queued, place.usingWkr, rfl⟩
    · intro other differs
      exact (congrArg Req.live (Function.update_of_ne differs _ _)).trans
        (hand.others other differs)

/-- The worker hands a portion of the response over; after the last one the request is done. -/
theorem deliver (hand : client.Hand req) (place : (client.reqs req).At false true) (ended : Prop)
    [Decidable ended] (bytes : List UInt8) :
    ∃ after, (match client.passOn req (if ended then .last else .part) bytes with
      | some client => if ended then client.reqFree req else some client
      | none => none) = some after ∧ after.Phase (if ended then none else some req) := by
  have unfailed : ¬ (client.reqs req).connErr = true := fun failed =>
    nomatch place.connErr.symm.trans failed
  let piece : Piece := ⟨req, if ended then .last else .part, bytes⟩
  have passed : client.passOn req (if ended then .last else .part) bytes = some { client with
      conn := if client.conn.isClosed then client.conn else client.conn.add piece } := by
    unfold passOn
    rw [if_neg unfailed, hand.respBodyAdd piece]
  have told := hand.told piece
  rw [passed]
  dsimp only
  generalize (if client.conn.isClosed = true then _ else _) = conn at *
  by_cases last : ended
  · rw [if_pos last, if_pos last, @reqFree_eq { client with conn := conn } req place.live
      place.connErr told.kept]
    exact ⟨_, rfl, @finish _ req told _ rfl⟩
  · rw [if_neg last, if_neg last]
    exact ⟨_, rfl, .busy req true told place⟩

end Hand

/-! ### The parser -/

/-- Once reading has stopped a response is owed, also to a request that was being parsed. -/
theorem Conn.Open.stopped (shows : client.conn.Open) (own : client.conn.req = some req)
    (owed : client.conn.respToWrite = 0 ∨ client.conn.respToWrite = 1)
    (others : ∀ other, other ≠ req → (client.reqs other).live = false) :
    Hand { client with conn := client.conn.stopRead } req where
  kept := shows.kept
  shows := .inl ⟨shows.opened, shows.kept, shows.unclosed⟩
  owed := by
    unfold Conn.stopRead
    dsimp only
    rcases owed with none | one
    · rw [if_pos none]
    · rw [one]
      rfl
  own := own
  current := rfl
  others := others

/-- A request that no worker uses is turned away. -/
theorem Conn.Open.reqInvalid (shows : client.conn.Open) (own : client.conn.req = some req)
    (owed : client.conn.respToWrite = 0 ∨ client.conn.respToWrite = 1) {queued : Bool}
    (place : (client.reqs req).At queued false)
    (others : ∀ other, other ≠ req → (client.reqs other).live = false) (status : Status) :
    ∃ after, client.reqInvalid page req status = some after ∧ after.Phase none ∧
      after.conn.currentRequest = none := by
  have unfreed : ¬ client.conn.freed = true := fun freed => nomatch shows.kept.symm.trans freed
  have hand := shows.stopped own owed others
  unfold Client.reqInvalid
  rw [if_neg unfreed]
  exact hand.error place.live place.usingWkr place.connErr status

namespace Conn

variable {conn : Conn}

theorem afterWriteCb_next {next : List UInt8} {more : List (List UInt8)}
    (rest : conn.resp.tail = next :: more) (unclosed : conn.isClosed = false) :
    conn.afterWriteCb serverKeepAlive =
      { conn with
        toWrite := some next, resp := next :: more, writes := conn.writes ++ [next] } := by
  unfold afterWriteCb
  cases conn
  cases unclosed
  dsimp only at rest ⊢
  rw [rest]
  rfl

theorem afterWriteCb_last (rest : conn.resp.tail = []) :
    conn.afterWriteCb serverKeepAlive =
      if conn.respToWrite ≤ 0 then
        if serverKeepAlive && conn.keepAlive then { conn with toWrite := none, resp := [] }
        else conn.scheduleClose
      else { conn with toWrite := none, resp := [] } := by
  unfold afterWriteCb
  dsimp only
  rw [rest]
  dsimp only
  by_cases owes : conn.respToWrite ≤ 0
  · rw [if_pos owes, if_pos owes, Sound.scheduleClose_freed owes]
    exact congrArg (ite _ _) (Sound.scheduleClose_freed owes)
  · rw [if_neg owes, if_neg owes]

end Conn

namespace Phase

variable {who : Option Nat}

theorem newReqCb (phase : client.Phase who) (executing : client.executing = true)
    (between : client.conn.parsing = none) : client.newReqCb.Phase who := by
  unfold Client.newReqCb
  cases phase with
  | idle shows unowned owed current done =>
      have none : ¬ 0 < client.conn.respToWrite := by
        rw [owed]
        exact Int.lt_irrefl 0
      rw [if_neg none]
      refine .parsing client.nextReq ⟨⟨shows.opened, shows.kept, shows.unclosed⟩, rfl, owed, rfl,
        rfl, ?_, ?_⟩
      · change (Function.update client.reqs client.nextReq Req.new client.nextReq).At false false
        rw [Function.update_self]
        exact ⟨rfl, rfl, rfl, rfl, rfl, rfl⟩
      · intro other differs
        exact (congrArg Req.live (Function.update_of_ne differs _ _)).trans (done other)
  | parsing req parses => exact nomatch between.symm.trans parses.text
  | busy req used hand place =>
      have some : 0 < client.conn.respToWrite := by
        rw [hand.owed]
        exact Int.one_pos
      rw [if_pos some]
      exact .busy req used { hand with
        shows := hand.shows.imp_left fun shows => ⟨shows.opened, shows.kept, shows.unclosed⟩ } place
  | failed req shows own owed current stopped => exact nomatch executing.symm.trans stopped.2
  | gone shut still => exact nomatch executing.symm.trans still

theorem parses (phase : client.Phase who) (executing : client.executing = true)
    (current : client.conn.currentRequest = some req) : who = none ∧ client.Parses req := by
  cases phase with
  | parsing known parses =>
      cases parses.current.symm.trans current
      exact ⟨rfl, parses⟩
  | idle shows unowned owed between => exact nomatch between.symm.trans current
  | busy known used hand => exact nomatch hand.current.symm.trans current
  | failed known shows own owed between => exact nomatch between.symm.trans current
  | gone shut still => exact nomatch executing.symm.trans still

theorem resolve (parses : client.Parses req) (app : Bool) :
    ∃ after, client.resolve req app = some after ∧ after.Phase none := by
  unfold Client.resolve
  rw [if_pos parses.place.live]
  refine ⟨_, rfl, .parsing req { parses with place := ?_, others := ?_ }⟩
  · have place := parses.place
    unfold setReq
    dsimp only
    rw [Function.update_self]
    exact ⟨place.created, place.live, place.queued, place.wkr, place.usingWkr, place.connErr⟩
  · intro other differs
    exact (congrArg Req.live (Function.update_of_ne differs _ _)).trans
      (parses.others other differs)

/-- The parser passes over a text that no request was made of. -/
theorem between (phase : client.Phase who) (current : client.conn.currentRequest = none) :
    Phase { client with conn := { client.conn with parsing := none } } who := by
  cases phase with
  | idle shows unowned owed current done =>
      exact .idle ⟨shows.opened, shows.kept, shows.unclosed⟩ unowned owed current done
  | parsing req parses => exact nomatch current.symm.trans parses.current
  | busy req used hand place =>
      exact .busy req used { hand with
        shows := hand.shows.imp_left fun shows => ⟨shows.opened, shows.kept, shows.unclosed⟩ } place
  | failed req shows own owed current stopped closes writes marked others =>
      exact .failed req ⟨shows.opened, shows.kept, shows.unclosed⟩ own owed current stopped closes
        writes marked others
  | gone shut still freed marked => exact .gone shut still freed marked

/-- The end of a request: it is owed unless there is no application or no room for it. -/
theorem endRequest (parses : client.Parses req) (keepAlive room taken : Bool) :
    ∃ after, client.endRequest page keepAlive room taken = some after ∧
      after.Phase (if (client.reqs req).app = true ∧ room = true then some req else none) := by
  have settled : ∀ after : Client, after.conn.currentRequest = none →
      { after with conn := { after.conn with currentRequest := none } } = after := by
    intro after current
    cases after with
    | mk conn reqs nextReq executing =>
        cases conn
        cases current
        rfl
  have one : client.conn.respToWrite + 1 = 1 := by
    rw [parses.owed]
    rfl
  have place := parses.place
  -- A request that is turned away has its page at once.
  have refused : ∀ status, ∃ after, Client.reqInvalid page { client with
      conn := { client.conn with
        parsing := none
        keepAlive := keepAlive
        respToWrite := client.conn.respToWrite + 1 } } req status = some after ∧
      after.Phase none ∧ after.conn.currentRequest = none := by
    intro status
    exact @Conn.Open.reqInvalid page { client with
      conn := { client.conn with
        parsing := none
        keepAlive := keepAlive
        respToWrite := client.conn.respToWrite + 1 } } req
      ⟨parses.shows.opened, parses.shows.kept, parses.shows.unclosed⟩ parses.own (.inr one)
      false place parses.others status
  have accepted : ∀ record : Req, record.At (!taken) taken → Phase { client with
      conn := { client.conn with
        parsing := none
        keepAlive := keepAlive
        respToWrite := client.conn.respToWrite + 1
        currentRequest := none }
      reqs := Function.update client.reqs req record } (some req) := by
    intro record next
    refine .busy req taken ⟨parses.shows.kept, ?_, one, parses.own, rfl, ?_⟩ ?_
    · exact .inl ⟨parses.shows.opened, parses.shows.kept, parses.shows.unclosed⟩
    · intro other differs
      exact (congrArg Req.live (Function.update_of_ne differs _ _)).trans
        (parses.others other differs)
    · dsimp only
      rw [Function.update_self]
      exact next
  unfold Client.endRequest
  dsimp only
  rw [parses.current]
  dsimp only
  unfold Client.reqCompleteCb
  dsimp only
  rw [if_pos place.live]
  by_cases app : (client.reqs req).app = true
  · rw [if_pos app]
    cases room with
    | true =>
        have both : (client.reqs req).app = true ∧ true = true := ⟨app, rfl⟩
        rw [if_pos rfl, if_pos both]
        cases taken with
        | true =>
            refine ⟨_, rfl, ?_⟩
            rw [if_pos rfl]
            unfold Client.take setReq
            dsimp only
            rw [Function.update_self, Function.update_idem]
            exact accepted { client.reqs req with queued := false, wkr := true, usingWkr := true }
              ⟨place.created, place.live, rfl, rfl, rfl, place.connErr⟩
        | false =>
            exact ⟨_, rfl, accepted { client.reqs req with queued := true }
              ⟨place.created, place.live, rfl, place.wkr, place.usingWkr, place.connErr⟩⟩
    | false =>
        obtain ⟨after, same, kept, idle⟩ := refused .status503
        have full : ¬ ((client.reqs req).app = true ∧ false = true) := fun both => nomatch both.2
        rw [if_neg Bool.false_ne_true, if_neg full]
        dsimp only at same
        rw [parses.current] at same
        rw [same]
        exact ⟨after, congrArg some (settled after idle), kept⟩
  · obtain ⟨after, same, kept, idle⟩ := refused .status404
    have unknown : ¬ ((client.reqs req).app = true ∧ room = true) := fun both => app both.1
    rw [if_neg app, if_neg unknown]
    dsimp only at same
    rw [parses.current] at same
    rw [same]
    exact ⟨after, congrArg some (settled after idle), kept⟩

/-- A page that is written on account of no request of the head. -/
theorem idle_invalid (shows : client.conn.Open) (unowned : client.conn.req = none)
    (owed : client.conn.respToWrite = 0) (done : ∀ req, (client.reqs req).live = false)
    (owner : Nat) (status : Status) :
    ∃ after, client.reqInvalid page owner status = some after ∧ after.Phase none := by
  let stopped : Conn := { client.conn.stopRead with keepAlive := false }
  let answers : Piece := ⟨owner, .error, page client.conn.pieces.length status⟩
  obtain ⟨toWrite, writes, added⟩ := stopped.add_eq answers
  have unfreed : ¬ client.conn.freed = true := fun freed => by cases shows.kept.symm.trans freed
  have body : stopped.respBodyAdd answers = some (stopped.add answers) :=
    @Conn.respBodyAdd_open stopped shows.kept shows.unclosed answers
  refine ⟨{ client with
    conn := { stopped.add answers with
      respToWrite := (stopped.add answers).respToWrite - 1 } }, ?_, ?_⟩
  · have free : ¬ stopped.freed = true := unfreed
    have own : stopped.req = none := unowned
    unfold Client.reqInvalid errResp
    rw [if_neg unfreed]
    split
    · rename_i conn found
      obtain rfl : conn = stopped.add answers := Option.some.inj (found.symm.trans body)
      unfold dropRequest
      dsimp only
      rw [added]
      dsimp only
      rw [if_neg free, own]
    · rename_i found
      cases found.symm.trans body
  · have one : stopped.respToWrite = 1 := if_pos owed
    rw [added]
    refine .idle ⟨shows.opened, shows.kept, shows.unclosed⟩ unowned ?_ rfl done
    dsimp only
    rw [one]
    rfl

/-- A text that cannot be parsed is answered by a page, on account of whichever request. -/
theorem parseErrCb (phase : client.Phase who) (executing : client.executing = true) :
    ∃ after, client.parseErrCb page = some after ∧ after.Phase none := by
  have owned : ∀ req, client.conn.req = some req → client.faulty = req := by
    intro req own
    unfold faulty
    rw [own]
  have shows := phase.opened_of_executing executing
  have unfreed : ¬ client.conn.freed = true := fun freed => nomatch shows.kept.symm.trans freed
  have calm : Conn.Open { client.conn with keepAlive := false } :=
    ⟨shows.opened, shows.kept, shows.unclosed⟩
  unfold Client.parseErrCb
  dsimp only
  generalize (if client.faulty = client.nextReq then _ else _) = nextReq
  cases phase with
  | idle _ unowned owed current done =>
      exact @idle_invalid page { client with
        executing := false, nextReq := nextReq
        conn := { client.conn with keepAlive := false } } calm unowned owed done _ _
  | parsing req parses =>
      rw [owned req parses.own]
      obtain ⟨after, same, kept, -⟩ := @Conn.Open.reqInvalid page { client with
        executing := false, nextReq := nextReq
        conn := { client.conn with keepAlive := false } } req calm parses.own
        (.inl parses.owed) false parses.place parses.others .status400
      exact ⟨after, same, kept⟩
  | busy req used hand place =>
      rw [owned req hand.own]
      cases used with
      | false =>
          obtain ⟨after, same, kept, -⟩ := @Conn.Open.reqInvalid page { client with
            executing := false, nextReq := nextReq
            conn := { client.conn with keepAlive := false } } req calm hand.own
            (.inr hand.owed) true place hand.others .status400
          exact ⟨after, same, kept⟩
      | true =>
          have stopped := @Conn.Open.stopped { client with
            executing := false, nextReq := nextReq
            conn := { client.conn with keepAlive := false } } req calm hand.own
            (.inr hand.owed) hand.others
          unfold Client.reqInvalid
          dsimp only
          rw [if_neg unfreed]
          exact stopped.strand ⟨shows.opened, shows.kept, shows.unclosed⟩ ⟨rfl, rfl⟩ place
            .status400
  | failed req _ own owed current stopped => exact nomatch executing.symm.trans stopped.2
  | gone shut still => exact nomatch executing.symm.trans still

/-! ### libebb -/

theorem readable (phase : client.Phase who) (opened : client.conn.opened = true)
    (reading : client.conn.reading = true) : Phase { client with executing := true } who := by
  cases phase with
  | idle shows unowned owed current done => exact .idle shows unowned owed current done
  | parsing req parses => exact .parsing req { parses with }
  | busy req used hand place =>
      refine .busy req used { hand with shows := .inl ?_ } place
      rcases hand.shows with shows | ⟨shut, -⟩
      · exact shows
      · exact nomatch opened.symm.trans shut
  | failed req shows own owed current stopped => exact nomatch reading.symm.trans stopped.1
  | gone shut => exact nomatch opened.symm.trans shut

theorem consumed (phase : client.Phase who) : Phase { client with executing := false } who := by
  cases phase with
  | idle shows unowned owed current done => exact .idle shows unowned owed current done
  | parsing req parses => exact .parsing req { parses with }
  | busy req used hand place =>
      refine .busy req used { hand with shows := ?_ } place
      exact hand.shows.imp_right fun shut => ⟨shut.1, shut.2.1, rfl⟩
  | failed req shows own owed current stopped closes writes marked others =>
      exact .failed req shows own owed current ⟨stopped.1, rfl⟩ closes writes marked others
  | gone shut still freed marked => exact .gone shut rfl freed marked

/-- libebb closes the connection; one that owes a response is kept until it is done. -/
theorem close (phase : client.Phase who) (opened : client.conn.opened = true)
    (still : client.executing = false) (between : client.conn.currentRequest = none) :
    Phase { client with conn := client.conn.scheduleClose } who := by
  cases phase with
  | idle shows unowned owed current done =>
      rw [Sound.scheduleClose_freed (Int.le_of_eq owed)]
      exact .gone rfl still rfl fun req live => nomatch (done req).symm.trans live
  | parsing req parses => exact nomatch between.symm.trans parses.current
  | busy req used hand place =>
      have owes : ¬ client.conn.respToWrite ≤ 0 := by
        rw [hand.owed]
        decide
      unfold Conn.scheduleClose Conn.closeCb
      rw [if_neg owes]
      exact .busy req used ⟨hand.kept, .inr ⟨rfl, rfl, still⟩, hand.owed, hand.own, hand.current,
        hand.others⟩ place
  | failed req shows own owed current stopped closes writes marked others =>
      rw [Sound.scheduleClose_freed (Int.le_of_eq owed)]
      refine .gone rfl still rfl fun other => ?_
      by_cases same : other = req
      · subst same
        exact marked
      · exact fun live => nomatch (others other same).symm.trans live
  | gone shut => exact nomatch opened.symm.trans shut

/-- libebb has written a buffer, and the connection waits for what comes or has more to write. -/
theorem unwritten (phase : client.Phase who) (opened : client.conn.opened = true)
    (toWrite : Option (List UInt8)) (resp writes : List (List UInt8))
    (more : client.conn.keepAlive = false → client.conn.respToWrite ≤ 0 → resp ≠ []) :
    Phase { client with conn := { client.conn with
      toWrite := toWrite, resp := resp, writes := writes } } who := by
  cases phase with
  | idle shows unowned owed current done =>
      exact .idle ⟨shows.opened, shows.kept, shows.unclosed⟩ unowned owed current done
  | parsing req parses =>
      exact .parsing req { parses with
        shows := ⟨parses.shows.opened, parses.shows.kept, parses.shows.unclosed⟩ }
  | busy req used hand place =>
      exact .busy req used { hand with
        shows := hand.shows.imp_left fun shows => ⟨shows.opened, shows.kept, shows.unclosed⟩ } place
  | failed req shows own owed current stopped closes _ marked others =>
      exact .failed req ⟨shows.opened, shows.kept, shows.unclosed⟩ own owed current stopped closes
        (more closes (Int.le_of_eq owed)) marked others
  | gone shut => exact nomatch opened.symm.trans shut

theorem opened_unclosed (phase : client.Phase who) (opened : client.conn.opened = true) :
    client.conn.Open := by
  cases phase with
  | idle shows => exact shows
  | parsing req parses => exact parses.shows
  | busy req used hand =>
      rcases hand.shows with shows | ⟨shut, -⟩
      · exact shows
      · exact nomatch opened.symm.trans shut
  | failed req shows => exact shows
  | gone shut => exact nomatch opened.symm.trans shut

theorem written (phase : client.Phase who) (opened : client.conn.opened = true)
    (still : client.executing = false)
    (between : client.conn.resp.tail = [] → client.conn.respToWrite ≤ 0 →
      (serverKeepAlive && client.conn.keepAlive) = false → client.conn.currentRequest = none) :
    Phase { client with conn := client.conn.afterWriteCb serverKeepAlive } who := by
  have shows := phase.opened_unclosed opened
  rcases rest : client.conn.resp.tail with _ | ⟨next, more⟩
  · rw [Conn.afterWriteCb_last rest]
    by_cases owes : client.conn.respToWrite ≤ 0
    · rw [if_pos owes]
      cases keeps : serverKeepAlive && client.conn.keepAlive with
      | true =>
          refine phase.unwritten opened _ _ _ fun closes => ?_
          rw [closes, Bool.and_false] at keeps
          exact nomatch keeps
      | false => exact phase.close opened still (between rest owes keeps)
    · rw [if_neg owes]
      exact phase.unwritten opened _ _ _ fun _ owed => absurd owed owes
  · rw [Conn.afterWriteCb_next rest shows.unclosed]
    exact phase.unwritten opened _ _ _ fun _ _ => List.cons_ne_nil _ _

/-- A connection on which nothing happens for long is closed, with the request that is being
parsed. -/
theorem timeoutCb (phase : client.Phase who) (opened : client.conn.opened = true)
    (still : client.executing = false) :
    ∃ after, client.timeoutCb = some after ∧ after.Phase who := by
  unfold Client.timeoutCb
  by_cases waits : 0 < client.conn.respToWrite ∨ client.conn.resp ≠ []
  · rw [if_pos waits]
    exact ⟨client, rfl, phase⟩
  · rw [if_neg waits]
    cases phase with
    | idle shows unowned owed current done =>
        rw [unowned]
        exact ⟨_, rfl, (Phase.idle shows unowned owed current done).close opened still current⟩
    | parsing req parses =>
        have uncounted : ¬ (client.conn.isClosed = true ∧ client.conn.respToWrite - 1 = 0) :=
          fun both => nomatch parses.shows.unclosed.symm.trans both.1
        have released : client.conn.release =
            { client.conn with respToWrite := client.conn.respToWrite - 1, req := none } := by
          unfold Conn.release
          dsimp only
          rw [if_neg uncounted]
        have less : client.conn.respToWrite - 1 ≤ 0 := by
          rw [parses.owed]
          decide
        have closed : Conn.scheduleClose
            { client.conn with respToWrite := client.conn.respToWrite - 1, req := none } =
            { client.conn with
              respToWrite := client.conn.respToWrite - 1, req := none, opened := false,
              reading := false, toWrite := none, freed := true, resp := [] } :=
          Sound.scheduleClose_freed less
        rw [parses.own]
        dsimp only
        rw [reqFree_eq parses.place.live parses.place.connErr parses.shows.kept]
        dsimp only
        rw [released, closed]
        refine ⟨_, rfl, .gone rfl still rfl fun other => ?_⟩
        dsimp only
        by_cases same : other = req
        · subst same
          rw [Function.update_self]
          exact nofun
        · rw [Function.update_of_ne same]
          exact fun live => nomatch (parses.others other same).symm.trans live
    | busy req used hand place =>
        refine absurd (.inl ?_) waits
        rw [hand.owed]
        exact Int.one_pos
    | failed req shows own owed current stopped closes writes => exact absurd (.inr writes) waits
    | gone shut => exact nomatch opened.symm.trans shut

/-! ### Workers -/

/-- A request that waits is the one that is owed. -/
theorem waiting (phase : client.Phase who) (waits : client.Waits req) :
    who = some req ∧ client.Hand req ∧ (client.reqs req).At true false := by
  obtain ⟨live, queued⟩ := waits
  cases phase with
  | idle shows unowned owed current done => exact nomatch (done req).symm.trans live
  | parsing known parses =>
      by_cases same : req = known
      · subst same
        exact nomatch parses.place.queued.symm.trans queued
      · exact nomatch (parses.others req same).symm.trans live
  | busy known used hand place =>
      by_cases same : req = known
      · subst same
        cases used with
        | false => exact ⟨rfl, hand, place⟩
        | true => exact nomatch place.queued.symm.trans queued
      · exact nomatch (hand.others req same).symm.trans live
  | failed known shows own owed current stopped closes writes marked others =>
      by_cases same : req = known
      · subst same
        exact nomatch (marked live).1.symm.trans queued
      · exact nomatch (others req same).symm.trans live
  | gone shut still freed marked => exact nomatch (marked req live).1.symm.trans queued

/-- So is one that a worker uses, unless its connection has failed. -/
theorem working (phase : client.Phase who) (held : client.Held req)
    (intact : (client.reqs req).connErr = false) :
    who = some req ∧ client.Hand req ∧ (client.reqs req).At false true := by
  obtain ⟨live, used⟩ := held
  cases phase with
  | idle shows unowned owed current done => exact nomatch (done req).symm.trans live
  | parsing known parses =>
      by_cases same : req = known
      · subst same
        exact nomatch parses.place.usingWkr.symm.trans used
      · exact nomatch (parses.others req same).symm.trans live
  | busy known taken hand place =>
      by_cases same : req = known
      · subst same
        cases taken with
        | true => exact ⟨rfl, hand, place⟩
        | false => exact nomatch place.usingWkr.symm.trans used
      · exact nomatch (hand.others req same).symm.trans live
  | failed known shows own owed current stopped closes writes marked others =>
      by_cases same : req = known
      · subst same
        exact nomatch intact.symm.trans (marked live).2.2
      · exact nomatch (others req same).symm.trans live
  | gone shut still freed marked => exact nomatch intact.symm.trans (marked req live).2.2

/-- When the connection of a request has failed nothing is owed, and what becomes of the request is
nothing to the connection. -/
theorem mark (phase : client.Phase who) (live : (client.reqs req).live = true)
    (failed : (client.reqs req).connErr = true) {record : Req} (marked : record.Marked) :
    who = none ∧ (client.setReq req record).Phase none := by
  cases phase with
  | idle shows unowned owed current done => exact nomatch (done req).symm.trans live
  | parsing known parses =>
      by_cases same : req = known
      · subst same
        exact nomatch parses.place.connErr.symm.trans failed
      · exact nomatch (parses.others req same).symm.trans live
  | busy known used hand place =>
      by_cases same : req = known
      · subst same
        exact nomatch place.connErr.symm.trans failed
      · exact nomatch (hand.others req same).symm.trans live
  | failed known shows own owed current stopped closes writes _ others =>
      by_cases same : req = known
      · subst same
        refine ⟨rfl, .failed req shows own owed current stopped closes writes ?_ ?_⟩
        · unfold setReq
          dsimp only
          rw [Function.update_self]
          exact marked
        · intro other differs
          exact (congrArg Req.live (Function.update_of_ne differs _ _)).trans
            (others other differs)
      · exact nomatch (others req same).symm.trans live
  | gone shut still freed rest =>
      refine ⟨rfl, .gone shut still freed fun other => ?_⟩
      unfold setReq
      dsimp only
      by_cases same : other = req
      · subst same
        rw [Function.update_self]
        exact marked
      · rw [Function.update_of_ne same]
        exact rest other

theorem setReq_reqFree_failed {record : Req} (live : record.live = true)
    (failed : record.connErr = true) :
    (client.setReq req record).reqFree req =
      some (client.setReq req { record with live := false }) := by
  have known : (client.setReq req record).reqs req = record := Function.update_self _ _ _
  rw [reqFree_failed ((congrArg Req.connErr known).trans failed)
    ((congrArg Req.live known).trans live)]
  unfold forget
  rw [known]
  unfold setReq
  dsimp only
  rw [Function.update_idem]

/-- A worker dies with such a request while the page is still being written. -/
theorem bury (phase : client.Phase who) (held : client.Held req)
    (failed : (client.reqs req).connErr = true) (kept : client.conn.freed = false) :
    ∃ after, client.wkrFree page req = some after ∧ after.Phase none := by
  obtain ⟨live, -⟩ := held
  cases phase with
  | idle shows unowned owed current done => cases (done req).symm.trans live
  | parsing known parses =>
      by_cases same : req = known
      · subst same
        cases parses.place.connErr.symm.trans failed
      · cases (parses.others req same).symm.trans live
  | busy known used hand place =>
      by_cases same : req = known
      · subst same
        cases place.connErr.symm.trans failed
      · cases (hand.others req same).symm.trans live
  | failed known shows own owed current stopped closes writes marked others =>
      by_cases same : req = known
      · subst same
        let quiet : Conn := { client.conn with keepAlive := false }
        let answers : Piece := ⟨req, .error, page client.conn.pieces.length .status500⟩
        obtain ⟨toWrite, taken, added⟩ := quiet.add_eq answers
        have body : quiet.respBodyAdd answers = some (quiet.add answers) :=
          @Conn.respBodyAdd_open quiet shows.kept shows.unclosed answers
        have again : Phase { client with conn := quiet.add answers } none := by
          rw [added]
          exact .failed req ⟨shows.opened, shows.kept, shows.unclosed⟩ own owed current stopped rfl
            (List.append_ne_nil_of_right_ne_nil _ (List.cons_ne_nil _ _)) marked others
        have done : Req.Marked
            { client.reqs req with usingWkr := false, queued := false, live := false } := by rintro ⟨⟩
        refine ⟨_, ?_, (again.mark live failed done).2⟩
        have unfreed : ¬ (quiet.add answers).freed = true := by
          rw [added]
          exact fun freed => by cases shows.kept.symm.trans freed
        have owns : (quiet.add answers).req = some req := by
          rw [added]
          exact own
        have known : (client.setReq req { client.reqs req with usingWkr := false }).reqs req =
            { client.reqs req with usingWkr := false } := Function.update_self _ _ _
        have lives := (congrArg Req.live known).trans live
        have unused := congrArg Req.usingWkr known
        unfold wkrFree errResp
        split
        · rename_i conn found
          obtain rfl : conn = quiet.add answers := Option.some.inj (found.symm.trans body)
          unfold dropRequest
          dsimp only
          rw [if_neg unfreed, owns]
          dsimp only
          rw [if_pos lives, unused, Bool.and_false, if_neg Bool.false_ne_true]
          rw [setReq_reqFree_failed]
          · unfold setReq
            dsimp only
            rw [Function.update_self, Function.update_idem]
          · exact lives
          · exact (congrArg Req.connErr known).trans failed
        · rename_i found
          cases found.symm.trans body
      · cases (others req same).symm.trans live
  | gone shut still freed => cases kept.symm.trans freed

theorem wkrFree (phase : client.Phase who) (held : client.Held req)
    (kept : (client.reqs req).connErr = true → client.conn.freed = false) :
    ∃ after, client.wkrFree page req = some after ∧ after.Phase none := by
  by_cases failed : (client.reqs req).connErr = true
  · exact phase.bury held failed (kept failed)
  · obtain ⟨-, hand, place⟩ := phase.working held (Bool.eq_false_iff.mpr failed)
    have known : (client.setReq req { client.reqs req with usingWkr := false }).reqs req =
        { client.reqs req with usingWkr := false } := Function.update_self _ _ _
    obtain ⟨after, same, done, -⟩ :=
      @Hand.error page _ req (hand.setReq { client.reqs req with usingWkr := false })
        ((congrArg Req.live known).trans place.live) (congrArg Req.usingWkr known)
        ((congrArg Req.connErr known).trans place.connErr) .status500
    exact ⟨after, same, done⟩

theorem appFree (phase : client.Phase who) (waits : client.Waits req) :
    ∃ after, client.appFree page req = some after ∧ after.Phase none := by
  obtain ⟨-, hand, place⟩ := phase.waiting waits
  have known : (client.setReq req { client.reqs req with queued := false }).reqs req =
      { client.reqs req with queued := false } := Function.update_self _ _ _
  obtain ⟨after, same, done, -⟩ :=
    @Hand.error page _ req (hand.setReq { client.reqs req with queued := false })
      ((congrArg Req.live known).trans place.live)
      ((congrArg Req.usingWkr known).trans place.usingWkr)
      ((congrArg Req.connErr known).trans place.connErr) .status500
  exact ⟨after, same, done⟩

theorem take (phase : client.Phase who) (waits : client.Waits req) :
    (client.take req).Phase who := by
  obtain ⟨rfl, hand, place⟩ := phase.waiting waits
  refine .busy req true (hand.setReq _) ?_
  unfold Client.take Client.setReq
  dsimp only
  rw [Function.update_self]
  exact ⟨place.created, place.live, rfl, rfl, rfl, place.connErr⟩

/-- The worker of a request whose connection has failed goes on with it or is done. -/
theorem carryOn (phase : client.Phase who) (held : client.Held req)
    (failed : (client.reqs req).connErr = true) {record : Req}
    (unqueued : record.queued = (client.reqs req).queued)
    (used : record.usingWkr = (client.reqs req).usingWkr) (fails : record.connErr = true)
    (done : Prop) [Decidable done] :
    Phase (if done then (client.setReq req record).forget req else client.setReq req record)
      (if done then none else who) := by
  have place : (client.reqs req).queued = false := by
    by_contra queued
    obtain ⟨-, -, place⟩ := phase.waiting ⟨held.1, Bool.of_not_eq_false queued⟩
    exact nomatch place.connErr.symm.trans failed
  have marked : record.Marked := fun _ => ⟨unqueued.trans place, used.trans held.2, fails⟩
  have gone : Req.Marked { record with live := false } := nofun
  obtain ⟨rfl, carried⟩ := phase.mark held.1 failed marked
  rw [ite_self]
  split
  · unfold forget
    have known : (client.setReq req record).reqs req = record := Function.update_self _ _ _
    rw [known]
    have dropped := (phase.mark held.1 failed gone).2
    unfold setReq at dropped ⊢
    dsimp only
    rw [Function.update_idem]
    exact dropped
  · exact carried

/-- The length of the response comes, with the beginning of it or without. -/
theorem setRespLen (phase : client.Phase who) (held : client.Held req) {announced : Nat}
    (announces : announced ≠ 0) (body : List UInt8) :
    ∃ after, client.setRespLen page req announced body = some after ∧
      after.Phase (if announced = body.length then none else who) := by
  let record : Req := { client.reqs req with
    respBufLen := announced, bytesReceived := body.length }
  have known : (client.setReq req record).reqs req = record := Function.update_self _ _ _
  by_cases failed : (client.reqs req).connErr = true
  · rw [setRespLen_failed failed held.1 announces]
    exact ⟨_, rfl, @carryOn _ req who phase held failed record rfl rfl failed _ _⟩
  · obtain ⟨rfl, hand, place⟩ := phase.working held (Bool.eq_false_iff.mpr failed)
    have placed : ((client.setReq req record).reqs req).At false true := by
      rw [known]
      exact ⟨place.created, place.live, place.queued, place.wkr, place.usingWkr, place.connErr⟩
    have hands := hand.setReq record
    unfold Client.setRespLen
    rw [if_neg announces]
    dsimp only
    by_cases empty : body = []
    · have more : ¬ announced = body.length := by
        rw [empty]
        exact announces
      rw [if_pos empty]
      dsimp only
      rw [if_neg more, if_neg more]
      exact ⟨_, rfl, .busy req true hands placed⟩
    · rw [if_neg empty]
      exact hands.deliver placed _ body

/-- A portion of the response comes. -/
theorem respReadCb (phase : client.Phase who) (held : client.Held req) {read : List UInt8}
    (reads : read ≠ []) :
    ∃ after, client.respReadCb page req read = some after ∧
      after.Phase (if (client.reqs req).respBufLen ≤ (client.reqs req).bytesReceived + read.length
        then none else who) := by
  let record : Req := { client.reqs req with
    bytesReceived := (client.reqs req).bytesReceived + read.length }
  have known : (client.setReq req record).reqs req = record := Function.update_self _ _ _
  by_cases failed : (client.reqs req).connErr = true
  · rw [respReadCb_failed failed held.1 reads]
    exact ⟨_, rfl, @carryOn _ req who phase held failed record rfl rfl failed _ _⟩
  · obtain ⟨rfl, hand, place⟩ := phase.working held (Bool.eq_false_iff.mpr failed)
    have placed : ((client.setReq req record).reqs req).At false true := by
      rw [known]
      exact ⟨place.created, place.live, place.queued, place.wkr, place.usingWkr, place.connErr⟩
    unfold Client.respReadCb
    rw [if_neg reads]
    exact (hand.setReq record).deliver placed _ read

/-- The request that waits or is used is the only one that can be owed. -/
theorem sole (phase : client.Phase who) (at_ : client.Held req ∨ client.Waits req) {other : Nat}
    (owed : who = some other) : other = req := by
  rcases at_ with held | waits
  · by_cases failed : (client.reqs req).connErr = true
    · have gone : Req.Marked { client.reqs req with live := false } := nofun
      exact nomatch owed.symm.trans (phase.mark held.1 failed gone).1
    · exact Option.some.inj
        (owed.symm.trans (phase.working held (Bool.eq_false_iff.mpr failed)).1)
  · exact Option.some.inj (owed.symm.trans (phase.waiting waits).1)

end Phase

end Client
