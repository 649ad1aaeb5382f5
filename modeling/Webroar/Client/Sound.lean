import Mathlib
import Webroar.Client.Stream

/-! # Whole responses

A connection has one request at a time: it is parsed, it waits, a worker uses it, and when it is
done the connection is idle again. As long as no error strikes a response of which a part was
handed over, the client receives one whole response after the other.
-/

namespace Client

variable {serverKeepAlive : Bool} {page : Nat → Status → List UInt8} {client after : Client}
  {req : Nat}

/-! ### Where the request of a connection is -/

/-- The request is alive, and waits or is used by a worker or neither. -/
structure Req.At (record : Req) (queued used : Bool) : Prop where
  created : record.created = true
  live : record.live = true
  queued : record.queued = queued
  wkr : record.wkr = used
  usingWkr : record.usingWkr = used
  connErr : record.connErr = false

/-- What a connection is doing: nothing, parsing a request, working on one that waits or that a
worker uses, writing the page for one that failed while the worker goes on, or it is no more. -/
inductive Stage (client : Client) : Prop
  | idle (opened : client.conn.opened = true) (unowned : client.conn.req = none)
      (owed : client.conn.respToWrite = 0) (current : client.conn.currentRequest = none)
      (ended : Ended client.conn.pieces) (done : ∀ req, (client.reqs req).live = false)
  | parsing (req : Nat) (opened : client.conn.opened = true) (own : client.conn.req = some req)
      (owed : client.conn.respToWrite = 0) (current : client.conn.currentRequest = some req)
      (text : client.conn.parsing = some req) (place : (client.reqs req).At false false)
      (ready : Ready client.conn.pieces req)
      (others : ∀ other, other ≠ req → (client.reqs other).live = false)
  | busy (req : Nat) (used : Bool) (kept : client.conn.freed = false)
      (own : client.conn.req = some req) (owed : client.conn.respToWrite = 1)
      (current : client.conn.currentRequest = none) (number : req < client.nextReq)
      (place : (client.reqs req).At (!used) used)
      (told : Ready client.conn.pieces req ∨ used = true ∧ Telling client.conn.pieces req)
      (others : ∀ other, other ≠ req → (client.reqs other).live = false)
  | failed (req : Nat) (opened : client.conn.opened = true) (own : client.conn.req = some req)
      (owed : client.conn.respToWrite = 0) (current : client.conn.currentRequest = none)
      (stopped : client.conn.reading = false ∧ client.executing = false)
      (closes : client.conn.keepAlive = false) (writes : client.conn.resp ≠ [])
      (failed : (client.reqs req).connErr = true ∧ (client.reqs req).queued = false ∧
        (client.reqs req).created = true)
      (others : ∀ other, other ≠ req → (client.reqs other).live = false)
  | gone (shut : client.conn.opened = false) (freed : client.conn.freed = true)
      (left : ∀ req, (client.reqs req).live = true → (client.reqs req).queued = false ∧
        ((client.reqs req).usingWkr = true → (client.reqs req).connErr = true))

/-- What holds of a connection as long as no error strikes a response that has begun. -/
structure Sound (client : Client) : Prop where
  intact : client.conn.Intact
  sane : client.conn.opened = true → client.conn.freed = false ∧ client.conn.isClosed = false
  shut : client.conn.opened = false →
    client.executing = false ∧ (client.conn.freed = true ∨ client.conn.isClosed = true)
  below : ∀ piece ∈ client.conn.pieces, piece.owner < client.nextReq
  newest : ∀ number, client.conn.parsing = some number → number + 1 = client.nextReq
  answered : client.conn.opened = true → ∀ req, (client.reqs req).created = true →
    (client.reqs req).live = false ∨ (client.reqs req).connErr = true →
      Told client.conn.pieces req
  stage : client.Stage

theorem Sound.integrity (sound : client.Sound) : client.Integrity :=
  ⟨sound.intact, fun opened req created dead => sound.answered opened req created (.inl dead)⟩

/-- The connection has a request at hand to which it owes a response. -/
structure AtHand (client : Client) (req : Nat) : Prop where
  intact : client.conn.Intact
  kept : client.conn.freed = false
  sane : client.conn.opened = true → client.conn.isClosed = false
  shut : client.conn.opened = false → client.executing = false ∧ client.conn.isClosed = true
  owed : client.conn.respToWrite = 1
  own : client.conn.req = some req
  current : client.conn.currentRequest = none
  below : ∀ piece ∈ client.conn.pieces, piece.owner < client.nextReq
  newest : ∀ number, client.conn.parsing = some number → number + 1 = client.nextReq
  number : req < client.nextReq
  others : ∀ other, other ≠ req → (client.reqs other).live = false
  answered : client.conn.opened = true → ∀ other, other ≠ req →
    (client.reqs other).created = true → Told client.conn.pieces other

theorem told_add {pieces : List Piece} (told : Told pieces req) (piece : Piece) :
    Told (pieces ++ [piece]) req := by
  obtain ⟨known, member, rest⟩ := told
  exact ⟨known, List.mem_append_left _ member, rest⟩

theorem told_self {pieces : List Piece} {piece : Piece} (owner : piece.owner = req)
    (kind : piece.kind ≠ .part) : Told (pieces ++ [piece]) req :=
  ⟨piece, List.mem_append_right _ List.mem_cons_self, owner, kind⟩

/-- A request that was not marked is freed, and its connection is released. -/
theorem setReq_reqFree (record : Req) (live : record.live = true) (intact : record.connErr = false)
    (kept : client.conn.freed = false) :
    (client.setReq req record).reqFree req = some { client with
      conn := client.conn.release
      reqs := Function.update client.reqs req { record with live := false } } := by
  have known : (client.setReq req record).reqs req = record := Function.update_self _ _ _
  have still : (client.setReq req record).conn.freed = false := kept
  have unmarked : ¬ record.connErr = true := fun marked => nomatch intact.symm.trans marked
  unfold reqFree forget
  rw [known, if_pos live, if_neg unmarked, still, if_neg Bool.false_ne_true]
  unfold setReq
  dsimp only
  rw [Function.update_idem]

theorem reqFree_eq (live : (client.reqs req).live = true)
    (intact : (client.reqs req).connErr = false) (kept : client.conn.freed = false) :
    client.reqFree req = some { client with
      conn := client.conn.release
      reqs := Function.update client.reqs req { client.reqs req with live := false } } := by
  have same : client.setReq req (client.reqs req) = client := by
    unfold setReq
    rw [Function.update_eq_self]
  have freed := @setReq_reqFree client req (client.reqs req) live intact kept
  rwa [same] at freed

namespace AtHand

/-- The last buffer of the response: the request is freed, and the connection is idle or, if the
client closed it, freed too. -/
theorem answer (hand : client.AtHand req) (piece : Piece) (owner : piece.owner = req)
    (kind : piece.kind ≠ .part)
    (follows : client.conn.opened = true → ∀ last ∈ client.conn.pieces.getLast?,
      Follows last piece)
    (record : Req) (dead : record.live = false) :
    Sound { client with
      conn := (if client.conn.isClosed then client.conn else client.conn.add piece).release
      reqs := Function.update client.reqs req record } := by
  have done : ∀ other, (Function.update client.reqs req record other).live = false := by
    intro other
    by_cases same : other = req
    · subst same
      rw [Function.update_self]
      exact dead
    · rw [Function.update_of_ne same]
      exact hand.others other same
  cases opened : client.conn.opened with
  | true =>
      have closed := hand.sane opened
      obtain ⟨toWrite, writes, added⟩ := client.conn.add_eq piece
      have intact := hand.intact.add opened (follows opened)
      have released : (client.conn.add piece).release =
          { client.conn.add piece with respToWrite := 0, req := none } := by
        unfold Conn.release
        rw [added, hand.owed]
        dsimp only
        rw [if_neg (by rw [closed]; exact fun both => nomatch both.1)]
        rfl
      rw [closed, if_neg Bool.false_ne_true, released]
      rw [added] at intact ⊢
      refine ⟨intact.congr rfl rfl fun shows => ⟨shows, rfl, rfl⟩, fun _ => ⟨hand.kept, closed⟩,
        fun wrong => (nomatch opened.symm.trans wrong), ?_, hand.newest, ?_, ?_⟩
      · intro other member
        rcases List.mem_append.mp member with earlier | same
        · exact hand.below other earlier
        · rw [List.mem_singleton.mp same, owner]
          exact hand.number
      · intro _ other created _
        by_cases same : other = req
        · subst same
          exact told_self owner kind
        · refine told_add (hand.answered opened other same ?_) piece
          dsimp only at created
          rwa [Function.update_of_ne same] at created
      · refine .idle opened rfl rfl hand.current ?_ done
        intro last found
        dsimp only at found
        rw [getLast?_add] at found
        cases found
        exact kind
  | false =>
      obtain ⟨still, closed⟩ := hand.shut opened
      have released : client.conn.release =
          { client.conn with respToWrite := 0, req := none, freed := true, resp := [] } := by
        unfold Conn.release
        rw [hand.owed]
        dsimp only
        rw [if_pos ⟨closed, rfl⟩]
        rfl
      rw [closed, if_pos rfl, released]
      refine ⟨hand.intact.congr rfl rfl fun wrong => (nomatch opened.symm.trans wrong),
        fun wrong => (nomatch opened.symm.trans wrong), fun _ => ⟨still, .inl rfl⟩, hand.below,
        hand.newest, fun wrong => (nomatch opened.symm.trans wrong), .gone opened rfl ?_⟩
      intro other live
      exact nomatch (done other).symm.trans live

theorem respBodyAdd (hand : client.AtHand req) (piece : Piece) :
    client.conn.respBodyAdd piece =
      some (if client.conn.isClosed then client.conn else client.conn.add piece) := by
  unfold Conn.respBodyAdd
  rw [if_neg (by rw [hand.kept]; exact Bool.false_ne_true), hand.owed]
  split <;> rfl

theorem frame (hand : client.AtHand req) (piece : Piece) :
    (if client.conn.isClosed then client.conn else client.conn.add piece).freed = false ∧
      (if client.conn.isClosed then client.conn else client.conn.add piece).req = some req ∧
      (if client.conn.isClosed then client.conn else client.conn.add piece).currentRequest =
        none := by
  obtain ⟨toWrite, writes, added⟩ := client.conn.add_eq piece
  split
  · exact ⟨hand.kept, hand.own, hand.current⟩
  · rw [added]
    exact ⟨hand.kept, hand.own, hand.current⟩

/-- A page that reports an error answers a request that no worker uses. -/
theorem error (hand : client.AtHand req) (live : (client.reqs req).live = true)
    (unused : (client.reqs req).usingWkr = false) (intact : (client.reqs req).connErr = false)
    (ready : client.conn.opened = true → Ready client.conn.pieces req) (status : Status) :
    ∃ after, client.errResp page req status = some after ∧ after.Sound ∧
      after.conn.currentRequest = none := by
  have quiet : AtHand { client with conn := { client.conn with keepAlive := false } } req := {
    hand with
    intact := hand.intact.congr rfl rfl fun opened => ⟨opened, rfl, rfl⟩ }
  let answers : Piece := ⟨req, .error, page client.conn.pieces.length status⟩
  have sound := quiet.answer answers rfl nofun (fun opened => (ready opened).follows rfl)
    { client.reqs req with queued := false, live := false } rfl
  have frame := quiet.frame answers
  have added := quiet.respBodyAdd answers
  dsimp only at frame added sound
  generalize (if client.conn.isClosed = true then _ else _) = told at *
  obtain ⟨kept, own, current⟩ := frame
  refine ⟨_, ?_, sound, Conn.release_current.trans current⟩
  unfold errResp
  rw [added]
  unfold dropRequest
  dsimp only
  rw [kept, if_neg Bool.false_ne_true, own]
  dsimp only
  rw [if_pos live, unused, Bool.and_false, if_neg Bool.false_ne_true]
  exact setReq_reqFree _ live intact kept

/-- While a worker uses the request, the page that reports an error only marks it. -/
theorem strand (hand : client.AtHand req) (opened : client.conn.opened = true)
    (stopped : client.conn.reading = false ∧ client.executing = false)
    (place : (client.reqs req).At false true) (ready : Ready client.conn.pieces req)
    (status : Status) :
    ∃ after, client.errResp page req status = some after ∧ after.Sound := by
  let quiet : Conn := { client.conn with keepAlive := false }
  let answers : Piece := ⟨req, .error, page client.conn.pieces.length status⟩
  obtain ⟨toWrite, writes, added⟩ := quiet.add_eq answers
  have intact : (quiet.add answers).Intact := by
    have same : quiet.Intact := hand.intact.congr rfl rfl fun shows => ⟨shows, rfl, rfl⟩
    exact same.add opened (ready.follows rfl)
  have body : quiet.respBodyAdd answers = some (quiet.add answers) :=
    @Conn.respBodyAdd_open quiet hand.kept (hand.sane opened) answers
  refine ⟨{ client with
    conn := { quiet.add answers with respToWrite := (quiet.add answers).respToWrite - 1 }
    reqs := Function.update client.reqs req { client.reqs req with connErr := true } }, ?_, ?_⟩
  · unfold errResp
    split
    · rename_i conn found
      obtain rfl : conn = quiet.add answers := Option.some.inj (found.symm.trans body)
      unfold dropRequest
      dsimp only
      rw [added]
      dsimp only
      have kept : ¬ quiet.freed = true := fun freed => by cases hand.kept.symm.trans freed
      have own : quiet.req = some req := hand.own
      rw [if_neg kept, own]
      dsimp only
      rw [if_pos place.live, place.wkr, place.usingWkr]
      rfl
    · rename_i found
      cases found.symm.trans body
  · rw [added] at intact ⊢
    refine ⟨intact.congr rfl rfl fun shows => ⟨shows, rfl, rfl⟩,
      fun _ => ⟨hand.kept, hand.sane opened⟩, fun shut => (by cases opened.symm.trans shut), ?_,
      hand.newest, ?_, ?_⟩
    · intro piece member
      rcases List.mem_append.mp member with earlier | same
      · exact hand.below piece earlier
      · rw [List.mem_singleton.mp same]
        exact hand.number
    · intro _ query created dead
      by_cases same : query = req
      · subst same
        exact told_self rfl (by rintro ⟨⟩)
      · refine told_add (hand.answered opened query same ?_) answers
        dsimp only at created
        rwa [Function.update_of_ne same] at created
    · have one : quiet.respToWrite = 1 := hand.owed
      refine .failed req opened hand.own ?_ hand.current stopped rfl ?_ ?_ ?_
      · dsimp only
        rw [one]
        rfl
      · exact List.append_ne_nil_of_right_ne_nil _ (List.cons_ne_nil _ _)
      · dsimp only
        rw [Function.update_self]
        exact ⟨rfl, place.queued, place.created⟩
      · intro query differs
        exact (congrArg Req.live (Function.update_of_ne differs _ _)).trans
          (hand.others query differs)

end AtHand

namespace Sound

theorem hand (sound : client.Sound) (kept : client.conn.freed = false)
    (own : client.conn.req = some req) (owed : client.conn.respToWrite = 1)
    (current : client.conn.currentRequest = none) (number : req < client.nextReq)
    (others : ∀ other, other ≠ req → (client.reqs other).live = false) : client.AtHand req where
  intact := sound.intact
  kept := kept
  sane := fun opened => (sound.sane opened).2
  shut := by
    intro shut
    obtain ⟨still, freed | closed⟩ := sound.shut shut
    · exact nomatch kept.symm.trans freed
    · exact ⟨still, closed⟩
  owed := owed
  own := own
  current := current
  below := sound.below
  newest := sound.newest
  number := number
  others := others
  answered := fun opened other differs created =>
    sound.answered opened other created (.inl (others other differs))

/-- Once reading has stopped a response is owed, also to a request that was being parsed. -/
theorem stopped (sound : client.Sound) (opened : client.conn.opened = true)
    (own : client.conn.req = some req)
    (owed : client.conn.respToWrite = 0 ∨ client.conn.respToWrite = 1)
    (number : req < client.nextReq)
    (others : ∀ other, other ≠ req → (client.reqs other).live = false) :
    AtHand { client with conn := client.conn.stopRead } req where
  intact := sound.intact.congr rfl rfl fun shows => ⟨shows, rfl, rfl⟩
  kept := (sound.sane opened).1
  sane := fun _ => (sound.sane opened).2
  shut := fun shut => (nomatch opened.symm.trans shut)
  owed := by
    unfold Conn.stopRead
    dsimp only
    rcases owed with none | one
    · rw [if_pos none]
    · rw [one]
      rfl
  own := own
  current := rfl
  below := sound.below
  newest := sound.newest
  number := number
  others := others
  answered := fun _ other differs created =>
    sound.answered opened other created (.inl (others other differs))

theorem parsing_number (sound : client.Sound) (text : client.conn.parsing = some req) :
    req < client.nextReq := by
  have newest := sound.newest req text
  omega

/-! ### The parser -/

theorem newReqCb (sound : client.Sound) (executing : client.executing = true)
    (between : client.conn.parsing = none) : client.newReqCb.Sound := by
  have newest : ∀ number, some client.nextReq = some number → number + 1 = client.nextReq + 1 := by
    intro number same
    cases same
    rfl
  have below : ∀ piece ∈ client.conn.pieces, piece.owner < client.nextReq + 1 :=
    fun piece member => (sound.below piece member).trans (Nat.lt_succ_self _)
  unfold Client.newReqCb
  rcases sound.stage with ⟨opened, unowned, owed, current, ended, done⟩ |
    ⟨req, opened, own, owed, current, text, place, ready, others⟩ |
    ⟨req, used, kept, own, owed, current, number, place, told, others⟩ |
    ⟨req, opened, own, owed, current, stopped, closes, writes, failed, others⟩ |
    ⟨shut, freed, left⟩
  · -- An idle connection takes the request.
    have none : ¬ 0 < client.conn.respToWrite := by
      rw [owed]
      exact Int.lt_irrefl 0
    rw [if_neg none]
    have fresh : Function.update client.reqs client.nextReq Req.new client.nextReq = Req.new :=
      Function.update_self _ _ _
    refine ⟨sound.intact.congr rfl rfl fun shows => ⟨shows, rfl, rfl⟩, sound.sane, ?_, below,
      newest, ?_, ?_⟩
    · exact fun shut => (nomatch opened.symm.trans shut)
    · intro shows other created dead
      change (Function.update client.reqs client.nextReq Req.new other).created = true at created
      change (Function.update client.reqs client.nextReq Req.new other).live = false ∨
        (Function.update client.reqs client.nextReq Req.new other).connErr = true at dead
      by_cases same : other = client.nextReq
      · subst same
        rw [fresh] at dead
        exact dead.elim nofun nofun
      · rw [Function.update_of_ne same] at created dead
        exact sound.answered shows other created dead
    · refine .parsing client.nextReq opened rfl owed rfl rfl ?_ ?_ ?_
      · change (Function.update client.reqs client.nextReq Req.new client.nextReq).At false false
        rw [fresh]
        exact ⟨rfl, rfl, rfl, rfl, rfl, rfl⟩
      · exact fun piece last => ⟨ended piece last, sound.below piece (List.mem_of_getLast? last)⟩
      · intro other differs
        exact (congrArg Req.live (Function.update_of_ne differs _ _)).trans (done other)
  · exact nomatch between.symm.trans text
  · -- A busy one passes over it.
    have some : 0 < client.conn.respToWrite := by
      rw [owed]
      exact Int.one_pos
    rw [if_pos some]
    refine ⟨sound.intact.congr rfl rfl fun shows => ⟨shows, rfl, rfl⟩, sound.sane, sound.shut,
      below, newest, sound.answered, ?_⟩
    exact .busy req used kept own owed current (number.trans (Nat.lt_succ_self _)) place told others
  · exact nomatch executing.symm.trans stopped.2
  · exact nomatch executing.symm.trans (sound.shut shut).1

/-- A callback for the request that is being parsed. -/
theorem parse (sound : client.Sound) (executing : client.executing = true)
    {callback : Nat → Option Client}
    (handles : ∀ req, client.conn.opened = true → client.conn.req = some req →
      client.conn.respToWrite = 0 → client.conn.currentRequest = some req →
      client.conn.parsing = some req → (client.reqs req).At false false →
      Ready client.conn.pieces req →
      (∀ other, other ≠ req → (client.reqs other).live = false) →
      ∃ after, callback req = some after ∧ after.Sound) :
    ∃ after, client.parse callback = some after ∧ after.Sound := by
  unfold Client.parse
  rcases sound.stage with ⟨opened, unowned, owed, current, ended, done⟩ |
    ⟨req, opened, own, owed, current, text, place, ready, others⟩ |
    ⟨req, used, kept, own, owed, current, number, place, told, others⟩ |
    ⟨req, opened, own, owed, current, stopped, closes, writes, failed, others⟩ |
    ⟨shut, freed, left⟩
  · rw [current]
    exact ⟨client, rfl, sound⟩
  · rw [current]
    exact handles req opened own owed current text place ready others
  · rw [current]
    exact ⟨client, rfl, sound⟩
  · rw [current]
    exact ⟨client, rfl, sound⟩
  · exact nomatch executing.symm.trans (sound.shut shut).1

theorem reqInvalid (sound : client.Sound) (status : Status) (opened : client.conn.opened = true)
    (own : client.conn.req = some req)
    (owed : client.conn.respToWrite = 0 ∨ client.conn.respToWrite = 1)
    (number : req < client.nextReq) {queued : Bool} (place : (client.reqs req).At queued false)
    (ready : Ready client.conn.pieces req)
    (others : ∀ other, other ≠ req → (client.reqs other).live = false) :
    ∃ after, client.reqInvalid page req status = some after ∧ after.Sound ∧
      after.conn.currentRequest = none := by
  have hand := sound.stopped opened own owed number others
  unfold Client.reqInvalid
  rw [(sound.sane opened).1, if_neg Bool.false_ne_true]
  exact hand.error place.live place.usingWkr place.connErr (fun _ => ready) status

theorem resolve (sound : client.Sound) (executing : client.executing = true) (app : Bool) :
    ∃ after, client.parse (client.resolve · app) = some after ∧ after.Sound := by
  apply sound.parse executing
  intro req opened own owed current text place ready others
  have known : (client.setReq req { client.reqs req with app := app }).reqs req =
      { client.reqs req with app := app } := Function.update_self _ _ _
  have other : ∀ other, other ≠ req →
      (client.setReq req { client.reqs req with app := app }).reqs other = client.reqs other :=
    fun _ differs => Function.update_of_ne differs _ _
  unfold Client.resolve
  rw [if_pos place.live]
  refine ⟨_, rfl, sound.intact, sound.sane, sound.shut, sound.below, sound.newest, ?_, ?_⟩
  · intro shows query created dead
    by_cases same : query = req
    · subst same
      rw [known] at created dead
      exact sound.answered shows query created dead
    · rw [other query same] at created dead
      exact sound.answered shows query created dead
  · refine .parsing req opened own owed current text ?_ ready ?_
    · rw [known]
      exact ⟨place.created, place.live, place.queued, place.wkr, place.usingWkr, place.connErr⟩
    · intro query differs
      rw [other query differs]
      exact others query differs

/-- The end of a text that no request was made of. -/
theorem between (sound : client.Sound) (current : client.conn.currentRequest = none) :
    Sound { client with conn := { client.conn with parsing := none } } := by
  refine ⟨sound.intact.congr rfl rfl fun shows => ⟨shows, rfl, rfl⟩, sound.sane, sound.shut,
    sound.below, nofun, sound.answered, ?_⟩
  rcases sound.stage with ⟨opened, unowned, owed, current, ended, done⟩ |
    ⟨req, opened, own, owed, parsed, text, place, ready, others⟩ |
    ⟨req, used, kept, own, owed, current, number, place, told, others⟩ |
    ⟨req, opened, own, owed, current, stopped, closes, writes, failed, others⟩ |
    ⟨shut, freed, left⟩
  · exact .idle opened unowned owed current ended done
  · exact nomatch current.symm.trans parsed
  · exact .busy req used kept own owed current number place told others
  · exact .failed req opened own owed current stopped closes writes failed others
  · exact .gone shut freed left

/-- A request that is complete waits, or a worker takes it at once. -/
theorem accept (sound : client.Sound) (opened : client.conn.opened = true)
    (own : client.conn.req = some req) (owed : client.conn.respToWrite = 0)
    (number : req < client.nextReq) (place : (client.reqs req).At false false)
    (ready : Ready client.conn.pieces req)
    (others : ∀ other, other ≠ req → (client.reqs other).live = false) (keepAlive taken : Bool)
    (record : Req) (next : record.At (!taken) taken) :
    Sound { client with
      conn := { client.conn with
        parsing := none
        keepAlive := keepAlive
        respToWrite := client.conn.respToWrite + 1
        currentRequest := none }
      reqs := Function.update client.reqs req record } := by
  have one : client.conn.respToWrite + 1 = 1 := by
    rw [owed]
    rfl
  refine ⟨sound.intact.congr rfl rfl fun shows => ⟨shows, rfl, rfl⟩, sound.sane, sound.shut,
    sound.below, nofun, ?_, ?_⟩
  · intro shows query created dead
    dsimp only at created dead
    by_cases same : query = req
    · subst same
      rw [Function.update_self] at dead
      exact dead.elim (fun dead => nomatch dead.symm.trans next.live)
        (fun failed => nomatch next.connErr.symm.trans failed)
    · rw [Function.update_of_ne same] at created dead
      exact sound.answered shows query created dead
  · refine .busy req taken (sound.sane opened).1 own one rfl number ?_ (.inl ready) ?_
    · dsimp only
      rw [Function.update_self]
      exact next
    · intro query differs
      exact (congrArg Req.live (Function.update_of_ne differs _ _)).trans (others query differs)

/-- A request that is complete but is turned away. -/
theorem refuse (sound : client.Sound) (opened : client.conn.opened = true)
    (own : client.conn.req = some req) (owed : client.conn.respToWrite = 0)
    (number : req < client.nextReq) (place : (client.reqs req).At false false)
    (ready : Ready client.conn.pieces req)
    (others : ∀ other, other ≠ req → (client.reqs other).live = false) (keepAlive : Bool)
    (status : Status) :
    ∃ after, Client.reqInvalid page { client with
        conn := { client.conn with
          parsing := none
          keepAlive := keepAlive
          respToWrite := client.conn.respToWrite + 1 } } req status = some after ∧
      after.Sound ∧ after.conn.currentRequest = none := by
  have hand : AtHand { client with
      conn := { client.conn with
        parsing := none
        keepAlive := keepAlive
        respToWrite := client.conn.respToWrite + 1 }.stopRead } req := {
    sound.stopped opened own (.inl owed) number others with
    intact := sound.intact.congr rfl rfl fun shows => ⟨shows, rfl, rfl⟩
    newest := nofun
    owed := by
      unfold Conn.stopRead
      rw [owed]
      rfl }
  have kept : ¬ client.conn.freed = true := fun freed =>
    nomatch (sound.sane opened).1.symm.trans freed
  unfold Client.reqInvalid
  dsimp only
  rw [if_neg kept]
  exact hand.error place.live place.usingWkr place.connErr (fun _ => ready) status

theorem endRequest (sound : client.Sound) (executing : client.executing = true)
    (keepAlive room taken : Bool) :
    ∃ after, client.endRequest page keepAlive room taken = some after ∧ after.Sound := by
  have settled : ∀ after : Client, after.conn.currentRequest = none →
      { after with conn := { after.conn with currentRequest := none } } = after := by
    rintro ⟨conn, reqs, nextReq, executing⟩ current
    cases conn
    cases current
    rfl
  unfold Client.endRequest
  dsimp only
  rcases sound.stage with ⟨opened, unowned, owed, current, ended, done⟩ |
    ⟨req, opened, own, owed, current, text, place, ready, others⟩ |
    ⟨req, used, kept, own, owed, current, number, place, told, others⟩ |
    ⟨req, opened, own, owed, current, stopped, closes, writes, failed, others⟩ |
    ⟨shut, freed, left⟩
  · rw [current]
    exact ⟨_, rfl, current ▸ sound.between current⟩
  · have number := sound.parsing_number text
    rw [current]
    dsimp only
    unfold Client.reqCompleteCb
    dsimp only
    rw [if_pos place.live]
    by_cases app : (client.reqs req).app = true
    · rw [if_pos app]
      cases room with
      | true =>
          rw [if_pos rfl]
          have accepted := sound.accept opened own owed number place ready others keepAlive
          cases taken with
          | true =>
              refine ⟨_, rfl, ?_⟩
              have known := accepted true
                { client.reqs req with queued := false, wkr := true, usingWkr := true }
                ⟨place.created, place.live, rfl, rfl, rfl, place.connErr⟩
              rw [if_pos rfl]
              unfold Client.take setReq
              dsimp only
              rw [Function.update_self, Function.update_idem]
              exact known
          | false =>
              exact ⟨_, rfl, accepted false { client.reqs req with queued := true }
                ⟨place.created, place.live, rfl, place.wkr, place.usingWkr, place.connErr⟩⟩
      | false =>
          rw [if_neg Bool.false_ne_true]
          obtain ⟨after, same, kept, idle⟩ := @refuse page client req sound opened own owed number
            place ready others keepAlive .status503
          dsimp only at same
          rw [current] at same
          rw [same]
          exact ⟨after, congrArg some (settled after idle), kept⟩
    · rw [if_neg app]
      obtain ⟨after, same, kept, idle⟩ := @refuse page client req sound opened own owed number
        place ready others keepAlive .status404
      dsimp only at same
      rw [current] at same
      rw [same]
      exact ⟨after, congrArg some (settled after idle), kept⟩
  · rw [current]
    exact ⟨_, rfl, current ▸ sound.between current⟩
  · exact nomatch executing.symm.trans stopped.2
  · exact nomatch executing.symm.trans (sound.shut shut).1

/-- The parser is through, and the connection will not be kept. -/
theorem calm (sound : client.Sound) :
    Sound { client with
      executing := false
      conn := { client.conn with keepAlive := false } } := by
  refine ⟨sound.intact.congr rfl rfl fun shows => ⟨shows, rfl, rfl⟩, sound.sane,
    fun shut => ⟨rfl, (sound.shut shut).2⟩, sound.below, sound.newest, sound.answered, ?_⟩
  rcases sound.stage with ⟨opened, unowned, owed, current, ended, done⟩ |
    ⟨req, opened, own, owed, current, text, place, ready, others⟩ |
    ⟨req, used, kept, own, owed, current, number, place, told, others⟩ |
    ⟨req, opened, own, owed, current, stopped, closes, writes, failed, others⟩ |
    ⟨shut, freed, left⟩
  · exact .idle opened unowned owed current ended done
  · exact .parsing req opened own owed current text place ready others
  · exact .busy req used kept own owed current number place told others
  · exact .failed req opened own owed current ⟨stopped.1, rfl⟩ rfl writes failed others
  · exact .gone shut freed left

/-- The text that cannot be parsed is no request the head works on, and nothing has answered it. -/
theorem fail_idle (sound : client.Sound) (opened : client.conn.opened = true)
    (unowned : client.conn.req = none) (owed : client.conn.respToWrite = 0)
    (ended : Ended client.conn.pieces) (done : ∀ req, (client.reqs req).live = false)
    {owner nextReq : Nat} (before : ∀ piece ∈ client.conn.pieces, piece.owner < owner)
    (after : owner < nextReq)
    (newest : ∀ number, client.conn.parsing = some number → number + 1 = nextReq)
    (status : Status) :
    ∃ after, Client.reqInvalid page { client with
        executing := false
        nextReq := nextReq
        conn := { client.conn with keepAlive := false } } owner status = some after ∧
      after.Sound := by
  obtain ⟨kept, open_⟩ := sound.sane opened
  have unfreed : ¬ client.conn.freed = true := fun freed => by cases kept.symm.trans freed
  let stopped : Conn := { { client.conn with keepAlive := false }.stopRead with keepAlive := false }
  let answers : Piece := ⟨owner, .error, page client.conn.pieces.length status⟩
  have ready : Ready client.conn.pieces owner := fun piece last =>
    ⟨ended piece last, before piece (List.mem_of_getLast? last)⟩
  have intact : (stopped.add answers).Intact := by
    have same : stopped.Intact := sound.intact.congr rfl rfl fun shows => ⟨shows, rfl, rfl⟩
    exact same.add opened (ready.follows rfl)
  obtain ⟨toWrite, writes, added⟩ := stopped.add_eq answers
  have body : stopped.respBodyAdd answers = some (stopped.add answers) :=
    @Conn.respBodyAdd_open stopped kept open_ answers
  refine ⟨{ client with
    executing := false
    nextReq := nextReq
    conn := { stopped.add answers with
      respToWrite := (stopped.add answers).respToWrite - 1 } }, ?_, ?_⟩
  · unfold Client.reqInvalid errResp
    dsimp only
    rw [if_neg unfreed]
    split
    · rename_i conn found
      obtain rfl : conn = stopped.add answers := Option.some.inj (found.symm.trans body)
      unfold dropRequest
      dsimp only
      rw [added]
      dsimp only
      have free : ¬ stopped.freed = true := unfreed
      have own : stopped.req = none := unowned
      rw [if_neg free, own]
    · rename_i found
      cases found.symm.trans body
  · rw [added] at intact ⊢
    refine ⟨intact.congr rfl rfl fun shows => ⟨shows, rfl, rfl⟩, fun _ => ⟨kept, open_⟩,
      fun shut => (by cases opened.symm.trans shut), ?_, newest, ?_, ?_⟩
    · intro piece member
      rcases List.mem_append.mp member with earlier | same
      · exact (before piece earlier).trans after
      · rw [List.mem_singleton.mp same]
        exact after
    · intro _ query created dead
      exact told_add (sound.answered opened query created dead) answers
    · refine .idle opened unowned ?_ rfl ?_ done
      · have one : stopped.respToWrite = 1 := if_pos owed
        dsimp only
        rw [one]
        rfl
      · intro piece last
        dsimp only at last
        rw [getLast?_add] at last
        cases last
        rintro ⟨⟩

/-- Text that cannot be parsed, as long as nothing was handed over of a response to it. -/
theorem parseErrCb (sound : client.Sound) (executing : client.executing = true)
    (untold : ∀ piece ∈ client.conn.pieces, piece.owner ≠ client.faulty) :
    ∃ after, client.parseErrCb page = some after ∧ after.Sound := by
  have opened : client.conn.opened = true := by
    cases opened : client.conn.opened with
    | true => rfl
    | false => exact nomatch executing.symm.trans (sound.shut opened).1
  have owned : ∀ req, client.conn.req = some req → client.faulty = req := by
    intro req own
    unfold faulty
    rw [own]
  unfold Client.parseErrCb
  dsimp only
  rcases sound.stage with ⟨opened, unowned, owed, current, ended, done⟩ |
    ⟨req, opened, own, owed, current, text, place, ready, others⟩ |
    ⟨req, used, kept, own, owed, current, number, place, told, others⟩ |
    ⟨req, opened, own, owed, current, stopped, closes, writes, failed, others⟩ |
    ⟨shut, freed, left⟩
  · have faulty : client.faulty = client.conn.parsing.getD client.nextReq := by
      unfold Client.faulty
      rw [unowned]
    rcases Option.eq_none_or_eq_some client.conn.parsing with text | ⟨number, text⟩
    · rw [text, Option.getD_none] at faulty
      rw [faulty, if_pos rfl]
      refine sound.fail_idle opened unowned owed ended done sound.below (Nat.lt_succ_self _) ?_
        .status400
      exact fun number some => nomatch text.symm.trans some
    · rw [text, Option.getD_some] at faulty
      rw [faulty] at untold ⊢
      have newest := sound.newest number text
      rw [if_neg (by omega)]
      have before : ∀ piece ∈ client.conn.pieces, piece.owner < number := by
        intro piece member
        have below := sound.below piece member
        have differs := untold piece member
        omega
      exact sound.fail_idle opened unowned owed ended done before (by omega) sound.newest
        .status400
  · have number := sound.parsing_number text
    rw [owned req own, if_neg number.ne]
    obtain ⟨after, same, kept, -⟩ := @reqInvalid page _ req sound.calm .status400 opened own
      (.inl owed) number false place ready others
    exact ⟨after, same, kept⟩
  · rw [owned req own] at untold ⊢
    rw [if_neg number.ne]
    have ready : Ready client.conn.pieces req := by
      rcases told with ready | ⟨-, piece, last, -, owner⟩
      · exact ready
      · exact absurd owner (untold piece (List.mem_of_getLast? last))
    cases used with
    | false =>
        obtain ⟨after, same, kept, -⟩ := @reqInvalid page _ req sound.calm .status400 opened own
          (.inr owed) number true place ready others
        exact ⟨after, same, kept⟩
    | true =>
        have unfreed : ¬ client.conn.freed = true := fun freed => nomatch kept.symm.trans freed
        have hand := sound.calm.stopped opened own (.inr owed) number others
        obtain ⟨after, same, fails⟩ := @AtHand.strand page _ req hand opened ⟨rfl, rfl⟩ place
          ready .status400
        refine ⟨after, ?_, fails⟩
        unfold Client.reqInvalid
        dsimp only
        rw [if_neg unfreed]
        exact same
  · exact nomatch executing.symm.trans stopped.2
  · exact nomatch executing.symm.trans (sound.shut shut).1

end Sound

end Client
