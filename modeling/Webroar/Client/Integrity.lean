import Webroar.Client.Sound

/-! # The stream of a connection over whole runs

The callbacks of libebb and of the workers keep what the parser keeps, and so the stream is intact
in every run without an error that strikes a response of which something was handed over. Such an
error, on the other hand, spoils the stream at once.
-/

namespace Client

variable {serverKeepAlive : Bool} {page : Nat → Status → List UInt8} {client after : Client}
  {req : Nat}

namespace Sound

/-! ### Reading, writing and closing -/

theorem executing_opened (sound : client.Sound) (executing : client.executing = true) :
    client.conn.opened = true := by
  cases opened : client.conn.opened with
  | true => rfl
  | false => exact nomatch executing.symm.trans (sound.shut opened).1

theorem readable (sound : client.Sound) (opened : client.conn.opened = true)
    (reading : client.conn.reading = true) : Sound { client with executing := true } := by
  refine ⟨sound.intact, sound.sane, fun shut => (nomatch opened.symm.trans shut), sound.below,
    sound.newest, sound.answered, ?_⟩
  rcases sound.stage with ⟨opened, unowned, owed, current, ended, done⟩ |
    ⟨req, opened, own, owed, current, text, place, ready, others⟩ |
    ⟨req, used, kept, own, owed, current, number, place, told, others⟩ |
    ⟨req, opened, own, owed, current, stopped, closes, writes, failed, others⟩ |
    ⟨shut, freed, left⟩
  · exact .idle opened unowned owed current ended done
  · exact .parsing req opened own owed current text place ready others
  · exact .busy req used kept own owed current number place told others
  · exact nomatch reading.symm.trans stopped.1
  · exact .gone shut freed left

theorem consumed (sound : client.Sound) : Sound { client with executing := false } := by
  refine ⟨sound.intact, sound.sane, fun shut => ⟨rfl, (sound.shut shut).2⟩, sound.below,
    sound.newest, sound.answered, ?_⟩
  rcases sound.stage with ⟨opened, unowned, owed, current, ended, done⟩ |
    ⟨req, opened, own, owed, current, text, place, ready, others⟩ |
    ⟨req, used, kept, own, owed, current, number, place, told, others⟩ |
    ⟨req, opened, own, owed, current, stopped, closes, writes, failed, others⟩ |
    ⟨shut, freed, left⟩
  · exact .idle opened unowned owed current ended done
  · exact .parsing req opened own owed current text place ready others
  · exact .busy req used kept own owed current number place told others
  · exact .failed req opened own owed current ⟨stopped.1, rfl⟩ closes writes failed others
  · exact .gone shut freed left

theorem scheduleClose_freed {conn : Conn} (owed : conn.respToWrite ≤ 0) :
    conn.scheduleClose = { conn with
      opened := false, reading := false, toWrite := none, freed := true, resp := [] } := by
  unfold Conn.scheduleClose Conn.closeCb
  rw [if_pos owed]
  rfl

/-- A connection that owes nothing is freed. -/
theorem vanish (sound : client.Sound) (idle : client.executing = false)
    (left : ∀ req, (client.reqs req).live = true → (client.reqs req).queued = false ∧
      ((client.reqs req).usingWkr = true → (client.reqs req).connErr = true)) :
    Sound { client with conn := { client.conn with
      opened := false, reading := false, toWrite := none, freed := true, resp := [] } } :=
  ⟨sound.intact.congr rfl rfl nofun, nofun, fun _ => ⟨idle, .inl rfl⟩, sound.below, sound.newest,
    nofun, .gone rfl rfl left⟩

/-- libebb closes the connection; one that owes a response is kept until it is done. -/
theorem close (sound : client.Sound) (opened : client.conn.opened = true)
    (idle : client.executing = false) :
    Sound { client with conn := client.conn.scheduleClose } := by
  rcases sound.stage with ⟨opened, unowned, owed, current, ended, done⟩ |
    ⟨req, opened, own, owed, current, text, place, ready, others⟩ |
    ⟨req, used, kept, own, owed, current, number, place, told, others⟩ |
    ⟨req, opened, own, owed, current, stopped, closes, writes, failed, others⟩ |
    ⟨shut, freed, left⟩
  · rw [scheduleClose_freed (Int.le_of_eq owed)]
    exact sound.vanish idle fun req live => nomatch (done req).symm.trans live
  · rw [scheduleClose_freed (Int.le_of_eq owed)]
    apply sound.vanish idle
    intro other live
    by_cases same : other = req
    · subst same
      exact ⟨place.queued, fun used => nomatch place.usingWkr.symm.trans used⟩
    · exact nomatch (others other same).symm.trans live
  · have owes : ¬ client.conn.respToWrite ≤ 0 := by
      rw [owed]
      decide
    have shut : client.conn.scheduleClose = { client.conn with
        opened := false, reading := false, toWrite := none, isClosed := true,
        keepAlive := false } := by
      unfold Conn.scheduleClose Conn.closeCb
      rw [if_neg owes]
    rw [shut]
    exact ⟨sound.intact.congr rfl rfl nofun, nofun, fun _ => ⟨idle, .inr rfl⟩, sound.below,
      sound.newest, nofun, .busy req used kept own owed current number place told others⟩
  · rw [scheduleClose_freed (Int.le_of_eq owed)]
    apply sound.vanish idle
    intro other live
    by_cases same : other = req
    · subst same
      exact ⟨failed.2.1, fun _ => failed.1⟩
    · exact nomatch (others other same).symm.trans live
  · exact nomatch opened.symm.trans shut

/-- libebb has written a buffer: the next one is written, or the connection is closed, or it waits
for what comes. -/
theorem written (sound : client.Sound) (opened : client.conn.opened = true)
    (idle : client.executing = false) :
    Sound { client with conn := client.conn.afterWriteCb serverKeepAlive } := by
  obtain ⟨kept, unclosed⟩ := sound.sane opened
  obtain ⟨writing, split⟩ := sound.intact.waiting opened
  unfold Conn.afterWriteCb
  dsimp only
  cases rest : client.conn.resp.tail with
  | cons next more =>
      rw [unclosed]
      dsimp only
      unfold Conn.ebbWrite
      dsimp only
      rw [rest] at split
      have all : client.conn.writes ++ [next] ++ more = client.conn.pieces.map Piece.bytes := by
        rw [List.append_assoc]
        exact split
      refine ⟨⟨sound.intact.framed, ?_, fun _ => ⟨rfl, all⟩⟩, fun _ => ⟨kept, rfl⟩,
        fun shut => (nomatch opened.symm.trans shut), sound.below, sound.newest, sound.answered, ?_⟩
      · dsimp only
        rw [← all]
        exact List.prefix_append _ _
      · rcases sound.stage with ⟨opened, unowned, owed, current, ended, done⟩ |
          ⟨req, opened, own, owed, current, text, place, ready, others⟩ |
          ⟨req, used, kept, own, owed, current, number, place, told, others⟩ |
          ⟨req, opened, own, owed, current, stopped, closes, writes, failed, others⟩ |
          ⟨shut, freed, left⟩
        · exact .idle opened unowned owed current ended done
        · exact .parsing req opened own owed current text place ready others
        · exact .busy req used kept own owed current number place told others
        · exact .failed req opened own owed current stopped closes (List.cons_ne_nil _ _) failed
            others
        · exact .gone shut freed left
  | nil =>
      rw [rest, List.append_nil] at split
      dsimp only
      have intact : Conn.Intact { client.conn with toWrite := none, resp := [] } := by
        refine ⟨sound.intact.framed, sound.intact.handed, fun _ => ⟨rfl, ?_⟩⟩
        rw [List.tail_nil, List.append_nil]
        exact split
      have rests : Stage { client with conn := { client.conn with toWrite := none, resp := [] } } →
          Sound { client with conn :=
            if client.conn.respToWrite ≤ 0 then
              if serverKeepAlive && client.conn.keepAlive then
                { client.conn with toWrite := none, resp := [] }
              else Conn.scheduleClose { client.conn with toWrite := none, resp := [] }
            else { client.conn with toWrite := none, resp := [] } } := by
        intro stage
        have rested : Sound { client with conn := { client.conn with
            toWrite := none, resp := [] } } :=
          ⟨intact, sound.sane, sound.shut, sound.below, sound.newest, sound.answered, stage⟩
        split
        · split
          · exact rested
          · exact rested.close opened idle
        · exact rested
      rcases sound.stage with ⟨opened, unowned, owed, current, ended, done⟩ |
        ⟨req, opened, own, owed, current, text, place, ready, others⟩ |
        ⟨req, used, kept, own, owed, current, number, place, told, others⟩ |
        ⟨req, opened, own, owed, current, stopped, closes, writes, failed, others⟩ |
        ⟨shut, freed, left⟩
      · exact rests (.idle opened unowned owed current ended done)
      · exact rests (.parsing req opened own owed current text place ready others)
      · exact rests (.busy req used kept own owed current number place told others)
      · -- The page was written, and nothing else will be.
        have shuts : ¬ (serverKeepAlive && client.conn.keepAlive) = true := by
          rw [closes, Bool.and_false]
          exact Bool.false_ne_true
        have closed : Conn.scheduleClose { client.conn with toWrite := none, resp := [] } =
            { client.conn with
              opened := false, reading := false, toWrite := none, freed := true, resp := [] } :=
          scheduleClose_freed (Int.le_of_eq owed)
        rw [if_pos (Int.le_of_eq owed), if_neg shuts, closed]
        apply sound.vanish idle
        intro other live
        by_cases same : other = req
        · subst same
          exact ⟨failed.2.1, fun _ => failed.1⟩
        · exact nomatch (others other same).symm.trans live
      · exact nomatch opened.symm.trans shut

/-- A connection on which nothing happens for long is closed, with the request that is being
parsed. -/
theorem timeoutCb (sound : client.Sound) (opened : client.conn.opened = true)
    (idle : client.executing = false) :
    ∃ after, client.timeoutCb = some after ∧ after.Sound := by
  unfold Client.timeoutCb
  by_cases waits : 0 < client.conn.respToWrite ∨ client.conn.resp ≠ []
  · rw [if_pos waits]
    exact ⟨client, rfl, sound⟩
  · rw [if_neg waits]
    rcases sound.stage with ⟨opened, unowned, owed, current, ended, done⟩ |
      ⟨req, opened, own, owed, current, text, place, ready, others⟩ |
      ⟨req, used, kept, own, owed, current, number, place, told, others⟩ |
      ⟨req, opened, own, owed, current, stopped, closes, writes, failed, others⟩ |
      ⟨shut, freed, left⟩
    · rw [unowned]
      exact ⟨_, rfl, sound.close opened idle⟩
    · obtain ⟨kept, unclosed⟩ := sound.sane opened
      have uncounted : ¬ (client.conn.isClosed = true ∧ client.conn.respToWrite - 1 = 0) :=
        fun both => nomatch unclosed.symm.trans both.1
      have released : client.conn.release =
          { client.conn with respToWrite := client.conn.respToWrite - 1, req := none } := by
        unfold Conn.release
        dsimp only
        rw [if_neg uncounted]
      have less : client.conn.respToWrite - 1 ≤ 0 := by omega
      have closed : Conn.scheduleClose
          { client.conn with respToWrite := client.conn.respToWrite - 1, req := none } =
          { client.conn with
            respToWrite := client.conn.respToWrite - 1, req := none, opened := false,
            reading := false, toWrite := none, freed := true, resp := [] } :=
        scheduleClose_freed less
      rw [own]
      dsimp only
      rw [reqFree_eq place.live place.connErr kept]
      dsimp only
      rw [released, closed]
      refine ⟨_, rfl, sound.intact.congr rfl rfl nofun, nofun, fun _ => ⟨idle, .inl rfl⟩,
        sound.below, sound.newest, nofun, .gone rfl rfl ?_⟩
      intro other live
      dsimp only at live
      by_cases same : other = req
      · subst same
        rw [Function.update_self] at live
        exact nomatch live
      · rw [Function.update_of_ne same] at live
        exact nomatch (others other same).symm.trans live
    · refine absurd (.inl ?_) waits
      rw [owed]
      exact Int.one_pos
    · exact absurd (.inr writes) waits
    · exact nomatch opened.symm.trans shut

end Sound

/-! ### Workers -/

namespace AtHand

theorem setReq (hand : client.AtHand req) (record : Req) :
    (client.setReq req record).AtHand req := {
  hand with
  others := fun other differs =>
    (congrArg Req.live (Function.update_of_ne differs _ _)).trans (hand.others other differs)
  answered := by
    intro opened other differs created
    refine hand.answered opened other differs ?_
    unfold Client.setReq at created
    dsimp only at created
    rwa [Function.update_of_ne differs] at created }

/-- The request still waits, or a worker uses it. -/
theorem busy (hand : client.AtHand req) {used : Bool} (place : (client.reqs req).At (!used) used)
    (told : Ready client.conn.pieces req ∨ used = true ∧ Telling client.conn.pieces req) :
    client.Sound := by
  refine ⟨hand.intact, fun opened => ⟨hand.kept, hand.sane opened⟩,
    fun shut => ⟨(hand.shut shut).1, .inr (hand.shut shut).2⟩, hand.below, hand.newest, ?_,
    .busy req used hand.kept hand.own hand.owed hand.current hand.number place told hand.others⟩
  intro opened other created dead
  by_cases same : other = req
  · subst same
    exact dead.elim (fun dead => nomatch dead.symm.trans place.live)
      (fun failed => nomatch place.connErr.symm.trans failed)
  · exact hand.answered opened other same created

/-- A portion with more to come goes to the connection, unless the client closed it. -/
theorem tell (hand : client.AtHand req) {piece : Piece} (owner : piece.owner = req)
    (follows : client.conn.opened = true → ∀ last ∈ client.conn.pieces.getLast?,
      Follows last piece) :
    AtHand { client with
      conn := if client.conn.isClosed then client.conn else client.conn.add piece } req := by
  cases opened : client.conn.opened with
  | false =>
      rw [(hand.shut opened).2, if_pos rfl]
      exact hand
  | true =>
      obtain ⟨toWrite, writes, added⟩ := client.conn.add_eq piece
      have intact := hand.intact.add opened (follows opened)
      rw [hand.sane opened, if_neg Bool.false_ne_true]
      rw [added] at intact ⊢
      exact {
        hand with
        intact := intact
        below := by
          intro other member
          rcases List.mem_append.mp member with earlier | same
          · exact hand.below other earlier
          · rw [List.mem_singleton.mp same, owner]
            exact hand.number
        answered := fun opened other differs created =>
          told_add (hand.answered opened other differs created) piece }

/-- The worker hands a portion of the response over; after the last one the request is done. -/
theorem deliver (hand : client.AtHand req) (place : (client.reqs req).At false true)
    (told : Ready client.conn.pieces req ∨ Telling client.conn.pieces req) (ended : Prop)
    [Decidable ended] (bytes : List UInt8) :
    ∃ after, (match client.passOn req (if ended then .last else .part) bytes with
      | some client => if ended then client.reqFree req else some client
      | none => none) = some after ∧ after.Sound := by
  have unfailed : ¬ (client.reqs req).connErr = true := fun failed =>
    nomatch place.connErr.symm.trans failed
  let piece : Piece := ⟨req, if ended then .last else .part, bytes⟩
  have kind : piece.kind ≠ .error := by
    dsimp only [piece]
    split <;> nofun
  have follows : ∀ last ∈ client.conn.pieces.getLast?, Follows last piece :=
    told.elim (fun ready => ready.follows rfl) (fun telling => telling.follows rfl kind)
  have passed : client.passOn req (if ended then .last else .part) bytes = some { client with
      conn := if client.conn.isClosed then client.conn else client.conn.add piece } := by
    unfold passOn
    rw [if_neg unfailed, hand.respBodyAdd piece]
  rw [passed]
  dsimp only
  by_cases done : ended
  · rw [if_pos done]
    have kept := (hand.frame piece).1
    refine ⟨_, @reqFree_eq { client with
      conn := if client.conn.isClosed then client.conn else client.conn.add piece } req place.live
        place.connErr kept, ?_⟩
    apply hand.answer piece rfl ?_ (fun _ => follows) _ rfl
    dsimp only [piece]
    rw [if_pos done]
    exact nofun
  · rw [if_neg done]
    have goes := hand.tell rfl fun _ => follows
    refine ⟨_, rfl, @busy _ req goes true place ?_⟩
    by_cases opened : client.conn.isClosed = true
    · rw [if_pos opened]
      exact told.imp_right fun telling => ⟨rfl, telling⟩
    · obtain ⟨toWrite, writes, added⟩ := client.conn.add_eq piece
      rw [if_neg opened, added]
      refine .inr ⟨rfl, piece, getLast?_add _ _, ?_, rfl⟩
      dsimp only [piece]
      rw [if_neg done]

end AtHand

namespace Sound

/-- A worker uses the request, and the connection has not failed. -/
theorem at_work (sound : client.Sound) (held : client.Held req)
    (intact : (client.reqs req).connErr = false) :
    client.AtHand req ∧ (client.reqs req).At false true ∧
      (Ready client.conn.pieces req ∨ Telling client.conn.pieces req) := by
  obtain ⟨live, using_⟩ := held
  rcases sound.stage with ⟨opened, unowned, owed, current, ended, done⟩ |
    ⟨known, opened, own, owed, current, text, place, ready, others⟩ |
    ⟨known, used, kept, own, owed, current, number, place, told, others⟩ |
    ⟨known, opened, own, owed, current, stopped, closes, writes, failed, others⟩ |
    ⟨shut, freed, left⟩
  · exact nomatch (done req).symm.trans live
  · by_cases same : req = known
    · subst same
      exact nomatch place.usingWkr.symm.trans using_
    · exact nomatch (others req same).symm.trans live
  · by_cases same : req = known
    · subst same
      cases place.usingWkr.symm.trans using_
      refine ⟨sound.hand kept own owed current number others, place, ?_⟩
      exact told.imp_right And.right
    · exact nomatch (others req same).symm.trans live
  · by_cases same : req = known
    · subst same
      exact nomatch intact.symm.trans failed.1
    · exact nomatch (others req same).symm.trans live
  · exact nomatch intact.symm.trans ((left req live).2 using_)

/-- The request waits in the queue of its application. -/
theorem waiting (sound : client.Sound) (waits : client.Waits req) :
    client.AtHand req ∧ (client.reqs req).At true false ∧ Ready client.conn.pieces req := by
  obtain ⟨live, queued⟩ := waits
  rcases sound.stage with ⟨opened, unowned, owed, current, ended, done⟩ |
    ⟨known, opened, own, owed, current, text, place, ready, others⟩ |
    ⟨known, used, kept, own, owed, current, number, place, told, others⟩ |
    ⟨known, opened, own, owed, current, stopped, closes, writes, failed, others⟩ |
    ⟨shut, freed, left⟩
  · exact nomatch (done req).symm.trans live
  · by_cases same : req = known
    · subst same
      exact nomatch place.queued.symm.trans queued
    · exact nomatch (others req same).symm.trans live
  · by_cases same : req = known
    · subst same
      cases used with
      | false =>
          refine ⟨sound.hand kept own owed current number others, place, ?_⟩
          exact told.elim id fun telling => nomatch telling.1
      | true => exact nomatch place.queued.symm.trans queued
    · exact nomatch (others req same).symm.trans live
  · by_cases same : req = known
    · subst same
      exact nomatch failed.2.1.symm.trans queued
    · exact nomatch (others req same).symm.trans live
  · exact nomatch (left req live).1.symm.trans queued

/-- What becomes of a request whose connection has failed is nothing to the connection. -/
theorem mark (sound : client.Sound) (failed : (client.reqs req).connErr = true) {record : Req}
    (created : record.created = (client.reqs req).created) (unqueued : record.queued = false)
    (fails : record.connErr = true) (lives : record.live = true → (client.reqs req).live = true) :
    (client.setReq req record).Sound := by
  refine ⟨sound.intact, sound.sane, sound.shut, sound.below, sound.newest, ?_, ?_⟩
  · intro opened other begun dead
    by_cases same : other = req
    · subst same
      unfold setReq at begun
      dsimp only at begun
      rw [Function.update_self, created] at begun
      exact sound.answered opened other begun (.inr failed)
    · unfold setReq at begun dead
      dsimp only at begun dead
      rw [Function.update_of_ne same] at begun dead
      exact sound.answered opened other begun dead
  · have known : (client.setReq req record).reqs req = record := Function.update_self _ _ _
    have others : ∀ other, other ≠ req →
        (client.setReq req record).reqs other = client.reqs other :=
      fun other differs => Function.update_of_ne differs _ _
    have dead : ∀ gone, (∀ other, other ≠ gone → (client.reqs other).live = false) →
        ∀ other, other ≠ gone → ((client.setReq req record).reqs other).live = false := by
      intro gone done other differs
      by_cases same : other = req
      · subst same
        rw [known]
        cases live : record.live with
        | false => rfl
        | true => exact nomatch (done other differs).symm.trans (lives live)
      · rw [others other same]
        exact done other differs
    rcases sound.stage with ⟨opened, unowned, owed, current, ended, done⟩ |
      ⟨number, opened, own, owed, current, text, place, ready, rest⟩ |
      ⟨number, used, kept, own, owed, current, new, place, told, rest⟩ |
      ⟨number, opened, own, owed, current, stopped, closes, writes, fell, rest⟩ |
      ⟨shut, freed, left⟩
    · refine .idle opened unowned owed current ended fun other => ?_
      exact dead (other + 1) (fun other _ => done other) other (Nat.lt_succ_self _).ne
    · have differs : number ≠ req := by
        rintro rfl
        exact nomatch place.connErr.symm.trans failed
      refine .parsing number opened own owed current text ?_ ready (dead number rest)
      rw [others number differs]
      exact place
    · have differs : number ≠ req := by
        rintro rfl
        exact nomatch place.connErr.symm.trans failed
      refine .busy number used kept own owed current new ?_ told (dead number rest)
      rw [others number differs]
      exact place
    · refine .failed number opened own owed current stopped closes writes ?_ (dead number rest)
      by_cases same : number = req
      · subst same
        rw [known]
        exact ⟨fails, unqueued, created.trans fell.2.2⟩
      · rw [others number same]
        exact fell
    · refine .gone shut freed fun other live => ?_
      by_cases same : other = req
      · subst same
        rw [known]
        exact ⟨unqueued, fun _ => fails⟩
      · rw [others other same] at live ⊢
        exact left other live

/-- A worker takes a request from the queue. -/
theorem take (sound : client.Sound) (waits : client.Waits req) : (client.take req).Sound := by
  obtain ⟨hand, place, ready⟩ := sound.waiting waits
  have known : ((client.take req).reqs req).At false true := by
    unfold Client.take setReq
    dsimp only
    rw [Function.update_self]
    exact ⟨place.created, place.live, rfl, rfl, rfl, place.connErr⟩
  exact @AtHand.busy _ req (hand.setReq _) true known (.inl ready)

/-- The application of a request that waits is removed. -/
theorem appFree (sound : client.Sound) (waits : client.Waits req) :
    ∃ after, client.appFree page req = some after ∧ after.Sound := by
  obtain ⟨hand, place, ready⟩ := sound.waiting waits
  have known : (client.setReq req { client.reqs req with queued := false }).reqs req =
      { client.reqs req with queued := false } := Function.update_self _ _ _
  have hands := hand.setReq { client.reqs req with queued := false }
  unfold Client.appFree
  obtain ⟨after, same, kept, -⟩ := @AtHand.error page _ req hands
    ((congrArg Req.live known).trans place.live)
    ((congrArg Req.usingWkr known).trans place.usingWkr)
    ((congrArg Req.connErr known).trans place.connErr) (fun _ => ready) .status500
  exact ⟨after, same, kept⟩

/-- A worker dies before anything of the response was handed over. -/
theorem wkrFree (sound : client.Sound) (held : client.Held req)
    (intact : (client.reqs req).connErr = false)
    (untold : client.conn.opened = true → ∀ piece ∈ client.conn.pieces, piece.owner ≠ req) :
    ∃ after, client.wkrFree page req = some after ∧ after.Sound := by
  obtain ⟨hand, place, told⟩ := sound.at_work held intact
  have ready : client.conn.opened = true → Ready client.conn.pieces req := by
    intro opened
    rcases told with ready | ⟨piece, last, -, owner⟩
    · exact ready
    · exact absurd owner (untold opened piece (List.mem_of_getLast? last))
  have known : (client.setReq req { client.reqs req with usingWkr := false }).reqs req =
      { client.reqs req with usingWkr := false } := Function.update_self _ _ _
  have hands := hand.setReq { client.reqs req with usingWkr := false }
  unfold Client.wkrFree
  obtain ⟨after, same, kept, -⟩ := @AtHand.error page _ req hands
    ((congrArg Req.live known).trans place.live) (congrArg Req.usingWkr known)
    ((congrArg Req.connErr known).trans place.connErr) ready .status500
  exact ⟨after, same, kept⟩

/-- A request whose connection has failed is not queued. -/
theorem unqueued (sound : client.Sound) (failed : (client.reqs req).connErr = true)
    (live : (client.reqs req).live = true) : (client.reqs req).queued = false := by
  by_contra queued
  obtain ⟨-, place, -⟩ := sound.waiting ⟨live, Bool.of_not_eq_false queued⟩
  exact nomatch place.connErr.symm.trans failed

/-- Where a request is whose connection has failed: the page is being written, or the connection
is no more. -/
theorem stranded (sound : client.Sound) (failed : (client.reqs req).connErr = true)
    (live : (client.reqs req).live = true) :
    client.conn.opened = true ∧ (client.reqs req).created = true ∨ client.conn.freed = true := by
  rcases sound.stage with ⟨opened, unowned, owed, current, ended, done⟩ |
    ⟨known, opened, own, owed, current, text, place, ready, others⟩ |
    ⟨known, used, kept, own, owed, current, number, place, told, others⟩ |
    ⟨known, opened, own, owed, current, stopped, closes, writes, fell, others⟩ |
    ⟨shut, freed, left⟩
  · exact nomatch (done req).symm.trans live
  · by_cases same : req = known
    · subst same
      exact nomatch place.connErr.symm.trans failed
    · exact nomatch (others req same).symm.trans live
  · by_cases same : req = known
    · subst same
      exact nomatch place.connErr.symm.trans failed
    · exact nomatch (others req same).symm.trans live
  · by_cases same : req = known
    · subst same
      exact .inl ⟨opened, fell.2.2⟩
    · exact nomatch (others req same).symm.trans live
  · exact .inr freed

/-- The worker of such a request goes on with it or is done. -/
theorem carryOn (sound : client.Sound) (failed : (client.reqs req).connErr = true)
    (live : (client.reqs req).live = true) {record : Req}
    (created : record.created = (client.reqs req).created)
    (same : record.queued = (client.reqs req).queued) (fails : record.connErr = true)
    (done : Prop) [Decidable done] :
    Sound (if done then (client.setReq req record).forget req else client.setReq req record) := by
  have unqueued : record.queued = false := same.trans (sound.unqueued failed live)
  have known : (client.setReq req record).reqs req = record := Function.update_self _ _ _
  have marked := sound.mark failed created unqueued fails fun _ => live
  split
  · exact marked.mark ((congrArg Req.connErr known).trans fails) rfl
      ((congrArg Req.queued known).trans unqueued) ((congrArg Req.connErr known).trans fails) nofun
  · exact marked

/-- The length of the response comes, with the beginning of it or without. -/
theorem setRespLen (sound : client.Sound) (held : client.Held req) {announced : Nat}
    (announces : announced ≠ 0) (body : List UInt8) :
    ∃ after, client.setRespLen page req announced body = some after ∧ after.Sound := by
  let record : Req := { client.reqs req with
    respBufLen := announced, bytesReceived := body.length }
  have known : (client.setReq req record).reqs req = record := Function.update_self _ _ _
  by_cases failed : (client.reqs req).connErr = true
  · rw [setRespLen_failed failed held.1 announces]
    exact ⟨_, rfl, @carryOn _ req sound failed held.1 record rfl rfl failed _ _⟩
  · obtain ⟨hand, place, told⟩ := sound.at_work held (Bool.eq_false_iff.mpr failed)
    have placed : ((client.setReq req record).reqs req).At false true := by
      rw [known]
      exact ⟨place.created, place.live, place.queued, place.wkr, place.usingWkr, place.connErr⟩
    have hands := hand.setReq record
    unfold Client.setRespLen
    rw [if_neg announces]
    dsimp only
    by_cases empty : body = []
    · rw [if_pos empty]
      dsimp only
      have more : ¬ announced = body.length := by
        rw [empty]
        exact announces
      rw [if_neg more]
      exact ⟨_, rfl, @AtHand.busy _ req hands true placed
        (told.imp_right fun telling => ⟨rfl, telling⟩)⟩
    · rw [if_neg empty]
      exact hands.deliver placed told _ body

/-- A portion of the response comes. -/
theorem respReadCb (sound : client.Sound) (held : client.Held req) {read : List UInt8}
    (reads : read ≠ []) :
    ∃ after, client.respReadCb page req read = some after ∧ after.Sound := by
  let record : Req := { client.reqs req with
    bytesReceived := (client.reqs req).bytesReceived + read.length }
  have known : (client.setReq req record).reqs req = record := Function.update_self _ _ _
  by_cases failed : (client.reqs req).connErr = true
  · rw [respReadCb_failed failed held.1 reads]
    exact ⟨_, rfl, @carryOn _ req sound failed held.1 record rfl rfl failed _ _⟩
  · obtain ⟨hand, place, told⟩ := sound.at_work held (Bool.eq_false_iff.mpr failed)
    have placed : ((client.setReq req record).reqs req).At false true := by
      rw [known]
      exact ⟨place.created, place.live, place.queued, place.wkr, place.usingWkr, place.connErr⟩
    unfold Client.respReadCb
    rw [if_neg reads]
    exact (hand.setReq record).deliver placed told _ read

/-! ### Every callback -/

theorem stepParser {event : Event} (sound : client.Sound) (executing : client.executing = true)
    (clean : Clean event client) :
    ∃ after, client.stepParser page event = some after ∧ after.Sound := by
  unfold Client.stepParser
  cases event with
  | start =>
      dsimp only
      split
      · next between => exact ⟨_, rfl, sound.newReqCb executing between⟩
      · exact ⟨_, rfl, sound⟩
  | headers app => exact sound.resolve executing app
  | tempFail =>
      dsimp only
      unfold Client.parse
      rw [clean.temp rfl executing]
      exact ⟨_, rfl, sound⟩
  | reject status =>
      apply sound.parse executing
      intro req opened own owed current text place ready others
      obtain ⟨after, same, kept, -⟩ := @reqInvalid page _ req sound status opened own (.inl owed)
        (sound.parsing_number text) false place ready others
      exact ⟨after, same, kept⟩
  | finish keepAlive room taken =>
      dsimp only
      split
      · exact ⟨_, rfl, sound⟩
      · exact sound.endRequest executing keepAlive room taken
  | consumed => exact ⟨_, rfl, sound.consumed⟩
  | parseError => exact sound.parseErrCb executing (clean.parser rfl executing)
  | _ => exact ⟨_, rfl, sound⟩

theorem stepOther {event : Event} (sound : client.Sound) (idle : client.executing = false)
    (clean : Clean event client) :
    ∃ after, client.stepOther serverKeepAlive page event = some after ∧ after.Sound := by
  have dies : ∀ req, event.Kills client req →
      ∃ after, client.wkrFree page req = some after ∧ after.Sound := by
    intro req kills
    obtain ⟨intact, untold⟩ := clean.worker req kills
    exact sound.wkrFree kills.2.1 intact untold
  unfold Client.stepOther
  cases event with
  | readable =>
      refine ⟨_, rfl, ?_⟩
      split
      · next reads =>
          obtain ⟨opened, reading⟩ := Bool.and_eq_true_iff.mp reads
          exact sound.readable opened reading
      · exact sound
  | written =>
      refine ⟨_, rfl, ?_⟩
      split
      · next due => exact sound.written due.1 idle
      · exact sound
  | lost =>
      refine ⟨_, rfl, ?_⟩
      split
      · next due => exact sound.close due.1 idle
      · exact sound
  | timeout =>
      dsimp only
      split
      · next opened => exact sound.timeoutCb opened idle
      · exact ⟨_, rfl, sound⟩
  | taken req =>
      refine ⟨_, rfl, ?_⟩
      split
      · next waits => exact sound.take waits
      · exact sound
  | head req announced body =>
      dsimp only
      split
      · next due =>
          by_cases announces : announced = 0
          · unfold Client.setRespLen
            rw [if_pos announces]
            exact dies req ⟨idle, due.1, rfl, due.2, announces⟩
          · exact sound.setRespLen due.1 announces body
      · exact ⟨_, rfl, sound⟩
  | part req read =>
      dsimp only
      split
      · next due =>
          by_cases reads : read = []
          · unfold Client.respReadCb
            rw [if_pos reads]
            exact dies req ⟨idle, due.1, rfl, due.2, reads⟩
          · exact sound.respReadCb due.1 reads
      · exact ⟨_, rfl, sound⟩
  | death req =>
      dsimp only
      split
      · next held => exact dies req ⟨idle, held, rfl⟩
      · exact ⟨_, rfl, sound⟩
  | removed req =>
      dsimp only
      split
      · next waits => exact sound.appFree waits
      · exact ⟨_, rfl, sound⟩
  | _ => exact ⟨_, rfl, sound⟩

theorem step (event : Event) (client : Client) (sound : client.Sound)
    (clean : Clean event client) :
    ∃ after, client.step serverKeepAlive page event = some after ∧ after.Sound := by
  unfold Client.step
  cases executing : client.executing with
  | true => exact sound.stepParser executing clean
  | false => exact sound.stepOther executing clean

end Sound

theorem accepted_sound : accepted.Sound where
  intact := ⟨List.isChain_nil, List.prefix_rfl, fun _ => ⟨rfl, rfl⟩⟩
  sane := fun _ => ⟨rfl, rfl⟩
  shut := nofun
  below := nofun
  newest := nofun
  answered := fun _ _ created => nomatch created
  stage := .idle rfl rfl rfl rfl nofun fun _ => rfl

/-! ### What an error does to the stream -/

theorem Conn.release_pieces (conn : Conn) : conn.release.pieces = conn.pieces := by
  unfold Conn.release
  dsimp only
  split <;> rfl

theorem reqFree_pieces (ran : client.reqFree req = some after) :
    after.conn.pieces = client.conn.pieces := by
  unfold reqFree at ran
  split at ran
  · split at ran
    · cases ran
      rfl
    · split at ran
      · exact nomatch ran
      · cases ran
        exact client.conn.release_pieces
  · exact nomatch ran

theorem dropRequest_pieces (ran : client.dropRequest = some after) :
    after.conn.pieces = client.conn.pieces := by
  unfold dropRequest at ran
  split at ran
  · exact nomatch ran
  · split at ran
    · cases ran
      rfl
    · split at ran
      · split at ran
        · cases ran
          rfl
        · exact (reqFree_pieces ran).trans rfl
      · exact nomatch ran

/-- The page is added to an open connection whatever becomes of the request. -/
theorem errResp_pieces {owner : Nat} {status : Status} (kept : client.conn.freed = false)
    (unclosed : client.conn.isClosed = false)
    (ran : client.errResp page owner status = some after) :
    after.conn.pieces = client.conn.pieces ++
      [Piece.mk owner .error (page client.conn.pieces.length status)] := by
  unfold errResp at ran
  rw [@Conn.respBodyAdd_open { client.conn with keepAlive := false } kept unclosed] at ran
  obtain ⟨toWrite, writes, added⟩ := Conn.add_eq { client.conn with keepAlive := false }
    ⟨owner, .error, page client.conn.pieces.length status⟩
  rw [added] at ran
  exact dropRequest_pieces ran

/-- A page for a request that has a response, or part of one, does not fit into the stream. -/
theorem spoils {owner : Nat} {status : Status} (kept : client.conn.freed = false)
    (unclosed : client.conn.isClosed = false)
    (ran : client.errResp page owner status = some after) (intact : after.Integrity) :
    ∀ piece ∈ client.conn.pieces, piece.owner ≠ owner := by
  intro piece member same
  have framed := intact.conn.framed
  rw [errResp_pieces kept unclosed ran] at framed
  exact not_framed ⟨piece, member, same⟩ framed

/-- A step after which the stream is intact was no such error. -/
theorem Sound.clean_of_intact (event : Event) (client after : Client) (sound : client.Sound)
    (stepped : client.step serverKeepAlive page event = some after) (intact : after.Integrity) :
    Clean event client where
  temp := by
    rintro rfl executing
    unfold Client.step at stepped
    rw [executing, if_pos rfl] at stepped
    unfold Client.stepParser Client.parse at stepped
    dsimp only at stepped
    split at stepped
    · exact nomatch stepped
    · next none => exact none
  parser := by
    rintro rfl executing
    obtain ⟨kept, unclosed⟩ := sound.sane (sound.executing_opened executing)
    have unfreed : ¬ client.conn.freed = true := fun freed => nomatch kept.symm.trans freed
    unfold Client.step at stepped
    rw [executing, if_pos rfl] at stepped
    unfold Client.stepParser Client.parseErrCb Client.reqInvalid at stepped
    dsimp only at stepped
    rw [if_neg unfreed] at stepped
    have untold := fun kept unclosed => spoils kept unclosed stepped intact
    exact untold kept unclosed
  worker := by
    intro req kills
    rw [kills_step kills] at stepped
    unfold Client.wkrFree at stepped
    have untold : client.conn.opened = true →
        ∀ piece ∈ client.conn.pieces, piece.owner ≠ req := by
      intro opened
      obtain ⟨kept, unclosed⟩ := sound.sane opened
      have spoilt := fun kept unclosed => spoils kept unclosed stepped intact
      exact spoilt kept unclosed
    refine ⟨?_, untold⟩
    by_contra failed
    have fails := Bool.of_not_eq_false failed
    rcases sound.stranded fails kills.2.1.1 with ⟨opened, created⟩ | freed
    · obtain ⟨piece, member, owner, -⟩ := sound.answered opened req created (.inr fails)
      exact untold opened piece member owner
    · unfold Client.errResp Conn.respBodyAdd setReq at stepped
      dsimp only at stepped
      rw [if_pos freed] at stepped
      exact nomatch stepped

/-! ### Runs -/

/-- In every state of the run the stream is intact, and the run has all its states. -/
def StreamIntact (serverKeepAlive : Bool) (page : Nat → Status → List UInt8)
    (input : Nat → Event) : Prop :=
  ∀ count, ∃ client, Client.after serverKeepAlive page input count = some client ∧
    client.Integrity

/-- No error strikes a response of which something was handed over. -/
def Orderly (serverKeepAlive : Bool) (page : Nat → Status → List UInt8)
    (input : Nat → Event) : Prop :=
  ∀ count client, Client.after serverKeepAlive page input count = some client →
    Clean (input count) client

theorem stream_intact_iff (serverKeepAlive : Bool) (page : Nat → Status → List UInt8)
    (input : Nat → Event) :
    StreamIntact serverKeepAlive page input ↔ Orderly serverKeepAlive page input :=
  Machine.attempt_safe_iff Sound Integrity Clean accepted_sound (fun _ sound => sound.integrity)
    Sound.step Sound.clean_of_intact

/-- A worker hands three of ten bytes of its response over, and dies. -/
def brokenInput : Nat → Event
  | 0 => .readable
  | 1 => .start
  | 2 => .headers true
  | 3 => .finish true true true
  | 4 => .consumed
  | 5 => .head 0 10 [72, 84, 84]
  | _ => .death 0

theorem stream_not_intact : ¬ StreamIntact true (fun _ _ => [0]) brokenInput := by
  intro intact
  obtain ⟨client, reached, whole⟩ := intact 7
  have pieces : (Client.after true (fun _ _ => [0]) brokenInput 7).map (·.conn.pieces) =
      some [⟨0, .part, [72, 84, 84]⟩, ⟨0, .error, [0]⟩] := by
    decide +kernel
  rw [reached] at pieces
  have same : client.conn.pieces = [⟨0, .part, [72, 84, 84]⟩, ⟨0, .error, [0]⟩] :=
    Option.some.inj pieces
  have framed := whole.conn.framed
  rw [same] at framed
  exact (List.isChain_cons_cons.mp framed).1.2 rfl

end Client
