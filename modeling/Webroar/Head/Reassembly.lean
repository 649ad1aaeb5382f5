import Mathlib
import Webroar.Head.Response
import Webroar.Worker.Response

/-! # When a response reaches the connection

The first callback counts only the bytes of its latest read. It therefore reads the block, and
with it the payload, right exactly when the first read takes the whole block, and the parser
then loses a payload prefix of a single byte. This module shows both directions: from such a
first read every way of cutting the rest passes the payload on, and without it a block without
inner commas never does.
-/

namespace Response

open Decimal (sizeSub sizeSub_of_le)
open Scgi (Clean frame latest contentLengthName)

variable {junk : Nat → UInt8} {items : List Scgi.Entry} {payload : List UInt8}
  {grants : Nat → Nat}

/-- The first read takes the whole block and not exactly one payload byte, and the declared
length is read as the length of the payload. -/
def WholeFirst (items : List Scgi.Entry) (payload : List UInt8) (grants : Nat → Nat) : Prop :=
  declared items = payload.length ∧
    (frame items).length ≤ firstRead (frame items ++ payload) grants ∧
    firstRead (frame items ++ payload) grants ≠ (frame items).length + 1

instance : Decidable (WholeFirst items payload grants) :=
  inferInstanceAs (Decidable (_ ∧ _ ∧ _))

/-- The first event when its read takes the whole block and `count` payload bytes. -/
theorem first_event (junk : Nat → UInt8) (clean : Clean items) (fits : (frame items).length ≤ respBufSize)
    (positive : 0 < payload.length) {count : Nat}
    (taken : firstRead (frame items ++ payload) grants = (frame items).length + count) :
    ∃ scgi, Accepted (start junk (frame items ++ payload))
        (after junk (frame items ++ payload) grants 1) scgi (declared items) ∧
      (after junk (frame items ++ payload) grants 1).pending = payload.drop count ∧
      scgi.body.getD [] = (if count = 1 then [] else payload.take count) ∧
      count ≤ payload.length := by
  have bound : count ≤ payload.length := by
    rw [firstRead, List.length_append] at taken
    omega
  have some : frame items ++ payload ≠ [] := by
    intro empty
    have none := congrArg List.length empty
    rw [List.length_append, List.length_nil] at none
    omega
  have limit : min (grants 0) (respBufSize - 0) = firstRead (frame items ++ payload) grants ∨
      (frame items ++ payload).length ≤ min (grants 0) (respBufSize - 0) ∧
        firstRead (frame items ++ payload) grants = (frame items ++ payload).length := by
    rw [firstRead]
    omega
  have read : Stream.recv (frame items ++ payload) (grants 0) (respBufSize - 0) =
      frame items ++ payload.take count := by
    rw [Stream.recv]
    rcases limit with exact | ⟨all, exact⟩
    · rw [exact, taken, List.take_length_add_append]
    · rw [List.take_of_length_le all]
      have whole : count = payload.length := by
        rw [exact, List.length_append] at taken
        omega
      rw [whole, List.take_length]
  have rest : Stream.rest (frame items ++ payload) (grants 0) (respBufSize - 0) =
      payload.drop count := by
    have joined := Stream.recv_append_rest (frame items ++ payload) (grants 0) (respBufSize - 0)
    rw [read, List.append_assoc] at joined
    have same := List.append_cancel_left joined
    have split := List.take_append_drop count payload
    exact List.append_cancel_left (same.trans split.symm)
  have nonempty : frame items ++ payload.take count ≠ [] := by
    intro empty
    have none := congrArg List.length empty
    rw [List.length_append, Scgi.length_frame, List.length_nil] at none
    omega
  obtain ⟨scgi, parsed, back⟩ := Scgi.parse_frame items (payload.take count) clean
    (lt_of_le_of_lt fits (by decide))
  have buffered : Scgi.parse (((start junk (frame items ++ payload)).respBuf.write
      (start junk (frame items ++ payload)).bytesReceived
      (frame items ++ payload.take count)).slice 0 (frame items ++ payload.take count).length) =
        .some scgi := by
    rw [← parsed, show (start junk (frame items ++ payload)).bytesReceived = 0 from rfl,
      Block.slice_write_self]
  have reading : Stream.recv (start junk (frame items ++ payload)).pending (grants 0)
      (respBufSize - (start junk (frame items ++ payload)).bytesReceived) =
        frame items ++ payload.take count := read
  obtain ⟨accepted, left⟩ := respLenReadCb_some reading nonempty rfl buffered
  have number : Decimal.toSize (headerNumber scgi contentLengthName) = declared items := by
    rw [headerNumber, back.holds.headerValueGet fun item member => (clean item member).2]
    rfl
  have first : after junk (frame items ++ payload) grants 1 =
      respLenReadCb (grants 0) (start junk (frame items ++ payload)) := by
    rw [after_succ]
    exact event_start some
  rw [first, ← number]
  refine ⟨scgi, accepted, left.trans rest, ?_, bound⟩
  have length : (payload.take count).length = count := List.length_take_of_le bound
  rw [back.body, length]
  by_cases one : count = 1
  · subst one
    rfl
  · by_cases many : 2 ≤ count
    · rw [if_pos many, if_neg one, Option.getD_some]
    · have none : count = 0 := by omega
      subst none
      rfl

/-! ### Reading the payload -/

/-- The payload callback is registered and what was received has been passed on. -/
structure Reading (resp : Response) (payload : List UInt8) : Prop where
  reader : resp.reader = .body
  connErr : resp.connErr = false
  length : resp.respBufLen = payload.length
  missing : resp.bytesReceived < payload.length
  passed : delivered resp.log = payload.take resp.bytesReceived
  pending : resp.pending = payload.drop resp.bytesReceived
  unfinished : resp.log.count .reqProcessed = 0

/-- The whole payload has been passed on and the request has ended. -/
structure Finished (resp : Response) (payload : List UInt8) : Prop where
  reader : resp.reader = .stopped
  passed : delivered resp.log = payload
  ended : resp.log.count .reqProcessed = 1

/-- An event while the payload is read passes more of it on, and the request ends with the last
byte. -/
theorem Reading.event {resp : Response} {available : Nat} (reading : Reading resp payload)
    (arrived : 0 < available) (sized : payload.length < 2 ^ 64) :
    (Reading (resp.event available) payload ∨ Finished (resp.event available) payload) ∧
      (resp.event available).pending.length < resp.pending.length := by
  obtain ⟨reader, connErr, length, missing, passed, pending, unfinished⟩ := reading
  have left : resp.pending.length = payload.length - resp.bytesReceived := by
    rw [pending, List.length_drop]
  have some : resp.pending ≠ [] := by
    intro empty
    rw [empty, List.length_nil] at left
    omega
  generalize measured : min respBufSize (sizeSub resp.respBufLen resp.bytesReceived) = limit
  have exact : limit = min respBufSize (payload.length - resp.bytesReceived) := by
    rw [← measured, length, sizeSub_of_le (Nat.le_of_lt missing) sized]
  have room : 0 < limit := by
    have size : 0 < respBufSize := by decide
    omega
  have got := Stream.length_recv_pos some arrived room
  have bound := Stream.length_recv resp.pending available limit
  have taken := Stream.recv_eq_take resp.pending available limit
  have skipped := Stream.rest_eq_drop resp.pending available limit
  have called : resp.event available = respReadCb available resp := by
    rw [Response.event, if_neg some, reader]
  obtain ⟨kept, sameLength, received, rest, added, ended⟩ :=
    respReadCb_spec connErr measured.symm rfl (List.ne_nil_of_length_pos got)
  rw [called]
  rw [skipped] at rest
  generalize Stream.recv resp.pending available limit = read at *
  have advanced : delivered (respReadCb available resp).log =
      payload.take (resp.bytesReceived + read.length) := by
    have tail : read = (payload.drop resp.bytesReceived).take read.length := by
      rw [← pending]
      exact taken
    rw [added, passed, List.take_add, ← tail]
  have dropped : (respReadCb available resp).pending =
      payload.drop (resp.bytesReceived + read.length) := by
    rw [rest, pending, List.drop_drop]
  refine ⟨?_, by rw [rest, List.length_drop]; omega⟩
  by_cases whole : resp.respBufLen ≤ resp.bytesReceived + read.length
  · rw [if_pos whole] at ended
    refine Or.inr ⟨ended.1, ?_, by rw [ended.2, unfinished]⟩
    rw [advanced, List.take_of_length_le (by omega)]
  · rw [if_neg whole] at ended
    refine Or.inl ⟨by rw [ended.1, reader], kept, by rw [sameLength, length], ?_, ?_, ?_, ?_⟩
    · omega
    · rw [advanced, received]
    · rw [dropped, received]
    · rw [ended.2, unfinished]

/-- From a first read that takes the whole block and not one payload byte, every way of cutting
the rest of the stream reassembles the payload. -/
theorem reassembled_of_wholeFirst (junk : Nat → UInt8) (clean : Clean items)
    (fits : (frame items).length ≤ respBufSize) (positive : 0 < payload.length)
    (arriving : ∀ count, 0 < grants count) (whole : WholeFirst items payload grants) :
    Reassembled junk (frame items ++ payload) payload grants := by
  obtain ⟨length, reached, notOne⟩ := whole
  have sized : payload.length < 2 ^ 64 := by
    rw [← length]
    exact Decimal.toSize_lt _
  obtain ⟨count, taken⟩ : ∃ count, firstRead (frame items ++ payload) grants =
      (frame items).length + count := ⟨_, (Nat.add_sub_cancel' reached).symm⟩
  obtain ⟨scgi, accepted, rest, body, bound⟩ :=
    first_event junk clean fits positive taken
  have notSingle : count ≠ 1 := by omega
  rw [if_neg notSingle] at body
  have nonzero : declared items ≠ 0 := by omega
  have held : scgi.bodyLength = count := by
    rw [Scgi.bodyLength, body, List.length_take_of_le bound]
  -- After the first event the payload is being read, or was passed on as a whole.
  have begun : Reading (after junk (frame items ++ payload) grants 1) payload ∨
      Finished (after junk (frame items ++ payload) grants 1) payload := by
    have passed := accepted.passed nonzero
    rw [show (start junk (frame items ++ payload)).log = [] from rfl, delivered_nil,
      List.nil_append, body] at passed
    by_cases all : declared items = scgi.bodyLength
    · obtain ⟨stopped, once⟩ := accepted.whole nonzero all
      refine Or.inr ⟨stopped, ?_, once⟩
      rw [passed, List.take_of_length_le (by omega)]
    · obtain ⟨reader, none⟩ := accepted.partial' nonzero all
      obtain ⟨sameLength, received⟩ := accepted.counts nonzero
      rw [held] at received
      exact Or.inl ⟨reader, accepted.connErr, sameLength.trans length, by omega,
        by rw [passed, received], by rw [rest, received], none⟩
  have later (n : Nat) : Machine.after event (fun n => grants (1 + n))
      (after junk (frame items ++ payload) grants 1) n =
        after junk (frame items ++ payload) grants (1 + n) :=
    (Machine.after_add 1 n).symm
  have finishes := Machine.reaches
    (fun resp => Reading resp payload ∨ Finished resp payload) (fun resp => Finished resp payload)
    (fun resp => resp.pending.length) begun fun n resp inv goal =>
      (inv.resolve_right goal).event (arriving (1 + n)) sized
  simp only [later] at finishes
  obtain ⟨more, finished, reading, unfinished⟩ := finishes
  refine ⟨1 + more, fun n => ⟨fun before => ?_, fun past => ?_⟩⟩
  · cases n with
    | zero =>
        refine ⟨List.not_mem_nil, fun none => ?_⟩
        have empty := congrArg List.length none
        change 0 = payload.length at empty
        omega
    | succ n =>
        have at' := (reading n (by omega)).resolve_right (unfinished n (by omega))
        rw [Nat.add_comm n 1]
        refine ⟨List.count_eq_zero.mp at'.unfinished, fun none => ?_⟩
        have short := congrArg List.length none
        have missing := at'.missing
        rw [at'.passed, List.length_take] at short
        omega
  · have stays : Finished (after junk (frame items ++ payload) grants n) payload :=
      Machine.invariant_from (fun resp => Finished resp payload) finished
        (fun _ _ ended => by rwa [event_stopped ended.reader]) n past
    exact ⟨stays.ended, stays.passed⟩

/-! ### Responses that are not reassembled -/

/-- Too few bytes are left to pass the payload on, or nothing more is passed on. -/
def Lost (payload : List UInt8) (resp : Response) : Prop :=
  (resp.reader ≠ .header ∧ resp.connErr = false ∧ budget resp < payload.length) ∨
    (resp.reader = .stopped ∧ delivered resp.log ≠ payload)

theorem Lost.event {resp : Response} (lost : Lost payload resp) (available : Nat) :
    Lost payload (resp.event available) := by
  rcases lost with ⟨past, listening, short⟩ | ⟨stopped, other⟩
  · obtain ⟨stillPast, kept, less⟩ := event_past available listening past
    exact Or.inl ⟨stillPast, kept, lt_of_le_of_lt less short⟩
  · rw [event_stopped stopped]
    exact Or.inr ⟨stopped, other⟩

theorem Lost.delivered_ne {resp : Response} (lost : Lost payload resp) :
    delivered resp.log ≠ payload := by
  rcases lost with ⟨-, -, short⟩ | ⟨-, other⟩
  · rintro same
    rw [budget, same] at short
    omega
  · exact other

/-- A response that is lost at some point is not reassembled. -/
theorem not_reassembled_of_lost {stream : List UInt8} (point : Nat)
    (lost : Lost payload (after junk stream grants point)) :
    ¬ Reassembled junk stream payload grants := by
  rintro ⟨last, run⟩
  have stays : Lost payload (after junk stream grants (max point last)) :=
    Machine.invariant_from (Lost payload) lost (fun _ _ here => here.event _) _
      (Nat.le_max_left _ _)
  exact stays.delivered_ne ((run (max point last)).2 (Nat.le_max_right _ _)).2

/-- A single payload byte in the first read is lost. -/
theorem not_reassembled_of_one (clean : Clean items)
    (fits : (frame items).length ≤ respBufSize) (positive : 0 < payload.length)
    (one : firstRead (frame items ++ payload) grants = (frame items).length + 1) :
    ¬ Reassembled junk (frame items ++ payload) payload grants := by
  obtain ⟨scgi, accepted, rest, body, bound⟩ :=
    first_event junk clean fits positive one
  rw [if_pos rfl] at body
  refine not_reassembled_of_lost 1 (Or.inl ⟨accepted.pastHeader, accepted.connErr, ?_⟩)
  have nothing : delivered (after junk (frame items ++ payload) grants 1).log = [] := by
    by_cases zero : declared items = 0
    · rw [(accepted.refused zero).2]
      rfl
    · rw [accepted.passed zero, body]
      rfl
  rw [budget, nothing, rest, List.length_drop, List.length_nil]
  omega

/-- A payload is being read under a length that is not its own. -/
structure Misread (resp : Response) (payload : List UInt8) : Prop where
  connErr : resp.connErr = false
  other : resp.respBufLen ≠ payload.length
  sized : resp.respBufLen < 2 ^ 64
  state : (resp.reader = .body ∧ resp.log.count .reqProcessed = 0 ∧
      (delivered resp.log).length = resp.bytesReceived ∧
      (resp.bytesReceived < resp.respBufLen ∨ resp.bytesReceived ≤ respBufSize)) ∨
    (resp.reader = .stopped ∧
      (resp.log.count .reqProcessed = 0 ∨ (delivered resp.log).length ≠ payload.length))

theorem Misread.event {resp : Response} (misread : Misread resp payload) (available : Nat)
    (long : 2 ^ 31 ≤ payload.length) : Misread (resp.event available) payload := by
  obtain ⟨connErr, other, sized, state⟩ := misread
  rcases state with ⟨reader, none, passed, counts⟩ | ⟨stopped, wrong⟩
  · by_cases empty : resp.pending = []
    · have idle : resp.event available = resp := if_pos empty
      rw [idle]
      exact ⟨connErr, other, sized, Or.inl ⟨reader, none, passed, counts⟩⟩
    have called : resp.event available = respReadCb available resp := by
      rw [Response.event, if_neg empty, reader]
    generalize measured : min respBufSize (sizeSub resp.respBufLen resp.bytesReceived) = limit
    have size : respBufSize = 65536 := rfl
    have bound := Stream.length_recv resp.pending available limit
    rw [called]
    by_cases nothing : Stream.recv resp.pending available limit = []
    · rw [respReadCb_nothing measured.symm nothing]
      refine ⟨connErr, other, sized, Or.inr ⟨rfl, Or.inl ?_⟩⟩
      simp only [wkrFailed, List.count_append, none, Nat.zero_add]
      rfl
    · obtain ⟨kept, sameLength, received, -, added, ended⟩ :=
        respReadCb_spec connErr measured.symm rfl nothing
      refine ⟨kept, sameLength ▸ other, sameLength ▸ sized, ?_⟩
      have total : (delivered (respReadCb available resp).log).length =
          resp.bytesReceived + (Stream.recv resp.pending available limit).length := by
        rw [added, List.length_append, passed]
      by_cases whole : resp.respBufLen ≤
          resp.bytesReceived + (Stream.recv resp.pending available limit).length
      · rw [if_pos whole] at ended
        refine Or.inr ⟨ended.1, Or.inr ?_⟩
        rw [total]
        -- A read never passes the declared length, unless the first one already did.
        rcases counts with less | small
        · rw [sizeSub_of_le (Nat.le_of_lt less) sized] at measured
          omega
        · omega
      · rw [if_neg whole] at ended
        refine Or.inl ⟨ended.1.trans reader, ended.2.trans none, ?_, ?_⟩
        · rw [total, received]
        · rw [received, sameLength]
          omega
  · rw [event_stopped stopped]
    exact ⟨connErr, other, sized, Or.inr ⟨stopped, wrong⟩⟩

/-- A declared length that the head reads as another number is not reassembled, even after a
first read of the whole block. -/
theorem not_reassembled_of_declared (clean : Clean items)
    (fits : (frame items).length ≤ respBufSize) (positive : 0 < payload.length)
    (reached : (frame items).length ≤ firstRead (frame items ++ payload) grants)
    (other : declared items ≠ payload.length) (long : 2 ^ 31 ≤ payload.length) :
    ¬ Reassembled junk (frame items ++ payload) payload grants := by
  obtain ⟨count, taken⟩ : ∃ count, firstRead (frame items ++ payload) grants =
      (frame items).length + count := ⟨_, (Nat.add_sub_cancel' reached).symm⟩
  obtain ⟨scgi, accepted, rest, body, bound⟩ :=
    first_event junk clean fits positive taken
  have short : count ≤ respBufSize := by
    rw [firstRead] at taken
    omega
  have held : scgi.bodyLength ≤ respBufSize := by
    rw [Scgi.bodyLength, body]
    split
    · exact Nat.zero_le _
    · rw [List.length_take]
      omega
  have nothing : delivered (start junk (frame items ++ payload)).log = [] := rfl
  by_cases zero : declared items = 0
  · obtain ⟨stopped, log⟩ := accepted.refused zero
    refine not_reassembled_of_lost 1 (Or.inr ⟨stopped, ?_⟩)
    rw [log, delivered_append, nothing]
    exact fun empty => absurd (congrArg List.length empty) (Nat.ne_of_lt positive)
  have passed := accepted.passed zero
  rw [nothing, List.nil_append] at passed
  by_cases whole : declared items = scgi.bodyLength
  · obtain ⟨stopped, -⟩ := accepted.whole zero whole
    refine not_reassembled_of_lost 1 (Or.inr ⟨stopped, fun same => other ?_⟩)
    rw [whole, Scgi.bodyLength, ← passed, same]
  · obtain ⟨reader, none⟩ := accepted.partial' zero whole
    obtain ⟨sameLength, received⟩ := accepted.counts zero
    have misread : Misread (after junk (frame items ++ payload) grants 1) payload := by
      refine ⟨accepted.connErr, sameLength ▸ other, ?_, Or.inl ⟨reader, none, ?_, Or.inr ?_⟩⟩
      · rw [sameLength]
        exact Decimal.toSize_lt _
      · rw [passed, received, Scgi.bodyLength]
      · rw [received]
        exact held
    rintro ⟨last, run⟩
    have stays : Misread (after junk (frame items ++ payload) grants (max 1 last)) payload :=
      Machine.invariant_from (fun resp => Misread resp payload) misread
        (fun _ _ here => here.event _ long) _ (Nat.le_max_left _ _)
    obtain ⟨once, all⟩ := (run (max 1 last)).2 (Nat.le_max_right _ _)
    rcases stays.state with ⟨-, zero', -, -⟩ | ⟨-, zero' | wrong⟩
    · omega
    · omega
    · exact wrong (congrArg List.length all)

/-- No comma of a stream stands before the one that ends its block. -/
def LateCommas (block payload : List UInt8) : Prop :=
  ∀ i : Nat, (block ++ payload)[i]? = some 44 → block.length ≤ i + 1

/-- The block is being collected after a first read that did not take all of it: a comma in the
bytes the next parse may see stands too far back for the payload behind it. -/
structure Behind (resp : Response) (stream : List UInt8) (block : Nat) (taken : Nat) : Prop where
  reader : resp.reader = .header
  connErr : resp.connErr = false
  passed : delivered resp.log = []
  counted : 0 < resp.bytesReceived
  within : resp.bytesReceived ≤ taken
  total : taken ≤ stream.length
  pending : resp.pending = stream.drop taken
  commas : ∀ i < resp.bytesReceived, resp.respBuf.cell i = 44 →
    block ≤ i + (taken - resp.bytesReceived)

/-- A comma in the buffer after a further read stands behind the block by what was taken
before. -/
theorem Behind.comma {resp : Response} {block payload : List UInt8} {taken : Nat}
    (behind : Behind resp (block ++ payload) block.length taken) (late : LateCommas block payload)
    {read : List UInt8} (got : read = ((block ++ payload).drop taken).take read.length)
    {i : Nat} (inside : i < read.length)
    (comma : (resp.respBuf.write resp.bytesReceived read).cell i = 44) :
    block.length ≤ i + taken := by
  have counted := behind.counted
  have within := behind.within
  simp only [Block.write] at comma
  split at comma
  · next later =>
      cases found : read[i - resp.bytesReceived]? with
      | none =>
          have past := List.getElem?_eq_none_iff.mp found
          omega
      | some byte =>
          rw [found, Option.getD_some] at comma
          subst comma
          rw [got, List.getElem?_take, List.getElem?_drop] at found
          split at found
          · have ends := late _ found
            omega
          · cases found
  · next earlier =>
      have bound := behind.commas i (by omega) comma
      omega

/-- The parser sees the cells of the buffer. -/
theorem cell_of_slice {block : Block UInt8} {length i : Nat} {byte : UInt8}
    (found : (block.slice 0 length)[i]? = some byte) : i < length ∧ block.cell i = byte := by
  obtain ⟨inside, value⟩ := List.getElem?_eq_some_iff.mp found
  rw [Block.length_slice] at inside
  refine ⟨inside, ?_⟩
  simpa [Block.slice] using value

/-- A further read of the block leaves it behind, or the response is lost. -/
theorem Behind.event {resp : Response} {block payload : List UInt8} {taken : Nat}
    (behind : Behind resp (block ++ payload) block.length taken) (late : LateCommas block payload)
    (positive : 0 < payload.length) (available : Nat) :
    (∃ more, Behind (resp.event available) (block ++ payload) block.length more) ∨
      Lost payload (resp.event available) := by
  have counted := behind.counted
  have within := behind.within
  have total := behind.total
  by_cases empty : resp.pending = []
  · have idle : resp.event available = resp := if_pos empty
    rw [idle]
    exact Or.inl ⟨taken, behind⟩
  have called : resp.event available = respLenReadCb available resp := by
    rw [Response.event, if_neg empty, behind.reader]
  rw [called]
  have got := Stream.recv_eq_take resp.pending available (respBufSize - resp.bytesReceived)
  have skipped := Stream.rest_eq_drop resp.pending available (respBufSize - resp.bytesReceived)
  have bound := Stream.length_recv resp.pending available (respBufSize - resp.bytesReceived)
  have left : resp.pending.length = (block ++ payload).length - taken := by
    rw [behind.pending, List.length_drop]
  by_cases nothing :
      Stream.recv resp.pending available (respBufSize - resp.bytesReceived) = []
  · rw [respLenReadCb_nothing nothing]
    refine Or.inr (Or.inr ⟨rfl, fun same => ?_⟩)
    have none : delivered resp.wkrFailed.log = [] := by
      simp [wkrFailed, behind.passed]
    rw [none] at same
    rw [← same, List.length_nil] at positive
    omega
  have some := List.length_pos_of_ne_nil nothing
  generalize taking : Stream.recv resp.pending available (respBufSize - resp.bytesReceived) =
    read at *
  rw [behind.pending] at got
  cases parsed : Scgi.parse
      ((resp.respBuf.write resp.bytesReceived read).slice 0 read.length) with
  | none =>
      rw [respLenReadCb_none taking nothing parsed]
      refine Or.inl ⟨taken + read.length, ⟨behind.reader, behind.connErr, behind.passed, some,
        Nat.le_add_left _ _, by omega, ?_, ?_⟩⟩
      · rw [skipped, behind.pending, List.drop_drop]
      · intro i inside comma
        rw [Nat.add_sub_cancel]
        exact behind.comma late got inside comma
  | some scgi =>
      obtain ⟨accepted, rest⟩ := respLenReadCb_some taking nothing behind.connErr parsed
      obtain ⟨i, found, room⟩ := Scgi.parse_comma parsed
      obtain ⟨inside, comma⟩ := cell_of_slice found
      have place := behind.comma late got inside comma
      rw [Block.length_slice, Scgi.bodyLength] at room
      refine Or.inr (Or.inl ⟨accepted.pastHeader, accepted.connErr.trans behind.connErr, ?_⟩)
      have passed : (delivered (respLenReadCb available resp).log).length ≤
          (scgi.body.getD []).length := by
        by_cases zero : Decimal.toSize (headerNumber scgi contentLengthName) = 0
        · rw [(accepted.refused zero).2, delivered_append, behind.passed]
          exact Nat.zero_le _
        · rw [accepted.passed zero, behind.passed, List.nil_append]
      rw [budget, rest, skipped, List.length_drop]
      rw [List.length_append] at left total
      omega

/-- A first read that does not take the whole block loses the payload behind a block without
inner commas. -/
theorem not_reassembled_of_partial (fits : (frame items).length ≤ respBufSize)
    (positive : 0 < payload.length) (arriving : 0 < grants 0)
    (late : LateCommas (frame items) payload)
    (partial' : firstRead (frame items ++ payload) grants < (frame items).length) :
    ¬ Reassembled junk (frame items ++ payload) payload grants := by
  have nonempty : frame items ++ payload ≠ [] := by
    intro empty
    have none := congrArg List.length empty
    rw [List.length_append, List.length_nil] at none
    omega
  have started : after junk (frame items ++ payload) grants 1 =
      respLenReadCb (grants 0) (start junk (frame items ++ payload)) := by
    rw [after_succ]
    exact event_start nonempty
  have got := Stream.recv_eq_take (frame items ++ payload) (grants 0) (respBufSize - 0)
  have skipped := Stream.rest_eq_drop (frame items ++ payload) (grants 0) (respBufSize - 0)
  have bound := Stream.length_recv (frame items ++ payload) (grants 0) (respBufSize - 0)
  have room : 0 < respBufSize - 0 := by decide
  have some := Stream.length_recv_pos nonempty arriving room
  have short : (Stream.recv (frame items ++ payload) (grants 0) (respBufSize - 0)).length <
      (frame items).length := by
    rw [firstRead] at partial'
    omega
  generalize taking : Stream.recv (frame items ++ payload) (grants 0) (respBufSize - 0) = read
    at *
  have buffered : ∀ i < read.length,
      ((start junk (frame items ++ payload)).respBuf.write 0 read).cell i ≠ 44 := by
    intro i inside comma
    simp only [Block.write, Nat.zero_le, ↓reduceIte, Nat.sub_zero] at comma
    rw [List.getElem?_eq_getElem inside, Option.getD_some] at comma
    have found : (frame items ++ payload)[i]? = .some 44 := by
      have here : read[i]? = .some 44 := by rw [List.getElem?_eq_getElem inside, comma]
      rw [got, List.getElem?_take, if_pos inside] at here
      exact here
    have ends := late i found
    omega
  have unparsed : Scgi.parse (((start junk (frame items ++ payload)).respBuf.write
      (start junk (frame items ++ payload)).bytesReceived read).slice 0 read.length) = none := by
    cases parsed : Scgi.parse (((start junk (frame items ++ payload)).respBuf.write
      (start junk (frame items ++ payload)).bytesReceived read).slice 0 read.length) with
    | none => rfl
    | some scgi =>
        obtain ⟨i, found, -⟩ := Scgi.parse_comma parsed
        obtain ⟨inside, comma⟩ := cell_of_slice found
        exact absurd comma (buffered i inside)
  have behind : Behind (after junk (frame items ++ payload) grants 1) (frame items ++ payload)
      (frame items).length read.length := by
    have reading : Stream.recv (start junk (frame items ++ payload)).pending (grants 0)
        (respBufSize - (start junk (frame items ++ payload)).bytesReceived) = read := taking
    rw [started, respLenReadCb_none reading (List.ne_nil_of_length_pos some) unparsed]
    refine ⟨rfl, rfl, rfl, some, ?_, ?_, skipped, ?_⟩
    · exact Nat.le_refl read.length
    · rw [List.length_append]
      omega
    · intro i inside comma
      exact absurd comma (buffered i inside)
  rintro ⟨last, run⟩
  have stays : (∃ taken, Behind (after junk (frame items ++ payload) grants (max 1 last))
      (frame items ++ payload) (frame items).length taken) ∨
        Lost payload (after junk (frame items ++ payload) grants (max 1 last)) :=
    Machine.invariant_from
      (fun resp => (∃ taken, Behind resp (frame items ++ payload) (frame items).length taken) ∨
        Lost payload resp)
      (Or.inl ⟨_, behind⟩)
      (fun _ _ here => here.elim (Exists.elim · fun _ behind => behind.event late positive _)
        fun lost => Or.inr (lost.event _)) _ (Nat.le_max_left _ _)
  have all := ((run (max 1 last)).2 (Nat.le_max_right _ _)).2
  rcases stays with ⟨taken, behind⟩ | lost
  · rw [behind.passed] at all
    rw [← all, List.length_nil] at positive
    omega
  · exact lost.delivered_ne all

/-- A declared length below `2 ^ 31` is read as itself. -/
theorem declared_of_lt {length : Nat}
    (declares : latest items contentLengthName = some (Decimal.ofNat length))
    (small : length < 2 ^ 31) : declared items = length := by
  rw [declared, declares, Option.map_some, Option.getD_some, Decimal.atoi_ofNat small,
    Decimal.toSize_natCast (by omega)]

/-- A block without inner commas has no comma before its last byte, whatever follows it. -/
theorem lateCommas_frame (plain : (44 : UInt8) ∉ Scgi.encode items)
    (small : (Scgi.encode items).length < 2 ^ 31) : LateCommas (frame items) payload := by
  have front : (44 : UInt8) ∉
      Decimal.format (Scgi.encode items).length ++ 58 :: Scgi.encode items := by
    intro member
    rcases List.mem_append.mp member with number | rest
    · rw [Decimal.format_of_lt small] at number
      exact absurd (Decimal.isDigit_of_mem_ofNat number) (by decide)
    · rcases List.mem_cons.mp rest with colon | inside
      · exact absurd colon (by decide)
      · exact plain inside
  have shape : frame items =
      (Decimal.format (Scgi.encode items).length ++ 58 :: Scgi.encode items) ++ [44] := by
    rw [frame, List.append_assoc, List.cons_append]
  intro i found
  rw [shape] at found ⊢
  generalize Decimal.format (Scgi.encode items).length ++ 58 :: Scgi.encode items = text
    at front found
  rw [List.length_append, List.length_singleton]
  rw [List.append_assoc] at found
  by_contra early
  rw [List.getElem?_append_left (by omega)] at found
  exact front (List.mem_of_getElem? found)

/-- A response is reassembled when the first read takes its whole block and not exactly one
payload byte, whatever the later reads take. For a block without inner commas, as every block
of a worker is, this is also the only way. -/
theorem reassembled_iff (junk : Nat → UInt8) (clean : Clean items)
    (fits : (frame items).length ≤ respBufSize)
    (declares : latest items contentLengthName = some (Decimal.ofNat payload.length))
    (positive : 0 < payload.length) (arriving : ∀ count, 0 < grants count) :
    (WholeFirst items payload grants →
      Reassembled junk (frame items ++ payload) payload grants) ∧
    ((44 : UInt8) ∉ Scgi.encode items →
      (Reassembled junk (frame items ++ payload) payload grants ↔
        WholeFirst items payload grants)) := by
  have enough := reassembled_of_wholeFirst junk clean fits positive arriving
  refine ⟨enough, fun plain => ⟨fun reassembled => ?_, enough⟩⟩
  have reached : (frame items).length ≤ firstRead (frame items ++ payload) grants := by
    by_contra short
    refine not_reassembled_of_partial fits positive (arriving 0) ?_ (Nat.lt_of_not_le short)
      reassembled
    apply lateCommas_frame plain
    have size : respBufSize = 65536 := rfl
    rw [Scgi.length_frame] at fits
    omega
  refine ⟨?_, reached, fun one => not_reassembled_of_one clean fits positive one reassembled⟩
  by_contra other
  have long : 2 ^ 31 ≤ payload.length := by
    by_contra small
    exact other (declared_of_lt declares (Nat.lt_of_not_le small))
  exact not_reassembled_of_declared clean fits positive reached other long reassembled

/-- The worker's response `200` with a three byte body behind a nine byte header. -/
def sampleItems : List Scgi.Entry := Worker.respItems 200 3 9

def samplePayload : List UInt8 := ascii "A: bc\r\n\r\nhel"

theorem clean_sampleItems : Clean sampleItems := Worker.clean_respItems 200 3 9

theorem fits_sampleItems : (frame sampleItems).length ≤ respBufSize := by decide +kernel

theorem declares_sampleItems :
    latest sampleItems contentLengthName = some (Decimal.ofNat samplePayload.length) := by
  decide +kernel

theorem reassembled_iff_sample :
    Reassembled (fun _ => 0) (frame sampleItems ++ samplePayload) samplePayload fun _ => 70000 :=
  (reassembled_iff (fun _ => 0) clean_sampleItems fits_sampleItems declares_sampleItems
    (by decide) fun _ => by decide).1 (by decide +kernel)

/-- Reads of one byte each, and a first read that ends behind the first payload byte, lose that
response. -/
theorem reassembled_fails :
    (Clean sampleItems ∧ (frame sampleItems).length ≤ respBufSize ∧
      latest sampleItems contentLengthName = some (Decimal.ofNat samplePayload.length) ∧
      0 < samplePayload.length) ∧
    ¬ Reassembled (fun _ => 0) (frame sampleItems ++ samplePayload) samplePayload (fun _ => 1) ∧
    ¬ Reassembled (fun _ => 0) (frame sampleItems ++ samplePayload) samplePayload
      (fun _ => (frame sampleItems).length + 1) := by
  have plain : (44 : UInt8) ∉ Scgi.encode sampleItems := Worker.comma_not_mem_respItems 200 3 9
  have small : (Scgi.encode sampleItems).length < 2 ^ 31 := by decide +kernel
  refine ⟨⟨clean_sampleItems, fits_sampleItems, declares_sampleItems, by decide⟩, ?_, ?_⟩
  · exact not_reassembled_of_partial fits_sampleItems (by decide) (by decide)
      (lateCommas_frame plain small) (by decide +kernel)
  · exact not_reassembled_of_one clean_sampleItems fits_sampleItems (by decide)
      (by decide +kernel)

end Response
