import Webroar.Worker.HttpRequest

/-! # Receiving a header block

While a worker collects a block its buffer holds the stream so far. The number in front of the
colon gives the length of the block, and the block is parsed once all of it has come, as a whole
and nothing else. A block that does not fit the buffer never comes as a whole: the worker asks
for nothing and takes the head to be gone.
-/

namespace HttpReq

open Decimal (sizeSub)
open Scgi (Entry encode frame)

variable {items : List Entry} {rest : List UInt8} {req : HttpReq} {available : Nat}

/-- The bytes received so far are those of the stream. -/
structure Filled (req : HttpReq) (items : List Entry) (rest : List UInt8) : Prop where
  reader : req.reader = .header
  scgi : req.scgi = none
  file : req.file = none
  log : req.log = []
  filled : req.buf.slice 0 req.bytesRead = (frame items ++ rest).take req.bytesRead
  pending : req.pending = (frame items ++ rest).drop req.bytesRead
  within : req.bytesRead ≤ (frame items ++ rest).length
  room : req.bytesRead ≤ bufSize

/-- The block is being collected. -/
structure Collecting (req : HttpReq) (items : List Entry) (rest : List UInt8) : Prop
    extends req.Filled items rest where
  missing : req.bytesRead < (frame items).length
  length : req.scgiHeaderLen = 0 ∨ req.scgiHeaderLen = (frame items).length

/-- The block has come. -/
structure Collected (req : HttpReq) (items : List Entry) (rest : List UInt8) : Prop
    extends req.Filled items rest where
  reached : (frame items).length ≤ req.bytesRead
  length : req.scgiHeaderLen = (frame items).length

/-- The first colon of a frame is behind its number. -/
theorem frame_colon (items : List Entry) (rest : List UInt8)
    (small : (frame items).length < 2 ^ 31) :
    ∃ digits tail, frame items ++ rest = digits ++ 58 :: tail ∧
      (∀ byte ∈ digits, byte ≠ 58) ∧
      (∀ tail', Decimal.atoi (digits ++ 58 :: tail') = (encode items).length) ∧
      (frame items).length = digits.length + (encode items).length + 2 := by
  have measured := Scgi.length_frame items
  have counted : (encode items).length < 2 ^ 31 := by omega
  rw [Decimal.format_of_lt counted] at measured
  refine ⟨Decimal.ofNat (encode items).length, encode items ++ [44] ++ rest, ?_, ?_, ?_, ?_⟩
  · rw [frame, Decimal.format_of_lt counted, List.append_assoc, List.cons_append]
  · rintro byte member rfl
    exact absurd (Decimal.isDigit_of_mem_ofNat member) (by decide)
  · intro tail'
    exact Decimal.atoi_ofNat_append counted tail' (by decide)
  · omega

/-- The length of the block is found with its colon. -/
theorem Filled.headerLength (filled : req.Filled items rest)
    (small : (frame items).length < 2 ^ 31)
    (length : req.scgiHeaderLen = 0 ∨ req.scgiHeaderLen = (frame items).length) :
    req.headerLength = some (frame items).length ∨
      req.headerLength = none ∧ req.scgiHeaderLen = 0 ∧
        req.bytesRead < (frame items).length := by
  obtain ⟨digits, tail, shape, noColon, read, measured⟩ := frame_colon items rest small
  have within := filled.within
  unfold HttpReq.headerLength
  rcases length with unknown | known
  · rw [if_neg (by rw [unknown]; decide), filled.filled]
    simp only
    rw [shape] at within ⊢
    rw [List.length_append, List.length_cons] at within
    by_cases reached : digits.length < req.bytesRead
    · obtain ⟨more, exact⟩ : ∃ more, req.bytesRead = digits.length + (more + 1) :=
        ⟨req.bytesRead - digits.length - 1, by omega⟩
      have text : (digits ++ 58 :: tail).take req.bytesRead =
          digits ++ 58 :: tail.take more := by
        rw [exact, List.take_length_add_append, List.take_succ_cons]
      have colon : (digits ++ 58 :: tail.take more).findIdx (· = 58) = digits.length := by
        rw [List.findIdx_append, if_neg, List.findIdx_cons]
        · simp
        · rw [List.findIdx_lt_length]
          rintro ⟨byte, member, same⟩
          exact noColon byte member (of_decide_eq_true same)
      refine Or.inl ?_
      rw [text, colon, if_neg (Nat.not_le_of_lt reached), read]
      have sum : ((encode items).length : Int) + digits.length + 2 =
          ((frame items).length : Nat) := by
        rw [measured]
        push_cast
        omega
      rw [sum, Decimal.toInt32_of_lt small, Decimal.toSize_natCast (by omega)]
    · have text : (digits ++ 58 :: tail).take req.bytesRead = digits.take req.bytesRead := by
        rw [List.take_append_of_le_length (Nat.le_of_not_lt reached)]
      have colon : (digits.take req.bytesRead).findIdx (· = 58) = req.bytesRead := by
        rw [List.findIdx_eq_length_of_false, List.length_take]
        · omega
        · intro byte member
          exact decide_eq_false (noColon byte (List.mem_of_mem_take member))
      refine Or.inr ⟨?_, unknown, by omega⟩
      rw [text, colon, if_pos (Nat.le_refl _)]
  · refine Or.inl ?_
    rw [if_pos (by rw [known, Scgi.length_frame]; omega), known]

theorem Filled.counted (filled : req.Filled items rest) (length : Nat) :
    { req with scgiHeaderLen := length }.Filled items rest := by
  cases req
  exact ⟨filled.reader, filled.scgi, filled.file, filled.log, filled.filled, filled.pending,
    filled.within, filled.room⟩

theorem Filled.collected (filled : req.Filled items rest) {length : Nat}
    (measured : length = (frame items).length) (reached : length ≤ req.bytesRead) :
    { req with scgiHeaderLen := length }.Collected items rest := by
  refine ⟨filled.counted length, ?_, measured⟩
  rw [← measured]
  exact reached

theorem Filled.collecting (filled : req.Filled items rest) {length : Nat}
    (measured : length = (frame items).length) (missing : ¬ length ≤ req.bytesRead) :
    { req with scgiHeaderLen := length }.Collecting items rest := by
  refine ⟨filled.counted length, ?_, Or.inr measured⟩
  rw [← measured]
  exact Nat.lt_of_not_le missing

/-- What was read goes behind what the buffer holds. -/
theorem Filled.read (filled : req.Filled items rest) (limit : Nat)
    (bounded : limit = bufSize - req.bytesRead) :
    { req with
      buf := req.buf.write req.bytesRead (Stream.recv req.pending available limit)
      pending := Stream.rest req.pending available limit
      bytesRead := req.bytesRead + (Stream.recv req.pending available limit).length }.Filled
        items rest := by
  obtain ⟨reader, scgi, file, log, bytes, pending, within, room⟩ := filled
  have taken := Stream.recv_eq_take req.pending available limit
  have skipped := Stream.rest_eq_drop req.pending available limit
  have bound := Stream.length_recv req.pending available limit
  have left : req.pending.length = (frame items ++ rest).length - req.bytesRead := by
    rw [pending, List.length_drop]
  generalize Stream.recv req.pending available limit = read at *
  refine ⟨reader, scgi, file, log, ?_, ?_, ?_, ?_⟩
  · dsimp only
    rw [Block.slice_write_append _ (Nat.zero_add _).symm rfl, bytes, List.take_add, taken, pending]
    congr 1
    rw [List.length_take, List.take_eq_take_iff]
    omega
  · dsimp only
    rw [skipped, pending, List.drop_drop]
  · dsimp only
    omega
  · dsimp only
    omega

/-- Bytes of the block are still to come. -/
theorem Collecting.pending_ne (collecting : req.Collecting items rest) : req.pending ≠ [] := by
  have missing := collecting.missing
  intro empty
  have none := congrArg List.length empty
  rw [collecting.pending, List.length_drop, List.length_append, List.length_nil] at none
  omega

/-- A readiness event while the block is collected: the buffer is full, or more of the block
comes, or the rest of it, which is then parsed. -/
theorem Collecting.event (collecting : req.Collecting items rest)
    (small : (frame items).length < 2 ^ 31) (arrived : 0 < available) :
    (req.bytesRead = bufSize ∧ req.event available = req.peerClosing) ∨
      ((req.event available).Collecting items rest ∧
        (req.event available).pending.length < req.pending.length) ∨
      ∃ ready : HttpReq, ready.Collected items rest ∧
        req.event available = ready.parseBlock ∧
        ready.pending.length < req.pending.length := by
  have missing := collecting.missing
  have room := collecting.room
  have some := collecting.pending_ne
  have called : req.event available = req.httpReqHeaderCb available := by
    rw [HttpReq.event, if_neg some, collecting.reader]
  rw [called]
  unfold httpReqHeaderCb
  simp only
  by_cases full : req.bytesRead = bufSize
  · have nothing : Stream.recv req.pending available (bufSize - req.bytesRead) = [] := by
      rw [full, Nat.sub_self, Stream.recv, Nat.min_zero, List.take_zero]
    rw [if_pos nothing]
    exact Or.inl ⟨full, rfl⟩
  · have space : 0 < bufSize - req.bytesRead := by omega
    have got := Stream.length_recv_pos some arrived space
    have bound := Stream.length_recv req.pending available (bufSize - req.bytesRead)
    have left := Stream.length_rest req.pending available (bufSize - req.bytesRead)
    rw [if_neg (List.ne_nil_of_length_pos got)]
    have filled := @Filled.read items rest req available collecting.toFilled _ rfl
    have length := collecting.length
    generalize reached : ({ req with
      buf := req.buf.write req.bytesRead
        (Stream.recv req.pending available (bufSize - req.bytesRead))
      pending := Stream.rest req.pending available (bufSize - req.bytesRead)
      bytesRead := req.bytesRead +
        (Stream.recv req.pending available (bufSize - req.bytesRead)).length } : HttpReq) =
      next at filled
    have fewer : next.pending.length < req.pending.length := by
      rw [← reached]
      simp only
      omega
    have sameLength : next.scgiHeaderLen = req.scgiHeaderLen := by
      rw [← reached]
    rw [← sameLength] at length
    refine Or.inr ?_
    unfold parserReqBuf
    rcases filled.headerLength small length with found | ⟨none, unknown, early⟩
    · rw [found]
      simp only
      generalize measured : (frame items).length = length
      by_cases whole : length ≤ next.bytesRead
      · rw [if_pos whole]
        exact Or.inr ⟨_, filled.collected measured.symm whole, rfl, fewer⟩
      · rw [if_neg whole]
        exact Or.inl ⟨filled.collecting measured.symm whole, fewer⟩
    · rw [none]
      exact Or.inl ⟨⟨filled, early, Or.inl unknown⟩, fewer⟩

/-- The buffer starts with the whole block, and behind it with what has come of the rest. -/
theorem Collected.bytes (collected : req.Collected items rest) :
    req.buf.slice 0 req.scgiHeaderLen = frame items ∧
      req.buf.slice req.scgiHeaderLen (req.bytesRead - req.scgiHeaderLen) =
        rest.take (req.bytesRead - req.scgiHeaderLen) ∧
      req.buf.cell (req.scgiHeaderLen - 1) = 44 := by
  obtain ⟨more, exact⟩ : ∃ more, req.bytesRead = (frame items).length + more :=
    ⟨_, (Nat.add_sub_cancel' collected.reached).symm⟩
  have filled := collected.filled
  rw [exact, List.take_length_add_append] at filled
  obtain ⟨block, behind⟩ := Block.slice_of_append _ _ filled rfl
  rw [Nat.zero_add] at behind
  have front : req.buf.slice 0 req.scgiHeaderLen = frame items := by
    rw [collected.length]
    exact block
  refine ⟨front, ?_, ?_⟩
  · rw [collected.length, exact, Nat.add_sub_cancel_left]
    exact behind
  · have measured := Scgi.length_frame items
    have last : (frame items)[req.scgiHeaderLen - 1]? = some 44 := by
      have shape : frame items =
          (Decimal.format (encode items).length ++ 58 :: encode items) ++ [44] := by
        rw [frame, List.append_assoc, List.cons_append]
      have place : req.scgiHeaderLen - 1 =
          (Decimal.format (encode items).length ++ 58 :: encode items).length := by
        rw [collected.length, List.length_append, List.length_cons]
        omega
      rw [shape, place, List.getElem?_concat_length]
    rw [← front] at last
    obtain ⟨inside, value⟩ := List.getElem?_eq_some_iff.mp last
    simpa [Block.slice] using value

/-- The block was parsed, and what is asked of `recv` is never nothing. -/
structure Past (req : HttpReq) (parsed : Option Scgi) : Prop where
  scgi : req.scgi = parsed
  reader : req.reader ≠ .header
  quiet : Effect.sigproc ∉ req.log
  missing : req.reader = .body →
    req.reqLen ≠ req.bytesRead ∧ req.reqLen < 2 ^ 64 ∧ req.bytesRead < 2 ^ 64

theorem Past.recvLimit {parsed : Option Scgi} (past : req.Past parsed) :
    req.recvLimit ≠ some 0 := by
  unfold HttpReq.recvLimit
  cases reader : req.reader with
  | header => exact absurd reader past.reader
  | stopped => simp
  | body =>
      obtain ⟨other, sized, counted⟩ := past.missing reader
      have size : bufSize = 10240 := rfl
      cases req.file with
      | none =>
          simp only [sizeSub, ne_eq, Option.some.injEq]
          omega
      | some file =>
          simp only [sizeSub, ne_eq, Option.some.injEq]
          omega

theorem past_process {parsed : Option Scgi} (scgi : req.scgi = parsed)
    (quiet : Effect.sigproc ∉ req.log) : req.httpReqProcess.Past parsed := by
  refine ⟨scgi, nofun, ?_, nofun⟩
  simp only [httpReqProcess, List.mem_append, List.mem_singleton, not_or]
  exact ⟨quiet, nofun⟩

/-- Parsing takes nothing from the socket. -/
theorem pending_parseBlock (req : HttpReq) : req.parseBlock.pending = req.pending := by
  unfold HttpReq.parseBlock
  simp only
  split
  · rfl
  · split
    · rfl
    · split
      · rfl
      · split
        · rfl
        · rfl

/-- Parsing the block that has come. -/
theorem Collected.parseBlock (collected : req.Collected items rest) :
    req.parseBlock.Past (Scgi.parse (frame items)) := by
  obtain ⟨block, -, comma⟩ := collected.bytes
  have room := collected.room
  have size : bufSize = 10240 := rfl
  have quiet : Effect.sigproc ∉ req.log := by
    rw [collected.log]
    exact List.not_mem_nil
  unfold HttpReq.parseBlock
  simp only [comma, ne_eq, not_true_eq_false, ↓reduceIte, block]
  cases parsed : Scgi.parse (frame items) with
  | none => exact ⟨collected.scgi, nofun, quiet, nofun⟩
  | some scgi =>
      simp only
      cases scgi.headerValueGet Scgi.contentLengthName with
      | none =>
          refine ⟨rfl, nofun, ?_, nofun⟩
          simp only [List.mem_append, List.mem_singleton, not_or]
          exact ⟨quiet, nofun⟩
      | some value =>
          simp only
          split
          · exact past_process rfl quiet
          · next other =>
              refine ⟨rfl, nofun, quiet, fun _ => ⟨Ne.symm other, Decimal.toSize_lt _, ?_⟩⟩
              simp only
              omega

/-- Reading the body keeps what was parsed and never stops the worker. -/
theorem Past.event {parsed : Option Scgi} (past : req.Past parsed) (arrived : 0 < available) :
    (req.event available).Past parsed := by
  have limited := past.recvLimit
  obtain ⟨scgi, reader, quiet, missing⟩ := past
  unfold HttpReq.event
  split
  · exact ⟨scgi, reader, quiet, missing⟩
  · next some =>
      cases registered : req.reader with
      | header => exact absurd registered reader
      | stopped => exact ⟨scgi, reader, quiet, missing⟩
      | body =>
          obtain ⟨-, sized, -⟩ := missing registered
          simp only [httpReqBodyCb]
          cases file : req.file with
          | none =>
              have room : 0 < sizeSub req.reqLen req.bytesRead := by
                rw [HttpReq.recvLimit, registered, file] at limited
                exact Nat.pos_of_ne_zero fun zero => limited (congrArg Option.some zero)
              have got := Stream.length_recv_pos some arrived room
              simp only [httpReqBodyReadInBuff, if_neg (List.ne_nil_of_length_pos got)]
              split
              · exact past_process scgi quiet
              · next other =>
                  exact ⟨scgi, reader, quiet, fun _ => ⟨Ne.symm other, sized,
                    Nat.mod_lt _ (by decide)⟩⟩
          | some bytes =>
              simp only [httpReqBodyReadInFile]
              split
              · exact past_process scgi quiet
              · next other =>
                  exact ⟨scgi, reader, quiet, fun _ => ⟨Ne.symm other, sized,
                    Nat.mod_lt _ (by decide)⟩⟩

/-- A worker that took the head to be gone before it had the block. -/
structure Closed (req : HttpReq) : Prop where
  reader : req.reader = .stopped
  scgi : req.scgi = none
  log : req.log = [.sigproc]

/-- What a worker is in at any time: collecting, closed too early, or past the block. -/
def Receiving (req : HttpReq) (items : List Entry) (rest : List UInt8) : Prop :=
  req.Collecting items rest ∨ (req.Closed ∧ bufSize < (frame items).length) ∨
    (req.Past (Scgi.parse (frame items)) ∧ (frame items).length ≤ bufSize)

theorem Receiving.event (receiving : req.Receiving items rest)
    (small : (frame items).length < 2 ^ 31) (arrived : 0 < available) :
    (req.event available).Receiving items rest := by
  rcases receiving with collecting | ⟨closed, long⟩ | ⟨past, fits⟩
  · rcases collecting.event small arrived with ⟨full, closing⟩ | ⟨more, -⟩ | ⟨ready, whole, parsed, -⟩
    · rw [closing]
      refine Or.inr (Or.inl ⟨⟨rfl, collecting.scgi, ?_⟩, ?_⟩)
      · rw [peerClosing, collecting.log]
        rfl
      · rw [← full]
        exact collecting.missing
    · exact Or.inl more
    · rw [parsed]
      exact Or.inr (Or.inr ⟨whole.parseBlock, whole.reached.trans whole.room⟩)
  · have idle : req.event available = req := by
      unfold HttpReq.event
      rw [closed.reader]
      exact ite_self req
    rw [idle]
    exact Or.inr (Or.inl ⟨closed, long⟩)
  · exact Or.inr (Or.inr ⟨past.event arrived, fits⟩)

variable {junk : Nat → UInt8} {grants : Nat → Nat}

theorem collecting_start (junk : Nat → UInt8) (items : List Entry) (rest : List UInt8) :
    (start junk (frame items ++ rest)).Collecting items rest := by
  refine ⟨⟨rfl, rfl, rfl, rfl, rfl, rfl, Nat.zero_le _, Nat.zero_le _⟩, ?_, Or.inl rfl⟩
  rw [Scgi.length_frame]
  exact Nat.succ_pos _

/-- A worker is in one of the three at any time. -/
theorem receiving_after (junk : Nat → UInt8) (rest : List UInt8)
    (small : (frame items).length < 2 ^ 31) (arriving : ∀ count, 0 < grants count) (count : Nat) :
    (after junk (frame items ++ rest) grants count).Receiving items rest :=
  Machine.invariant (fun req : HttpReq => req.Receiving items rest)
    (Or.inl (collecting_start junk items rest))
    (fun count _ receiving => receiving.event small (arriving count)) count

/-- A block that fits the buffer is parsed, whatever the reads take. -/
theorem past_of_fits (small : (frame items).length < 2 ^ 31)
    (fits : (frame items).length ≤ bufSize) (arriving : ∀ count, 0 < grants count) :
    ∃ last, ∀ count, last ≤ count →
      (after junk (frame items ++ rest) grants count).Past (Scgi.parse (frame items)) := by
  obtain ⟨last, past, -, -⟩ := @Machine.reaches _ _ event grants
    (start junk (frame items ++ rest))
    (fun req => req.Collecting items rest ∨ req.Past (Scgi.parse (frame items)))
    (fun req => req.Past (Scgi.parse (frame items))) (fun req => req.pending.length)
    (Or.inl (collecting_start junk items rest)) fun count req inv goal => by
      have collecting := inv.resolve_right goal
      rcases collecting.event small (arriving count) with
        ⟨full, -⟩ | ⟨more, fewer⟩ | ⟨ready, whole, parsed, fewer⟩
      · have missing := collecting.missing
        omega
      · exact ⟨Or.inl more, fewer⟩
      · rw [parsed, pending_parseBlock]
        exact ⟨Or.inr whole.parseBlock, fewer⟩
  exact ⟨last, Machine.invariant_from (fun req : HttpReq => req.Past (Scgi.parse (frame items))) past
    fun count _ past => past.event (arriving count)⟩

/-- A worker receives the frame of some entries exactly when the frame fits its buffer and
parses back to the entries, however the reads cut the stream. -/
theorem receives_frame_iff (small : (frame items).length < 2 ^ 31)
    (arriving : ∀ count, 0 < grants count) :
    Receives junk (frame items ++ rest) items grants ↔
      (∃ scgi, Scgi.parse (frame items) = some scgi ∧ scgi.entries = items) ∧
        (frame items).length ≤ bufSize := by
  constructor
  · rintro ⟨⟨last, parsed⟩, -⟩
    obtain ⟨scgi, found, entries⟩ := parsed last (Nat.le_refl _)
    rcases receiving_after junk rest small arriving last with collecting | ⟨closed, -⟩ | ⟨past, fits⟩
    · rw [collecting.scgi] at found
      cases found
    · rw [closed.scgi] at found
      cases found
    · rw [past.scgi] at found
      exact ⟨⟨scgi, found, entries⟩, fits⟩
  · rintro ⟨⟨scgi, found, entries⟩, fits⟩
    obtain ⟨last, past⟩ := past_of_fits small fits arriving
    refine ⟨⟨last, fun count later => ⟨scgi, ?_, entries⟩⟩, fun count => ?_⟩
    · rw [(past count later).scgi, found]
    · rcases receiving_after junk rest small arriving count with collecting | ⟨-, long⟩ | ⟨past, -⟩
      · refine ⟨?_, ?_⟩
        · have missing := collecting.missing
          rw [HttpReq.recvLimit, collecting.reader]
          simp only [ne_eq, Option.some.injEq]
          omega
        · rw [collecting.log]
          exact List.not_mem_nil
      · exact absurd fits (Nat.not_le_of_lt long)
      · exact ⟨past.recvLimit, past.quiet⟩

end HttpReq
