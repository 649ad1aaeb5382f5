import Mathlib
import Webroar.Worker.Body

/-! # Reading a body back

The application reads the body of its request in pieces of any size. The cursor that counted the
received bytes counts the bytes that were given out; a body in the buffer is copied from there, and
a body in a file is read on from the position of the file, which was rewound before the request was
processed.

The length that a worker goes by is what `atoi` makes of the content length, stored in a `size_t`.
-/

namespace HttpReq

open Decimal (sizeSub Numeral)
open Scgi (Entry frame Clean latest contentLengthName)

/-- A request that is being processed, with the position of its file. -/
structure Input where
  req : HttpReq
  position : Nat

/-- What the application reads from; the file is rewound. -/
def input (req : HttpReq) : Input := ⟨req, 0⟩

/-- Read up to `len` bytes of the body. -/
def httpReqBodyRead (len : Nat) (input : Input) : List UInt8 × Input :=
  let req := input.req
  if req.reqLen ≤ req.bytesRead then
    ([], input)
  else
    match req.file with
    | some file =>
        let read := (file.drop input.position).take len
        (read, {
          req := { req with bytesRead := (req.bytesRead + read.length) % 2 ^ 64 }
          position := input.position + read.length })
    | none =>
        let read := min len (sizeSub req.reqLen req.bytesRead)
        (req.buf.slice (req.scgiHeaderLen + req.bytesRead) read,
          { input with req := { req with bytesRead := (req.bytesRead + read) % 2 ^ 64 } })

/-- All that some reads give, one behind the other. -/
def bodyReads (input : Input) : List Nat → List UInt8
  | [] => []
  | len :: sizes =>
      (httpReqBodyRead len input).1 ++ bodyReads (httpReqBodyRead len input).2 sizes

/-- The request is dispatched once, with the last byte, and what is read from it is its body. -/
structure Reassembles (junk : Nat → UInt8) (items : List Entry) (body : List UInt8)
    (grants : Nat → Nat) : Prop where
  dispatched : ∃ last, ∀ count, last ≤ count →
    (after junk (frame items ++ body) grants count).log = [.process body]
  once : ∀ count,
    (after junk (frame items ++ body) grants count).log = [] ∧
        (after junk (frame items ++ body) grants count).pending ≠ [] ∨
      (after junk (frame items ++ body) grants count).log = [.process body] ∧
        (after junk (frame items ++ body) grants count).pending = []
  read : ∀ count, (after junk (frame items ++ body) grants count).log ≠ [] → ∀ sizes,
    bodyReads (after junk (frame items ++ body) grants count).input sizes = body.take sizes.sum
  /-- The bytes are kept inside the buffer. -/
  inside : ∀ count, (after junk (frame items ++ body) grants count).buf.wild = false

variable {items : List Entry} {body : List UInt8} {req : HttpReq} {input : Input}
  {size available : Nat}

/-! ### Reading in pieces -/

/-- What is left to be read is the body behind the cursor. -/
structure Readable (input : Input) (body : List UInt8) : Prop where
  length : input.req.reqLen = body.length
  small : body.length < 2 ^ 64
  within : input.req.bytesRead ≤ body.length
  stored : input.req.file = some body ∧ input.position = input.req.bytesRead ∨
    input.req.file = none ∧
      input.req.buf.slice input.req.scgiHeaderLen input.req.reqLen = body

/-- A piece of a body in the buffer. -/
theorem slice_piece {block : Block UInt8} {offset start : Nat}
    (stored : block.slice offset body.length = body) (within : start ≤ body.length) (len : Nat) :
    block.slice (offset + start) (min len (body.length - start)) = (body.drop start).take len := by
  obtain ⟨more, cut⟩ := Nat.exists_eq_add_of_le within
  obtain ⟨rest, taken⟩ := Nat.exists_eq_add_of_le (Nat.min_le_right len (body.length - start))
  have front : body.length = start + (min len (body.length - start) + rest) := by omega
  have whole : block.slice offset (start + (min len (body.length - start) + rest)) =
      body.take start ++ body.drop start := by
    rw [← front, stored, List.take_append_drop]
  have behind := (Block.slice_of_append _ _ whole (by rw [List.length_take]; omega)).2
  rw [← List.take_append_drop len (body.drop start)] at behind
  exact (Block.slice_of_append _ _ behind (by rw [List.length_take, List.length_drop])).1

/-- A read gives the next bytes of the body and moves the cursor behind them. -/
theorem Readable.read (readable : Readable input body) (len : Nat) :
    (httpReqBodyRead len input).1 = (body.drop input.req.bytesRead).take len ∧
      Readable (httpReqBodyRead len input).2 body ∧
      (httpReqBodyRead len input).2.req.bytesRead =
        input.req.bytesRead + min len (body.length - input.req.bytesRead) := by
  obtain ⟨length, small, within, stored⟩ := readable
  have counted : (input.req.bytesRead + min len (body.length - input.req.bytesRead)) % 2 ^ 64 =
      input.req.bytesRead + min len (body.length - input.req.bytesRead) :=
    Nat.mod_eq_of_lt (by omega)
  have reached : input.req.bytesRead + min len (body.length - input.req.bytesRead) ≤
      body.length := by omega
  unfold httpReqBodyRead
  by_cases finished : input.req.reqLen ≤ input.req.bytesRead
  · have last : body.length ≤ input.req.bytesRead := by
      rw [← length]
      exact finished
    simp only [if_pos finished]
    refine ⟨?_, ⟨length, small, within, stored⟩, by omega⟩
    rw [List.drop_of_length_le last, List.take_nil]
  · simp only [if_neg finished]
    rcases stored with ⟨file, position⟩ | ⟨none, bytes⟩
    · simp only [file, position, List.length_take, List.length_drop, counted]
      exact ⟨trivial, ⟨length, small, reached, Or.inl ⟨rfl, rfl⟩⟩, trivial⟩
    · have left : sizeSub input.req.reqLen input.req.bytesRead =
          body.length - input.req.bytesRead := by
        rw [length]
        exact Decimal.sizeSub_of_le within small
      rw [length] at bytes
      simp only [none, left, counted]
      refine ⟨slice_piece bytes within len, ⟨length, small, reached, Or.inr ⟨rfl, ?_⟩⟩, trivial⟩
      simp only [length]
      exact bytes

/-- Reads of any sizes give the body from the cursor on, as far as the sizes go. -/
theorem Readable.bodyReads (readable : Readable input body) (sizes : List Nat) :
    bodyReads input sizes = (body.drop input.req.bytesRead).take sizes.sum := by
  induction sizes generalizing input with
  | nil => rfl
  | cons len sizes ih =>
      obtain ⟨given, kept, moved⟩ := readable.read len
      rw [HttpReq.bodyReads, given, ih kept, moved, List.sum_cons, List.take_add]
      congr 2
      rw [List.drop_drop, List.drop_eq_drop_iff]
      omega

/-! ### What is known of a request behind its block -/

/-- The body is counted against a decoded length. -/
structure Counting (req : HttpReq) (body : List UInt8) (size : Nat) : Prop where
  reader : req.reader = .body
  log : req.log = []
  length : req.reqLen = size
  stored : ∀ file, req.file = some file → file.length = req.bytesRead ∧
    file.length + req.pending.length = body.length ∧ body.length < 2 ^ 63
  room : req.buf.size = bufSize
  kept : req.file = none → req.buf.wild = true ∨ req.scgiHeaderLen + req.bytesRead ≤ bufSize

/-- What a dispatched request was dispatched with has the decoded length, and is what can be read
from it. A length that no file and no buffer has was only reached outside the buffer. -/
structure Handed (req : HttpReq) (size : Nat) : Prop where
  reader : req.reader = .stopped
  content : ∀ given, req.log = [.process given] → req.bytesRead = 0 ∧ req.reqLen = size ∧
    req.content = given ∧ given.length = size ∧ (req.buf.wild = true ∨ size < 2 ^ 63)

/-- Processing a request whose stored body has the decoded length. -/
theorem handed_process (log : req.log = []) (length : req.reqLen = size)
    (measured : req.content.length = size) (kept : req.buf.wild = true ∨ size < 2 ^ 63) :
    req.httpReqProcess.Handed size := by
  refine ⟨rfl, fun given same => ?_⟩
  simp only [httpReqProcess, log, List.nil_append, List.cons.injEq, Effect.process.injEq,
    and_true] at same
  subst same
  exact ⟨rfl, length, rfl, measured, kept⟩

theorem buf_parseBlock (req : HttpReq) : req.parseBlock.buf = req.buf := by
  unfold HttpReq.parseBlock
  simp only
  split
  · rfl
  · split
    · rfl
    · split
      · rfl
      · split
        · rfl
        · rfl

theorem buf_parserReqBuf (req : HttpReq) : req.parserReqBuf.buf = req.buf := by
  unfold HttpReq.parserReqBuf
  split
  · rfl
  · split
    · rw [buf_parseBlock]
    · rfl

/-- A readiness event leaves the buffer alone, or writes what it reads into it. -/
theorem buf_event (req : HttpReq) (available : Nat) :
    (req.event available).buf = req.buf ∨
      (req.reader = .header ∧ (req.event available).buf = req.buf.write req.bytesRead
        (Stream.recv req.pending available (bufSize - req.bytesRead))) ∨
      (req.reader = .body ∧ req.file = none ∧
        (req.event available).buf = req.buf.write (req.scgiHeaderLen + req.bytesRead)
          (Stream.recv req.pending available (sizeSub req.reqLen req.bytesRead))) := by
  unfold HttpReq.event
  split
  · exact Or.inl rfl
  · cases reader : req.reader with
    | stopped => exact Or.inl rfl
    | header =>
        simp only [httpReqHeaderCb]
        split
        · exact Or.inl rfl
        · rw [buf_parserReqBuf]
          exact Or.inr (Or.inl ⟨trivial, rfl⟩)
    | body =>
        simp only [httpReqBodyCb]
        split
        · next none =>
            simp only [httpReqBodyReadInBuff]
            split
            · exact Or.inl rfl
            · split
              · exact Or.inr (Or.inr ⟨trivial, none, rfl⟩)
              · exact Or.inr (Or.inr ⟨trivial, none, rfl⟩)
        · simp only [httpReqBodyReadInFile]
          split
          · exact Or.inl rfl
          · exact Or.inl rfl

theorem size_event (req : HttpReq) (available : Nat) :
    (req.event available).buf.size = req.buf.size := by
  rcases buf_event req available with same | ⟨-, written⟩ | ⟨-, -, written⟩
  · rw [same]
  · rw [written, Block.size_write]
  · rw [written, Block.size_write]

/-- A decoded length that is not the length of a wide body leaves no room for a file. -/
theorem Collected.parseBlock_handed (collected : req.Collected items body)
    (announced : declared (frame items) = some size)
    (wide : body.length < 2 ^ 63 ∨ size = 2 ^ 64 - 1) (sized : req.buf.size = bufSize) :
    req.parseBlock.Handed size ∨ req.parseBlock.Counting body size := by
  obtain ⟨block, -, comma⟩ := collected.bytes
  have reached := collected.reached
  have length := collected.length
  have room := collected.room
  have within := collected.within
  rw [List.length_append] at within
  have left : req.pending.length = body.length - (req.bytesRead - req.scgiHeaderLen) := by
    rw [collected.pending, List.length_drop, List.length_append]
    omega
  have some : 0 < (frame items).length := by
    rw [Scgi.length_frame]
    omega
  have limit : bufSize = 10240 := rfl
  unfold declared at announced
  obtain ⟨scgi, parsed, valued⟩ := Option.bind_eq_some_iff.mp announced
  obtain ⟨value, found, decoded⟩ := Option.map_eq_some_iff.mp valued
  unfold HttpReq.parseBlock
  simp only [comma, ne_eq, not_true_eq_false, ↓reduceIte, block, parsed, found, decoded]
  by_cases all : req.bytesRead - req.scgiHeaderLen = size
  · rw [if_pos all]
    refine Or.inl (handed_process collected.log rfl ?_ (Or.inr (by omega)))
    simp only [content, collected.file, Block.length_slice]
  · rw [if_neg all]
    refine Or.inr ⟨rfl, collected.log, rfl, fun file => ?_, sized, fun _ => Or.inr ?_⟩
    · dsimp only
      split
      · next long =>
          rintro ⟨⟩
          have small : body.length < 2 ^ 63 := by
            refine wide.resolve_right ?_
            rintro rfl
            omega
          rw [Block.length_slice]
          exact ⟨rfl, by omega, small⟩
      · rintro ⟨⟩
    · dsimp only
      omega

theorem handed_peerClosing (req : HttpReq) (log : req.log = []) (size : Nat) :
    req.peerClosing.Handed size := by
  refine ⟨rfl, fun given same => ?_⟩
  simp only [peerClosing, log, List.nil_append, List.cons.injEq, reduceCtorEq, false_and] at same

/-- A readiness event while the body is counted. -/
theorem Counting.event (counting : req.Counting body size) (available : Nat) :
    (req.event available).Handed size ∨ (req.event available).Counting body size := by
  have counted := counting
  obtain ⟨reader, log, length, stored, room, kept⟩ := counting
  have limit : bufSize = 10240 := rfl
  unfold HttpReq.event
  by_cases empty : req.pending = []
  · rw [if_pos empty]
    exact Or.inr counted
  · rw [if_neg empty, reader]
    simp only [httpReqBodyCb]
    cases file : req.file with
    | none =>
        simp only [httpReqBodyReadInBuff]
        split
        · exact Or.inl (handed_peerClosing req log size)
        · generalize Stream.recv req.pending available (sizeSub req.reqLen req.bytesRead) = read
          have written : (req.buf.write (req.scgiHeaderLen + req.bytesRead) read).wild = true ∨
              req.scgiHeaderLen + (req.bytesRead + read.length) ≤ bufSize := by
            rw [Block.wild_write_iff, room]
            omega
          have modulo := Nat.mod_le (req.bytesRead + read.length) (2 ^ 64)
          split
          · next all =>
              refine Or.inl (handed_process log length ?_ (written.imp_right fun _ => ?_))
              · simp only [content, file, Block.length_slice]
                exact length
              · omega
          · refine Or.inr ⟨reader, log, length, fun bytes same => ?_, room, fun _ => ?_⟩
            · rw [file] at same
              cases same
            · exact written.imp_right fun _ => by dsimp only; omega
    | some bytes =>
        obtain ⟨measured, total, small⟩ := stored bytes file
        have whole := congrArg List.length (Stream.recv_append_rest req.pending available
          (min (sizeSub req.reqLen req.bytesRead) bufSize))
        rw [List.length_append] at whole
        simp only [httpReqBodyReadInFile]
        generalize Stream.recv req.pending available
          (min (sizeSub req.reqLen req.bytesRead) bufSize) = read at *
        generalize Stream.rest req.pending available
          (min (sizeSub req.reqLen req.bytesRead) bufSize) = rest at *
        have exact : (req.bytesRead + read.length) % 2 ^ 64 = req.bytesRead + read.length :=
          Nat.mod_eq_of_lt (by omega)
        rw [exact]
        by_cases all : req.bytesRead + read.length = req.reqLen
        · rw [if_pos all]
          refine Or.inl (handed_process log length ?_ (Or.inr (by omega)))
          simp only [content, List.length_append]
          omega
        · rw [if_neg all]
          refine Or.inr ⟨reader, log, length, fun file same => ?_, room, by rintro ⟨⟩⟩
          cases same
          simp only [List.length_append]
          exact ⟨by omega, by omega, small⟩

theorem Handed.event (handed : req.Handed size) (available : Nat) :
    req.event available = req := by
  unfold HttpReq.event
  rw [handed.reader]
  exact ite_self req

variable {junk : Nat → UInt8} {grants : Nat → Nat}

/-- At any time the block is collected, the body is counted, or the request was dispatched. -/
theorem handed_after (fits : (frame items).length ≤ bufSize)
    (announced : declared (frame items) = some size)
    (wide : body.length < 2 ^ 63 ∨ size = 2 ^ 64 - 1) (arriving : ∀ count, 0 < grants count)
    (count : Nat) :
    (after junk (frame items ++ body) grants count).Collecting items body ∨
      (after junk (frame items ++ body) grants count).Handed size ∨
      (after junk (frame items ++ body) grants count).Counting body size := by
  refine (Machine.invariant (fun req : HttpReq => req.buf.size = bufSize ∧
    (req.Collecting items body ∨ req.Handed size ∨ req.Counting body size))
    ⟨rfl, Or.inl (collecting_start junk items body)⟩ (fun count req known => ?_) count).2
  obtain ⟨sized, known⟩ := known
  have same := size_event req (grants count)
  refine ⟨same.trans sized, ?_⟩
  have small : (frame items).length < 2 ^ 31 := lt_of_le_of_lt fits (by decide)
  rcases known with collecting | handed | counting
  · rcases collecting.event small (arriving count) with
      ⟨full, -⟩ | ⟨more, -⟩ | ⟨ready, whole, parsed, -⟩
    · have missing := collecting.missing
      omega
    · exact Or.inl more
    · rw [parsed] at same ⊢
      rw [buf_parseBlock] at same
      exact Or.inr (whole.parseBlock_handed announced wide (same.trans sized))
  · rw [handed.event]
    exact Or.inr (Or.inl handed)
  · exact Or.inr (counting.event (grants count))

/-- A worker decodes the content length that a frame holds. -/
theorem declared_frame (clean : Clean items) (small : (frame items).length < 2 ^ 31)
    {value : List UInt8} (announced : latest items contentLengthName = some value) :
    declared (frame items) = some (Decimal.toSize (Decimal.atoi value)) := by
  obtain ⟨scgi, parsed, back⟩ := Scgi.parse_frame items [] clean small
  rw [List.append_nil] at parsed
  rw [declared, parsed, Option.bind_some,
    back.holds.headerValueGet fun item member => (clean item member).2, announced, Option.map_some]

/-- What can be read from a request that was dispatched with its body. -/
theorem Handed.bodyReads (handed : req.Handed size) (log : req.log = [.process body])
    (small : size < 2 ^ 64) (sizes : List Nat) :
    bodyReads req.input sizes = body.take sizes.sum := by
  obtain ⟨start, length, content, measured, -⟩ := handed.content body log
  have begins : req.input.req.bytesRead = 0 := start
  suffices readable : Readable req.input body by
    rw [readable.bodyReads, begins, List.drop_zero]
  refine ⟨length.trans measured.symm, measured ▸ small, begins ▸ Nat.zero_le _, ?_⟩
  simp only [input, start]
  unfold HttpReq.content at content
  cases file : req.file with
  | none =>
      rw [file] at content
      exact Or.inr ⟨rfl, content⟩
  | some bytes =>
      rw [file] at content
      exact Or.inl ⟨congrArg some content, trivial⟩

/-- A body that is kept in the buffer has room there. -/
def Short (req : HttpReq) : Prop :=
  req.reader = .body → req.file = none →
    req.scgiHeaderLen ≤ bufSize ∧ (req.reqLen + req.scgiHeaderLen) % 2 ^ 64 ≤ bufSize

theorem short_parseBlock (bounded : req.scgiHeaderLen ≤ bufSize) : req.parseBlock.Short := by
  unfold HttpReq.parseBlock
  simp only
  split
  · rintro ⟨⟩
  · split
    · rintro ⟨⟩
    · split
      · rintro ⟨⟩
      · split
        · rintro ⟨⟩
        · intro _ none
          dsimp only at none
          split at none
          · cases none
          · next short => exact ⟨bounded, Nat.le_of_not_lt short⟩

theorem short_parserReqBuf (reader : req.reader = .header) (bounded : req.bytesRead ≤ bufSize) :
    req.parserReqBuf.Short := by
  unfold HttpReq.parserReqBuf
  split
  · intro body
    rw [reader] at body
    cases body
  · split
    · next reached => exact short_parseBlock (reached.trans bounded)
    · intro body
      rw [reader] at body
      cases body

/-- A readiness event keeps a short body short. -/
theorem Short.event (short : req.Short) (filled : req.reader = .header → req.bytesRead ≤ bufSize)
    (available : Nat) : (req.event available).Short := by
  unfold HttpReq.event
  split
  · exact short
  · cases reader : req.reader with
    | stopped => exact short
    | header =>
        have bounded := filled reader
        have bound := Stream.length_recv req.pending available (bufSize - req.bytesRead)
        simp only [httpReqHeaderCb]
        split
        · rintro ⟨⟩
        · refine short_parserReqBuf reader ?_
          dsimp only
          omega
    | body =>
        simp only [httpReqBodyCb]
        split
        · next none =>
            simp only [httpReqBodyReadInBuff]
            split
            · rintro ⟨⟩
            · split
              · rintro ⟨⟩
              · exact fun _ _ => short reader none
        · simp only [httpReqBodyReadInFile]
          split
          · rintro ⟨⟩
          · rintro _ ⟨⟩

/-- What is read stays inside the buffer. -/
structure Inside (req : HttpReq) : Prop where
  size : req.buf.size = bufSize
  tame : req.buf.wild = false
  short : req.Short

/-- A readiness event writes inside the buffer while a body that an `int` can count is taken. -/
theorem Inside.event (inside : req.Inside) (taking : req.Taking items body)
    (small : body.length < 2 ^ 31) (available : Nat) : (req.event available).Inside := by
  have limit : bufSize = 10240 := rfl
  have filled : req.reader = .header → req.bytesRead ≤ bufSize := by
    intro header
    rcases taking with collecting | processed | reading
    · exact collecting.room
    · rw [processed.reader] at header
      cases header
    · rw [reading.reader] at header
      cases header
  refine ⟨(size_event req available).trans inside.size, ?_, inside.short.event filled available⟩
  rcases buf_event req available with same | ⟨header, written⟩ | ⟨registered, none, written⟩
  · rw [same]
    exact inside.tame
  · have bounded := filled header
    have bound := Stream.length_recv req.pending available (bufSize - req.bytesRead)
    rw [written, Block.wild_write_of_le _ _ _ (by rw [inside.size]; omega)]
    exact inside.tame
  · have bound := Stream.length_recv req.pending available (sizeSub req.reqLen req.bytesRead)
    obtain ⟨headed, room⟩ := inside.short registered none
    rcases taking with collecting | processed | reading
    · rw [collecting.reader] at registered
      cases registered
    · rw [processed.reader] at registered
      cases registered
    · have missing := reading.missing
      have left : sizeSub req.reqLen req.bytesRead = body.length - req.bytesRead := by
        rw [reading.length]
        exact Decimal.sizeSub_of_le (Nat.le_of_lt missing) reading.small
      rw [reading.length] at room
      rw [left] at bound written
      rw [written, Block.wild_write_of_le _ _ _ (by rw [inside.size]; omega)]
      exact inside.tame

/-- The buffer is never left while a body that an `int` can count is taken. -/
theorem inside_after (fits : (frame items).length ≤ bufSize)
    (announced : declared (frame items) = some body.length) (small : body.length < 2 ^ 31)
    (arriving : ∀ count, 0 < grants count) (count : Nat) :
    (after junk (frame items ++ body) grants count).Inside := by
  have short : (frame items).length < 2 ^ 31 := lt_of_le_of_lt fits (by decide)
  refine (Machine.invariant (fun req : HttpReq => req.Inside ∧ req.Taking items body)
    ⟨⟨rfl, rfl, fun reader => by cases reader⟩, Or.inl (collecting_start junk items body)⟩
    ?_ count).1
  rintro count req ⟨inside, taking⟩
  exact ⟨inside.event taking small (grants count),
    (taking.event short fits announced (arriving count)).1⟩

/-- A longer content length, or one that `atoi` reads as negative, is not that of the body. -/
theorem small_of_reassembles (clean : Clean items) (fits : (frame items).length ≤ bufSize)
    {value : List UInt8} (announced : latest items contentLengthName = some value)
    (numeral : Numeral value body.length) (arriving : ∀ count, 0 < grants count)
    (whole : Reassembles junk items body grants) : body.length < 2 ^ 31 := by
  have decoded := declared_frame clean (lt_of_le_of_lt fits (by decide)) announced
  have wide : body.length < 2 ^ 63 ∨ Decimal.toSize (Decimal.atoi value) = 2 ^ 64 - 1 := by
    refine or_iff_not_imp_left.mpr fun long => ?_
    rw [numeral.atoi, min_eq_left (by omega)]
    decide
  obtain ⟨last, done⟩ := whole.dispatched
  have log := done last (Nat.le_refl _)
  rcases @handed_after items body _ junk grants fits decoded wide arriving last with
    collecting | handed | counting
  · rw [collecting.log] at log
    cases log
  · obtain ⟨-, -, -, measured, kept⟩ := handed.content body log
    have sized := kept.resolve_left fun wild => by
      rw [whole.inside last] at wild
      cases wild
    rcases numeral.toSize_atoi_iff.mp measured.symm with small | last
    · exact small
    · omega
  · rw [counting.log] at log
    cases log

/-- A worker puts the request together and gives its body back, whatever the reads take and
whatever the application asks for, exactly when its content length fits an `int`. -/
theorem reassembles_iff (clean : Clean items) (fits : (frame items).length ≤ bufSize)
    {value : List UInt8} (announced : latest items contentLengthName = some value)
    (numeral : Numeral value body.length) (arriving : ∀ count, 0 < grants count) :
    Reassembles junk items body grants ↔ body.length < 2 ^ 31 := by
  refine ⟨small_of_reassembles clean fits announced numeral arriving, fun small => ?_⟩
  have short : (frame items).length < 2 ^ 31 := lt_of_le_of_lt fits (by decide)
  have decoded := declared_frame clean short announced
  rw [numeral.toSize_atoi_iff.mpr (Or.inl small)] at decoded
  have known := @handed_after items body _ junk grants fits decoded (Or.inl (by omega)) arriving
  have always := @taking_after items body junk grants short fits decoded arriving
  have consumed : Consumes junk (frame items ++ body) body grants :=
    (consumes_frame_iff short decoded arriving).mpr fits
  refine ⟨consumed.1, fun count => ?_, fun count some sizes => ?_, fun count => ?_⟩
  · rcases always count with collecting | processed | reading
    · exact Or.inl ⟨collecting.log, collecting.pending_ne⟩
    · exact Or.inr ⟨processed.log, processed.pending⟩
    · exact Or.inl ⟨reading.log, reading.pending_ne⟩
  · have log := (consumed.2 count).resolve_left some
    rcases known count with collecting | handed | counting
    · exact absurd collecting.log some
    · exact handed.bodyReads log.1 (by omega) sizes
    · exact absurd counting.log some
  · exact (inside_after fits decoded small arriving count).tame

/-- The entries that announce a body of a length. -/
def announcing (length : Nat) : List Entry := [(contentLengthName, Decimal.ofNat length)]

theorem clean_announcing (length : Nat) : Clean (announcing length) := by
  intro item member
  obtain rfl := List.mem_singleton.mp member
  have name : (0 : UInt8) ∉ contentLengthName ∧ (44 : UInt8) ∉ contentLengthName := by decide
  refine ⟨name, fun zero => ?_⟩
  exact absurd (Decimal.isDigit_of_mem_ofNat zero) (by decide)

theorem latest_announcing (length : Nat) :
    latest (announcing length) contentLengthName = some (Decimal.ofNat length) := by
  simp [latest, announcing]

theorem reassembles_iff_sample :
    (Clean (announcing 2) ∧ (frame (announcing 2)).length ≤ bufSize ∧
      Numeral (Decimal.ofNat 2) (ascii "hi").length) ∧
    Reassembles (fun _ => 0) (announcing 2) (ascii "hi") fun _ => 1 :=
  ⟨⟨clean_announcing 2, by decide +kernel, Decimal.numeral_ofNat 2⟩,
    (@reassembles_iff _ (ascii "hi") _ _ (clean_announcing 2) (by decide +kernel) _
      (latest_announcing 2) (Decimal.numeral_ofNat 2) fun _ => Nat.one_pos).mpr (by decide)⟩

/-- A request whose body has 2 ^ 31 bytes is not put together. -/
theorem not_reassembles :
    (Clean (announcing (2 ^ 31)) ∧ (frame (announcing (2 ^ 31))).length ≤ bufSize ∧
      latest (announcing (2 ^ 31)) contentLengthName = some (Decimal.ofNat (2 ^ 31)) ∧
      (List.replicate (2 ^ 31) (65 : UInt8)).length = 2 ^ 31) ∧
    ¬ Reassembles (fun _ => 0) (announcing (2 ^ 31)) (List.replicate (2 ^ 31) 65)
      fun _ => 1 := by
  have fits : (frame (announcing (2 ^ 31))).length ≤ bufSize := by decide +kernel
  have measured : (List.replicate (2 ^ 31) (65 : UInt8)).length = 2 ^ 31 := List.length_replicate
  refine ⟨⟨clean_announcing _, fits, latest_announcing _, measured⟩, fun whole => ?_⟩
  have numeral : Numeral (Decimal.ofNat (2 ^ 31))
      (List.replicate (2 ^ 31) (65 : UInt8)).length := by
    rw [measured]
    exact Decimal.numeral_ofNat _
  have small := small_of_reassembles (clean_announcing _) fits (latest_announcing _) numeral
    (fun _ => Nat.one_pos) whole
  rw [measured] at small
  exact Nat.lt_irrefl _ small

end HttpReq
