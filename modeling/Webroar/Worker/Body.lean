import Webroar.Worker.Receive

/-! # Receiving a body

When the content length a worker decodes from a block is the number of bytes that follow the
block, the worker reads these bytes and processes the request with them, whether they are kept
in the buffer or in a file. It processes the request once, when it has read the last of them.
-/

namespace HttpReq

open Decimal (sizeSub)
open Scgi (Entry encode frame)

/-- The content length a worker decodes from a header block. -/
def declared (block : List UInt8) : Option Nat :=
  (Scgi.parse block).bind fun scgi =>
    (scgi.headerValueGet Scgi.contentLengthName).map fun value =>
      Decimal.toSize (Decimal.atoi value)

variable {items : List Entry} {body : List UInt8} {req : HttpReq} {available : Nat}

/-- The body is being read. -/
structure Reading (req : HttpReq) (body : List UInt8) : Prop where
  reader : req.reader = .body
  log : req.log = []
  length : req.reqLen = body.length
  small : body.length < 2 ^ 64
  missing : req.bytesRead < body.length
  pending : req.pending = body.drop req.bytesRead
  stored : (req.file = none ∧
      req.buf.slice req.scgiHeaderLen req.bytesRead = body.take req.bytesRead) ∨
    req.file = some (body.take req.bytesRead)

/-- The request was processed with its body, and nothing is left on the socket. -/
structure Processed (req : HttpReq) (body : List UInt8) : Prop where
  reader : req.reader = .stopped
  log : req.log = [.process body]
  pending : req.pending = []

/-- Processing a request of which all was read. -/
theorem processed_of_all (log : req.log = []) (content : req.content = body)
    (pending : req.pending = []) : req.httpReqProcess.Processed body := by
  refine ⟨rfl, ?_, pending⟩
  rw [httpReqProcess, log, content]
  rfl

/-- When the block has come the request is processed, or the body is read first. -/
theorem Collected.parseBlock_body (collected : req.Collected items body)
    (announced : declared (frame items) = some body.length) :
    req.parseBlock.Processed body ∨ req.parseBlock.Reading body := by
  obtain ⟨block, behind, comma⟩ := collected.bytes
  have within := collected.within
  rw [List.length_append] at within
  have reached := collected.reached
  have length := collected.length
  have pending : req.pending = body.drop (req.bytesRead - req.scgiHeaderLen) := by
    rw [collected.pending, List.drop_append, List.drop_of_length_le reached, List.nil_append,
      length]
  unfold declared at announced
  obtain ⟨scgi, parsed, valued⟩ := Option.bind_eq_some_iff.mp announced
  obtain ⟨value, found, decoded⟩ := Option.map_eq_some_iff.mp valued
  have small : body.length < 2 ^ 64 := by
    rw [← decoded]
    exact Decimal.toSize_lt _
  unfold HttpReq.parseBlock
  simp only [comma, ne_eq, not_true_eq_false, ↓reduceIte, block, parsed, found, decoded]
  by_cases all : req.bytesRead - req.scgiHeaderLen = body.length
  · rw [if_pos all]
    refine Or.inl (processed_of_all collected.log ?_ ?_)
    · simp only [content, collected.file]
      rw [← all, behind, all, List.take_length]
    · rw [all, List.drop_length] at pending
      exact pending
  · rw [if_neg all]
    refine Or.inr ⟨rfl, collected.log, rfl, small, ?_, pending, ?_⟩
    · dsimp only
      omega
    · dsimp only
      split
      · exact Or.inr (congrArg some behind)
      · exact Or.inl ⟨rfl, behind⟩

/-- Bytes of the body are still to come. -/
theorem Reading.pending_ne (reading : req.Reading body) : req.pending ≠ [] := by
  apply List.ne_nil_of_length_pos
  rw [reading.pending, List.length_drop]
  exact Nat.sub_pos_of_lt reading.missing

/-- What a read of the body brings. -/
theorem Reading.read (reading : req.Reading body) {limit : Nat} (arrived : 0 < available)
    (room : 0 < limit) :
    0 < (Stream.recv req.pending available limit).length ∧
      req.bytesRead + (Stream.recv req.pending available limit).length ≤ body.length ∧
      body.take (req.bytesRead + (Stream.recv req.pending available limit).length) =
        body.take req.bytesRead ++ Stream.recv req.pending available limit ∧
      Stream.rest req.pending available limit =
        body.drop (req.bytesRead + (Stream.recv req.pending available limit).length) := by
  have some := reading.pending_ne
  have taken := Stream.length_recv_pos some arrived room
  have whole := Stream.recv_append_rest req.pending available limit
  have left := Stream.rest_eq_drop req.pending available limit
  generalize Stream.recv req.pending available limit = read at taken whole left ⊢
  have shape : body.drop req.bytesRead = read ++ Stream.rest req.pending available limit := by
    rw [whole, reading.pending]
  have measured := congrArg List.length shape
  rw [List.length_drop, List.length_append] at measured
  have missing := reading.missing
  refine ⟨taken, by omega, Stream.take_piece shape, ?_⟩
  rw [left, reading.pending, List.drop_drop]

/-- The bytes that were read are counted, and with the last of them the request is processed. -/
theorem Reading.advance (reading : req.Reading body) {next : HttpReq}
    (registered : next.reader = .body) (log : next.log = req.log)
    (length : next.reqLen = req.reqLen) (reached : next.bytesRead ≤ body.length)
    (pending : next.pending = body.drop next.bytesRead)
    (stored : (next.file = none ∧
        next.buf.slice next.scgiHeaderLen next.bytesRead = body.take next.bytesRead) ∨
      next.file = some (body.take next.bytesRead)) :
    (if next.bytesRead = next.reqLen then next.httpReqProcess else next).Processed body ∨
      (if next.bytesRead = next.reqLen then next.httpReqProcess else next).Reading body := by
  have whole : next.reqLen = body.length := length.trans reading.length
  have quiet : next.log = [] := log.trans reading.log
  by_cases all : next.bytesRead = next.reqLen
  · rw [if_pos all]
    have last : next.bytesRead = body.length := all.trans whole
    rw [last, List.drop_length] at pending
    refine Or.inl (processed_of_all quiet ?_ pending)
    rw [last, List.take_length] at stored
    rcases stored with ⟨none, bytes⟩ | some
    · simp only [content, none]
      rw [whole]
      exact bytes
    · simp only [content, some]
  · rw [if_neg all]
    rw [whole] at all
    exact Or.inr ⟨registered, quiet, whole, reading.small, Nat.lt_of_le_of_ne reached all, pending,
      stored⟩

/-- Processing takes nothing from the socket. -/
theorem pending_advance (next : HttpReq) :
    (if next.bytesRead = next.reqLen then next.httpReqProcess else next).pending =
      next.pending := by
  split
  · rfl
  · rfl

/-- A readiness event while the body is read. -/
theorem Reading.event (reading : req.Reading body) (arrived : 0 < available) :
    ((req.event available).Processed body ∨ (req.event available).Reading body) ∧
      (req.event available).pending.length < req.pending.length := by
  have missing := reading.missing
  have left : sizeSub req.reqLen req.bytesRead = body.length - req.bytesRead := by
    rw [reading.length]
    exact Decimal.sizeSub_of_le (Nat.le_of_lt missing) reading.small
  have waiting := reading.pending_ne
  have positive := List.length_pos_of_ne_nil waiting
  have counted : ∀ count, req.bytesRead + count ≤ body.length →
      (req.bytesRead + count) % 2 ^ 64 = req.bytesRead + count := fun count bound =>
    Nat.mod_eq_of_lt (Nat.lt_of_le_of_lt bound reading.small)
  unfold HttpReq.event
  rw [if_neg waiting, reading.reader]
  simp only [httpReqBodyCb]
  rcases reading.stored with ⟨none, bytes⟩ | file
  · have room : 0 < sizeSub req.reqLen req.bytesRead := by
      rw [left]
      exact Nat.sub_pos_of_lt missing
    obtain ⟨taken, reached, extended, pending⟩ := reading.read arrived room
    have fewer := Stream.length_rest req.pending available (sizeSub req.reqLen req.bytesRead)
    simp only [none, httpReqBodyReadInBuff]
    generalize sizeSub req.reqLen req.bytesRead = limit at *
    generalize Stream.recv req.pending available limit = read at *
    generalize Stream.rest req.pending available limit = rest at *
    rw [if_neg (List.ne_nil_of_length_pos taken), counted _ reached]
    rw [pending_advance { req with
      buf := req.buf.write (req.scgiHeaderLen + req.bytesRead) read
      pending := rest
      bytesRead := req.bytesRead + read.length
      file := Option.none }]
    refine ⟨@Reading.advance body req reading { req with
      buf := req.buf.write (req.scgiHeaderLen + req.bytesRead) read
      pending := rest
      bytesRead := req.bytesRead + read.length
      file := Option.none } reading.reader rfl rfl reached pending (Or.inl ⟨rfl, ?_⟩), ?_⟩
    · dsimp only
      rw [Block.slice_write_append _ rfl rfl, bytes, extended]
    · dsimp only
      omega
  · have size : bufSize = 10240 := rfl
    have room : 0 < min (sizeSub req.reqLen req.bytesRead) bufSize := by
      omega
    obtain ⟨taken, reached, extended, pending⟩ := reading.read arrived room
    have fewer := Stream.length_rest req.pending available
      (min (sizeSub req.reqLen req.bytesRead) bufSize)
    simp only [file, httpReqBodyReadInFile]
    generalize min (sizeSub req.reqLen req.bytesRead) bufSize = limit at *
    generalize Stream.recv req.pending available limit = read at *
    generalize Stream.rest req.pending available limit = rest at *
    rw [counted _ reached, ← extended]
    rw [pending_advance { req with
      pending := rest
      bytesRead := req.bytesRead + read.length
      file := some (body.take (req.bytesRead + read.length)) }]
    refine ⟨@Reading.advance body req reading { req with
      pending := rest
      bytesRead := req.bytesRead + read.length
      file := some (body.take (req.bytesRead + read.length)) } reading.reader rfl rfl
        reached pending (Or.inr rfl), ?_⟩
    dsimp only
    omega

/-- What a worker is in while it takes a request with a body. -/
def Taking (req : HttpReq) (items : List Entry) (body : List UInt8) : Prop :=
  req.Collecting items body ∨ req.Processed body ∨ req.Reading body

/-- A request is processed once, with its body, when all of it was read. -/
def Consumes (junk : Nat → UInt8) (stream body : List UInt8) (grants : Nat → Nat) : Prop :=
  (∃ last, ∀ count, last ≤ count → (after junk stream grants count).log = [.process body]) ∧
  ∀ count, (after junk stream grants count).log = [] ∨
    ((after junk stream grants count).log = [.process body] ∧
      (after junk stream grants count).pending = [])

theorem Processed.event (processed : req.Processed body) (available : Nat) :
    req.event available = req := by
  rw [HttpReq.event, if_pos processed.pending]

/-- An event of a request whose block fits the buffer and announces its body. -/
theorem Taking.event (taking : req.Taking items body) (small : (frame items).length < 2 ^ 31)
    (fits : (frame items).length ≤ bufSize)
    (announced : declared (frame items) = some body.length) (arrived : 0 < available) :
    (req.event available).Taking items body ∧
      (¬ req.Processed body → (req.event available).pending.length < req.pending.length) := by
  rcases taking with collecting | processed | reading
  · rcases collecting.event small arrived with
      ⟨full, -⟩ | ⟨more, fewer⟩ | ⟨ready, whole, parsed, fewer⟩
    · have missing := collecting.missing
      omega
    · exact ⟨Or.inl more, fun _ => fewer⟩
    · rw [parsed, pending_parseBlock]
      exact ⟨Or.inr (whole.parseBlock_body announced), fun _ => fewer⟩
  · rw [processed.event]
    exact ⟨Or.inr (Or.inl processed), fun other => absurd processed other⟩
  · obtain ⟨next, fewer⟩ := reading.event arrived
    exact ⟨Or.inr next, fun _ => fewer⟩

variable {junk : Nat → UInt8} {grants : Nat → Nat}

/-- At any time the block is collected, the request was processed, or the body is read. -/
theorem taking_after (small : (frame items).length < 2 ^ 31)
    (fits : (frame items).length ≤ bufSize)
    (announced : declared (frame items) = some body.length)
    (arriving : ∀ count, 0 < grants count) (count : Nat) :
    (after junk (frame items ++ body) grants count).Taking items body :=
  Machine.invariant (fun req : HttpReq => req.Taking items body)
    (Or.inl (collecting_start junk items body))
    (fun count _ taking => (taking.event small fits announced (arriving count)).1) count

/-- A worker takes the frame of some entries and the bytes behind it for one request exactly when
the frame fits its buffer, provided it announces these bytes. -/
theorem consumes_frame_iff (small : (frame items).length < 2 ^ 31)
    (announced : declared (frame items) = some body.length)
    (arriving : ∀ count, 0 < grants count) :
    Consumes junk (frame items ++ body) body grants ↔ (frame items).length ≤ bufSize := by
  constructor
  · rintro ⟨⟨last, done⟩, -⟩
    have log := done last (Nat.le_refl _)
    rcases receiving_after junk body small arriving last with collecting | ⟨closed, -⟩ | ⟨-, fits⟩
    · rw [collecting.log] at log
      cases log
    · rw [closed.log] at log
      cases log
    · exact fits
  · intro fits
    obtain ⟨last, processed, -, -⟩ := @Machine.reaches _ _ event grants
      (start junk (frame items ++ body)) (fun req => req.Taking items body)
      (fun req => req.Processed body) (fun req => req.pending.length)
      (Or.inl (collecting_start junk items body)) fun count req taking goal => by
        obtain ⟨kept, fewer⟩ := taking.event small fits announced (arriving count)
        exact ⟨kept, fewer goal⟩
    have always := @taking_after items body junk grants small fits announced arriving
    refine ⟨⟨last, fun count later => ?_⟩, fun count => ?_⟩
    · exact (Machine.invariant_from (fun req : HttpReq => req.Processed body) processed
        (fun count req processed => by rw [processed.event]; exact processed) count later).log
    · rcases always count with collecting | processed | reading
      · exact Or.inl collecting.log
      · exact Or.inr ⟨processed.log, processed.pending⟩
      · exact Or.inl reading.log

end HttpReq
