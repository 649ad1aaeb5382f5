import Webroar.Scgi.Build
import Webroar.Library.Transition

/-! # Sending an object

A finished object is sent in pieces: `scgi_send` goes on where the last call ended, first in the
header block and then in the body. A call of `send` takes what there is room for on the socket, and
does not fail here.
-/

open Decimal (toInt32)

/-- Send what is left of the header block, or of the body in memory: the bytes that were taken
come with the result. -/
def Scgi.send (scgi : Scgi) (room : Nat) : Scgi × Int × List UInt8 :=
  let headerBytes := scgi.headerOffset - scgi.startOffset
  if scgi.length ≤ scgi.bytesSent then
    (scgi, 1, [])
  else if headerBytes ≤ scgi.bytesSent ∧ scgi.body = none then
    (scgi, 1, [])
  else
    let buffer :=
      if headerBytes ≤ scgi.bytesSent then
        (scgi.body.getD []).drop (scgi.bytesSent - headerBytes)
      else
        scgi.header.slice (scgi.startOffset + scgi.bytesSent) (headerBytes - scgi.bytesSent)
    let sent := Stream.send buffer room
    ({ scgi with bytesSent := scgi.bytesSent + sent.length }, toInt32 sent.length, sent)

/-- Sending from a finished object of which something is left takes a beginning of that. -/
theorem Scgi.send_unfinished {scgi : Scgi} {block memory : List UInt8} {room : Nat}
    (length : scgi.length = block.length + memory.length) (finished : scgi.block = block)
    (held : scgi.body.getD [] = memory) (missing : scgi.bytesSent < block.length + memory.length)
    (arrived : 0 < room) :
    ∃ piece rest, 0 < piece.length ∧ piece.length < 2 ^ 31 ∧
      (block ++ memory).drop scgi.bytesSent = piece ++ rest ∧
      scgi.send room =
        ({ scgi with bytesSent := scgi.bytesSent + piece.length }, toInt32 piece.length, piece) := by
  have headerBytes : scgi.headerOffset - scgi.startOffset = block.length := by
    rw [← finished, Scgi.block, Block.length_slice]
  have unfinished : ¬ scgi.length ≤ scgi.bytesSent := by
    rw [length]
    exact Nat.not_le_of_lt missing
  unfold Scgi.send
  simp only [headerBytes, if_neg unfinished, held]
  generalize scgi.bytesSent = start at missing
  by_cases behind : block.length ≤ start
  · have some : scgi.body ≠ none := by
      intro none
      rw [none] at held
      rw [← held, Option.getD_none, List.length_nil] at missing
      omega
    have left : (block ++ memory).drop start = memory.drop (start - block.length) := by
      rw [List.drop_append, List.drop_of_length_le behind, List.nil_append]
    have nonempty : memory.drop (start - block.length) ≠ [] := by
      apply List.ne_nil_of_length_pos
      rw [List.length_drop]
      omega
    obtain ⟨shape, small, positive⟩ :=
      Stream.send_spec (memory.drop (start - block.length)) room
    rw [if_neg fun both => some both.2, if_pos behind, left]
    exact ⟨_, _, positive nonempty arrived, small, shape, rfl⟩
  · have before : start ≤ block.length := Nat.le_of_not_le behind
    have cut : scgi.header.slice (scgi.startOffset + start)
        (block.length - start) = block.drop start := by
      refine (Block.slice_of_append (block.take start) (block.drop start) ?_ ?_).2
      · rw [Nat.add_sub_cancel' before, List.take_append_drop, ← headerBytes]
        exact finished
      · rw [List.length_take, Nat.min_eq_left before]
    have nonempty : block.drop start ≠ [] := by
      apply List.ne_nil_of_length_pos
      rw [List.length_drop]
      omega
    obtain ⟨shape, small, positive⟩ := Stream.send_spec (block.drop start) room
    rw [if_neg fun both => behind both.1, if_neg behind, cut, List.drop_append_of_le_length before]
    refine ⟨_, (block.drop start).drop (Stream.send (block.drop start) room).length ++ memory,
      positive nonempty arrived, small, ?_, rfl⟩
    rw [← List.append_assoc, ← shape]
