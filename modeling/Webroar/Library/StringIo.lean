import Mathlib

/-! # Streams over a text

A stream over a text held in memory is the text and a position in it. A call on it reads from the
position on and moves it behind what it read, or sets it back to the start. What a call gives
depends on the bytes not read so far only.
-/

/-- A call on a stream. -/
inductive StreamCall where
  /-- Read up to a number of bytes, or all. -/
  | read (len : Option Int)
  /-- Read a line. -/
  | gets
  /-- Read all lines. -/
  | each
  | rewind
deriving DecidableEq, Repr

/-- What a call answers. -/
inductive StreamAnswer where
  | nil
  | string (bytes : List UInt8)
  | lines (read : List (List UInt8))
  | raised
  /-- The stream was set back. -/
  | done
deriving DecidableEq, Repr

namespace StreamAnswer

/-- The bytes of an answer; a raised exception is not an answer of no bytes. -/
def bytes : StreamAnswer → Option (List UInt8)
  | nil | done => some []
  | string bytes => some bytes
  | lines read => some read.flatten
  | raised => none

end StreamAnswer

/-- A text and the position of the next byte. -/
structure StringIo where
  string : List UInt8
  pos : Nat
deriving DecidableEq, Repr

namespace StringIo

/-- A line at the front of some bytes, up to and with the next newline. -/
def line : List UInt8 → List UInt8
  | [] => []
  | byte :: rest => if byte = 10 then [byte] else byte :: line rest

/-- Some bytes cut into lines. -/
def lines : List UInt8 → List (List UInt8)
  | [] => []
  | byte :: rest =>
      if byte = 10 then
        [byte] :: lines rest
      else
        match lines rest with
        | [] => [[byte]]
        | first :: others => (byte :: first) :: others

/-- What a reading call gives of the bytes not read so far, and how many of them it takes. Only a
read of a positive number of bytes answers nil at the end; a number that is negative or no `long`
is refused. -/
def serve (rest : List UInt8) : StreamCall → StreamAnswer × Nat
  | .read none => (.string rest, rest.length)
  | .read (some len) =>
      if len < 0 ∨ 2 ^ 63 ≤ len then (.raised, 0)
      else if 0 < len ∧ rest = [] then (.nil, 0)
      else (.string (rest.take len.toNat), min len.toNat rest.length)
  | .gets => if rest = [] then (.nil, 0) else (.string (line rest), (line rest).length)
  | .each => (.lines (lines rest), rest.length)
  | .rewind => (.done, 0)

/-- A call on a stream. -/
def call (io : StringIo) (next : StreamCall) : StreamAnswer × StringIo :=
  let (answer, taken) := serve (io.string.drop io.pos) next
  (answer, { io with pos := if next = .rewind then 0 else io.pos + taken })

/-- What some calls answer one after the other. -/
def run (io : StringIo) : List StreamCall → List StreamAnswer
  | [] => []
  | next :: rest => (io.call next).1 :: (io.call next).2.run rest

theorem flatten_lines (bytes : List UInt8) : (lines bytes).flatten = bytes := by
  induction bytes with
  | nil => rfl
  | cons byte rest ih =>
      rw [lines]
      split
      · rw [List.flatten_cons, ih]
        rfl
      · cases cut : lines rest with
        | nil =>
            rw [cut] at ih
            rw [← ih]
            rfl
        | cons first others =>
            rw [cut] at ih
            rw [← ih]
            rfl

theorem line_cons (byte : UInt8) (rest : List UInt8) : ∃ more, line (byte :: rest) = byte :: more := by
  rw [line]
  split
  · exact ⟨[], rfl⟩
  · exact ⟨line rest, rfl⟩

/-- The bytes of a line are bytes of the text. -/
theorem mem_of_mem_line {byte : UInt8} {bytes : List UInt8} (member : byte ∈ line bytes) :
    byte ∈ bytes := by
  induction bytes with
  | nil => exact member
  | cons first rest ih =>
      rw [line] at member
      split at member
      · rw [List.mem_singleton] at member
        exact member ▸ List.mem_cons_self
      · cases member with
        | head => exact List.mem_cons_self
        | tail _ later => exact List.mem_cons_of_mem _ (ih later)

/-- A read of a length that is not negative takes the next bytes. -/
theorem call_read {len : Int} (io : StringIo) (positive : 0 ≤ len) (small : len < 2 ^ 63) :
    io.call (.read (some len)) =
      (if 0 < len ∧ io.string.drop io.pos = [] then .nil
        else .string ((io.string.drop io.pos).take len.toNat),
        { io with pos := io.pos + min len.toNat (io.string.drop io.pos).length }) := by
  have accepted : ¬ (len < 0 ∨ 2 ^ 63 ≤ len) := by omega
  simp only [call, serve, if_neg accepted, reduceCtorEq, ↓reduceIte]
  by_cases last : 0 < len ∧ io.string.drop io.pos = []
  · rw [if_pos last, if_pos last, last.2, List.length_nil, Nat.min_zero]
  · rw [if_neg last, if_neg last]

theorem call_read_refused {len : Int} (io : StringIo) (refused : len < 0 ∨ 2 ^ 63 ≤ len) :
    io.call (.read (some len)) = (.raised, io) := by
  simp only [call, serve, if_pos refused, reduceCtorEq, ↓reduceIte, Nat.add_zero]

end StringIo
