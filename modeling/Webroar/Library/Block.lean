import Mathlib.Data.List.Basic
import Mathlib.Data.List.Range
import Mathlib.Tactic.Cases

/-! # Memory blocks

A block of heap memory is a total function from cell numbers to values together with its
allocated size. Reading is total; a write that leaves the allocated cells is remembered by
the sticky flag `wild`, so one fact about the final block covers every write made on the way.
A reallocation that keeps the contents only changes the size.
-/

universe u

/-- A heap block: its allocated size, its cells, and whether a write ever left it. -/
structure Block (α : Type u) where
  /-- The number of allocated cells. -/
  size : Nat
  /-- The contents; cells at or after `size` are not allocated. -/
  cell : Nat → α
  /-- Set by the first write outside the allocated cells and never cleared. -/
  wild : Bool

namespace Block

variable {α : Type u}

/-- Copy `data` into the block from cell `offset` on. -/
def write (block : Block α) (offset : Nat) (data : List α) : Block α where
  size := block.size
  cell := fun i => if offset ≤ i then (data[i - offset]?).getD (block.cell i) else block.cell i
  wild := block.wild || decide (block.size < offset + data.length)

/-- Change the allocated size and keep the contents. -/
def resize (block : Block α) (size : Nat) : Block α :=
  { block with size := size }

/-- Rewrite the `length` cells from `offset` on in place. -/
def modify (block : Block α) (offset length : Nat) (f : α → α) : Block α where
  size := block.size
  cell := fun i => if offset ≤ i ∧ i < offset + length then f (block.cell i) else block.cell i
  wild := block.wild || decide (block.size < offset + length)

/-- The `length` cells from `offset` on, in order. -/
def slice (block : Block α) (offset length : Nat) : List α :=
  (List.range length).map fun k => block.cell (offset + k)

/-- The block that holds exactly `data`; the cells after it read as `filler`. -/
def ofList (data : List α) (filler : α) : Block α where
  size := data.length
  cell := fun i => (data[i]?).getD filler
  wild := false

@[simp] theorem size_write (block : Block α) (offset : Nat) (data : List α) :
    (block.write offset data).size = block.size := rfl

@[simp] theorem size_resize (block : Block α) (size : Nat) :
    (block.resize size).size = size := rfl

@[simp] theorem size_modify (block : Block α) (offset length : Nat) (f : α → α) :
    (block.modify offset length f).size = block.size := rfl

@[simp] theorem size_ofList (data : List α) (filler : α) :
    (ofList data filler).size = data.length := rfl

@[simp] theorem wild_resize (block : Block α) (size : Nat) :
    (block.resize size).wild = block.wild := rfl

@[simp] theorem slice_resize (block : Block α) (size offset length : Nat) :
    (block.resize size).slice offset length = block.slice offset length := rfl

@[simp] theorem length_slice (block : Block α) (offset length : Nat) :
    (block.slice offset length).length = length := by
  simp [slice]

@[simp] theorem slice_zero (block : Block α) (offset : Nat) : block.slice offset 0 = [] := rfl

theorem wild_write_iff (block : Block α) (offset : Nat) (data : List α) :
    (block.write offset data).wild = true ↔
      block.wild = true ∨ block.size < offset + data.length := by
  simp only [write, Bool.or_eq_true, decide_eq_true_eq]

/-- A write inside the allocated cells leaves the flag as it was. -/
theorem wild_write_of_le (block : Block α) (offset : Nat) (data : List α)
    (room : offset + data.length ≤ block.size) :
    (block.write offset data).wild = block.wild := by
  simp [write, room]

/-- Rewriting allocated cells leaves the flag as it was. -/
theorem wild_modify_of_le (block : Block α) (offset length : Nat) (f : α → α)
    (room : offset + length ≤ block.size) :
    (block.modify offset length f).wild = block.wild := by
  simp [modify, room]

theorem wild_modify_iff (block : Block α) (offset length : Nat) (f : α → α) :
    (block.modify offset length f).wild = true ↔
      block.wild = true ∨ block.size < offset + length := by
  simp only [modify, Bool.or_eq_true, decide_eq_true_eq]

/-- Two blocks that agree on a range of cells have the same slice there. -/
theorem slice_congr {first second : Block α} {offset length : Nat}
    (agree : ∀ i, offset ≤ i → i < offset + length → first.cell i = second.cell i) :
    first.slice offset length = second.slice offset length := by
  refine List.map_congr_left fun k member => ?_
  have bound : k < length := List.mem_range.mp member
  exact agree (offset + k) (by omega) (by omega)

/-- A slice splits at any point. -/
theorem slice_add (block : Block α) (offset first second : Nat) :
    block.slice offset (first + second) =
      block.slice offset first ++ block.slice (offset + first) second := by
  simp only [slice, List.range_add, List.map_append, List.map_map]
  congr 1
  refine List.map_congr_left fun k _ => ?_
  simp [Nat.add_assoc]

/-- What was written is read back. -/
@[simp] theorem slice_write_self (block : Block α) (offset : Nat) (data : List α) :
    (block.write offset data).slice offset data.length = data := by
  refine List.ext_getElem (by simp) fun k _ bound => ?_
  simp [slice, write, bound]

/-- Reading back what was written, with the length given by an equation. -/
theorem slice_write_eq (block : Block α) (offset length : Nat) (data : List α)
    (measured : length = data.length) :
    (block.write offset data).slice offset length = data := by
  subst measured
  exact slice_write_self block offset data

/-- A write does not change cells before it. -/
theorem slice_write_of_le (block : Block α) (offset from' length : Nat) (data : List α)
    (before : from' + length ≤ offset) :
    (block.write offset data).slice from' length = block.slice from' length := by
  refine slice_congr fun i _ below => ?_
  have outside : ¬ offset ≤ i := by omega
  simp [write, outside]

/-- A write does not change cells after it. -/
theorem slice_write_of_ge (block : Block α) (offset from' length : Nat) (data : List α)
    (after : offset + data.length ≤ from') :
    (block.write offset data).slice from' length = block.slice from' length := by
  refine slice_congr fun i above _ => ?_
  have outside : data.length ≤ i - offset := by omega
  simp [write, outside]

/-- Writing at the end of a slice extends the slice by what was written. -/
theorem slice_write_append (block : Block α) {offset from' length total : Nat} {data : List α}
    (atEnd : offset = from' + length) (extended : total = length + data.length) :
    (block.write offset data).slice from' total = block.slice from' length ++ data := by
  subst atEnd extended
  rw [slice_add, slice_write_of_le _ _ _ _ _ (Nat.le_refl _), slice_write_self]

/-- A slice of known contents determines the slices of its parts. -/
theorem slice_of_append {block : Block α} {offset first second : Nat} (left right : List α)
    (whole : block.slice offset (first + second) = left ++ right)
    (measured : left.length = first) :
    block.slice offset first = left ∧ block.slice (offset + first) second = right := by
  rw [slice_add] at whole
  exact List.append_inj whole (by rw [length_slice, measured])

/-- Two writes one after the other are one write. -/
theorem write_write_append (block : Block α) {offset next : Nat} {first second : List α}
    (adjacent : next = offset + first.length) :
    (block.write offset first).write next second = block.write offset (first ++ second) := by
  subst adjacent
  have cells : ((block.write offset first).write (offset + first.length) second).cell =
      (block.write offset (first ++ second)).cell := by
    funext i
    simp only [write]
    by_cases before : offset ≤ i
    · by_cases inside : offset + first.length ≤ i
      · have past : first.length ≤ i - offset := by omega
        have same : i - (offset + first.length) = i - offset - first.length := by omega
        simp [before, inside, List.getElem?_append_right past, past, same]
      · have within : i - offset < first.length := by omega
        simp [before, inside, List.getElem?_append_left within]
    · have outside : ¬ offset + first.length ≤ i := by omega
      simp [before, outside]
  have flags : ((block.write offset first).write (offset + first.length) second).wild =
      (block.write offset (first ++ second)).wild := by
    rw [Bool.eq_iff_iff]
    rw [wild_write_iff, wild_write_iff, wild_write_iff, size_write, List.length_append, or_assoc]
    refine or_congr_right ?_
    omega
  exact Block.mk.injEq .. ▸ ⟨rfl, cells, flags⟩

/-- A write just before another one is one write with it. -/
theorem write_write_prepend (block : Block α) {offset next : Nat} {first second : List α}
    (adjacent : next = offset + first.length) :
    (block.write next second).write offset first = block.write offset (first ++ second) := by
  rw [← write_write_append block adjacent]
  subst adjacent
  have cells : ((block.write (offset + first.length) second).write offset first).cell =
      ((block.write offset first).write (offset + first.length) second).cell := by
    funext i
    simp only [write]
    by_cases inside : offset + first.length ≤ i
    · have before : offset ≤ i := by omega
      have past : first.length ≤ i - offset := by omega
      simp [before, inside, past]
    · simp [inside]
  have flags : ((block.write (offset + first.length) second).write offset first).wild =
      ((block.write offset first).write (offset + first.length) second).wild := by
    rw [Bool.eq_iff_iff]
    rw [wild_write_iff, wild_write_iff, wild_write_iff, wild_write_iff, size_write, size_write,
      or_assoc, or_assoc]
    exact or_congr_right (Or.comm)
  exact Block.mk.injEq .. ▸ ⟨rfl, cells, flags⟩

/-- Rewriting a range in place maps its slice. -/
theorem slice_modify_self (block : Block α) (offset length : Nat) (f : α → α) :
    (block.modify offset length f).slice offset length = (block.slice offset length).map f := by
  simp only [slice, List.map_map]
  refine List.map_congr_left fun k member => ?_
  have bound : k < length := List.mem_range.mp member
  simp [modify, bound]

/-- Rewriting a range in place does not change cells before it. -/
theorem slice_modify_of_le (block : Block α) (offset length from' count : Nat) (f : α → α)
    (before : from' + count ≤ offset) :
    (block.modify offset length f).slice from' count = block.slice from' count := by
  refine slice_congr fun i _ below => ?_
  have outside : ¬ offset ≤ i := by omega
  simp [modify, outside]

/-- Writing at the end of a slice and rewriting what was written in place. -/
theorem slice_modify_write_append (block : Block α) {offset from' length count total : Nat}
    {data : List α} (f : α → α) (atEnd : offset = from' + length) (covered : count = data.length)
    (extended : total = length + data.length) :
    ((block.write offset data).modify offset count f).slice from' total =
      block.slice from' length ++ data.map f := by
  subst atEnd covered extended
  rw [slice_add, slice_modify_of_le _ _ _ _ _ _ (Nat.le_refl _), slice_modify_self,
    slice_write_self, slice_write_of_le _ _ _ _ _ (Nat.le_refl _)]

/-- Rewriting in place what was just written is writing it rewritten. -/
theorem modify_write_self (block : Block α) (offset : Nat) (data : List α) (f : α → α) :
    (block.write offset data).modify offset data.length f = block.write offset (data.map f) := by
  have cells : ((block.write offset data).modify offset data.length f).cell =
      (block.write offset (data.map f)).cell := by
    funext i
    simp only [write, modify]
    by_cases above : offset ≤ i
    · by_cases inside : i < offset + data.length
      · have bound : i - offset < data.length := by omega
        simp [above, inside, bound]
      · have past : data.length ≤ i - offset := by omega
        simp [above, inside, past]
    · simp [above]
  have flags : ((block.write offset data).modify offset data.length f).wild =
      (block.write offset (data.map f)).wild := by
    rw [Bool.eq_iff_iff, wild_modify_iff, wild_write_iff, wild_write_iff, size_write,
      List.length_map, or_assoc, or_self]
  exact Block.mk.injEq .. ▸ ⟨rfl, cells, flags⟩

/-- A slice of a block made from a list is the matching part of the list. -/
theorem slice_ofList (data : List α) (filler : α) (offset length : Nat)
    (room : offset + length ≤ data.length) :
    (ofList data filler).slice offset length = (data.drop offset).take length := by
  refine List.ext_getElem (by simp; omega) fun k bound _ => ?_
  have small : k < length := by simpa using bound
  have inside : offset + k < data.length := by omega
  simp [slice, ofList, inside]

end Block
