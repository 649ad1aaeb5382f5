import Mathlib.Data.Nat.ModEq
import Webroar.Library.Block

/-! # Ring buffers

A ring buffer keeps a first-in-first-out list in an array: the items stand in consecutive cells,
and the cell behind the last one of the array is its first. What an operation does to the list is
stated here for a window of cells; the list itself is a queue of bounded length.
-/

universe u

namespace Block

variable {α : Type u}

/-- The `count` cells from `front` on in an array of `size` cells that is closed to a ring. -/
def ring (block : Block α) (size front count : Nat) : List α :=
  (List.range count).map fun k => block.cell ((front + k) % size)

variable {block : Block α} {size front count : Nat}

@[simp] theorem length_ring : (block.ring size front count).length = count := by
  simp [ring]

@[simp] theorem ring_zero : block.ring size front 0 = [] := rfl

/-- A window splits at any point. -/
theorem ring_add (first second : Nat) :
    block.ring size front (first + second) =
      block.ring size front first ++ block.ring size (front + first) second := by
  simp [ring, List.range_add, Nat.add_assoc]

theorem ring_one : block.ring size front 1 = [block.cell (front % size)] := by
  simp [ring]

/-- A window starts anew at the end of the array. -/
theorem ring_mod : block.ring size (front % size) count = block.ring size front count := by
  simp [ring]

theorem ring_succ :
    block.ring size front (count + 1) =
      block.ring size front count ++ [block.cell ((front + count) % size)] := by
  rw [ring_add, ring_one]

theorem ring_cons :
    block.ring size front (count + 1) =
      block.cell (front % size) :: block.ring size (front + 1) count := by
  rw [Nat.add_comm, ring_add, ring_one, List.singleton_append]

/-- Two cells of one turn are different. -/
theorem ring_apart {first second : Nat} (before : first < second)
    (near : second < first + size) : (front + first) % size ≠ (front + second) % size := by
  intro same
  have equal : Nat.ModEq size (front + first) (front + second) := same
  have divides := (Nat.modEq_iff_dvd' (by omega)).mp equal
  have least := Nat.le_of_dvd (by omega) divides
  omega

/-- A write does not change a window that does not have its cell. -/
theorem ring_write_of_ne {place : Nat} {item : α}
    (apart : ∀ k < count, (front + k) % size ≠ place) :
    (block.write place [item]).ring size front count = block.ring size front count := by
  refine List.map_congr_left fun k member => ?_
  have other := apart k (List.mem_range.mp member)
  simp only [write]
  by_cases behind : place ≤ (front + k) % size
  · have past : [item].length ≤ (front + k) % size - place := by
      rw [List.length_singleton]
      omega
    rw [if_pos behind, List.getElem?_eq_none past, Option.getD_none]
  · rw [if_neg behind]

theorem cell_write_self {place : Nat} {item : α} :
    (block.write place [item]).cell place = item := by
  simp [write]

/-- Writing into the cell behind a window extends the window. -/
theorem ring_write_append {item : α} (room : count < size) :
    (block.write ((front + count) % size) [item]).ring size front (count + 1) =
      block.ring size front count ++ [item] := by
  rw [ring_succ, cell_write_self, ring_write_of_ne]
  intro k inside
  exact ring_apart inside (by omega)

/-- Writing into a cell of a window leaves the cells behind it. -/
theorem ring_write_behind {item : α} {place left : Nat} (room : place + left < size) :
    (block.write ((front + place) % size) [item]).ring size (front + place + 1) left =
      block.ring size (front + place + 1) left := by
  apply ring_write_of_ne
  intro k inside
  have apart : (front + place) % size ≠ (front + (place + 1 + k)) % size :=
    ring_apart (by omega) (by omega)
  rw [Nat.add_assoc front place 1, Nat.add_assoc front]
  exact apart.symm

end Block

/-! ### Bounded queues -/

namespace Fifo

/-- What a queue is asked for. -/
inductive Request (α : Type u) where
  | insert (item : α)
  | fetch
  | remove (item : α)

/-- What a queue answers: whether an insertion or a removal was made, or what was fetched. -/
inductive Answer (α : Type u) where
  | done (success : Bool)
  | item (found : Option α)
deriving DecidableEq

variable {α : Type u} [DecidableEq α]

/-- A queue of at most `capacity` items: an item is appended unless the queue is full, the oldest
one is fetched, the first one that equals a given one is removed. -/
def perform (capacity : Nat) (items : List α) : Request α → List α × Answer α
  | .insert item =>
      if items.length < capacity then (items ++ [item], .done true) else (items, .done false)
  | .fetch => (items.tail, .item items.head?)
  | .remove item =>
      if item ∈ items then (items.erase item, .done true) else (items, .done false)

/-- What a sequence of requests leads to, and the answers. -/
def run (capacity : Nat) (items : List α) : List (Request α) → List α × List (Answer α)
  | [] => (items, [])
  | request :: requests =>
      let (items, answer) := perform capacity items request
      let (items, answers) := run capacity items requests
      (items, answer :: answers)

end Fifo
