import Webroar.Library.Ring

/-! # The queue of the head

`wr_queue.c` keeps a queue of pointers in an array of fixed size. The two ends are indices that
turn round at the end of the array and are both -1 while the queue is empty; a removal by value
moves the later elements one cell forward. `wr_queue.h` has insertion and fetching as macros too.

Elements are pointers, `none` is NULL. An access outside the array gives nothing. A queue pointer
is never NULL here, and allocation succeeds.
-/

/-- A `short` holds sixteen bits. -/
def toShort (value : Int) : Int := (value + 32768) % 65536 - 32768

theorem toShort_eq {value : Int} (least : -32768 ≤ value) (most : value ≤ 32767) :
    toShort value = value := by
  unfold toShort
  omega

structure Queue (α : Type) where
  qFront : Int
  qMaxSize : Int
  qRear : Int
  qCount : Int
  qElements : Block (Option α)

namespace Queue

variable {α : Type}

/-- A new queue; `junk` is what its fresh array contains. -/
def new (size : Int) (junk : Nat → Option α) : Queue α where
  qFront := -1
  qRear := -1
  qCount := 0
  qMaxSize := size
  qElements := ⟨size.toNat, junk, false⟩

/-- Read an element of the array. -/
def load (queue : Queue α) (index : Int) : Option (Option α) :=
  if 0 ≤ index ∧ index < queue.qElements.size then
    some (queue.qElements.cell index.toNat)
  else
    none

/-- Write an element of the array. -/
def store (queue : Queue α) (index : Int) (element : Option α) : Option (Queue α) :=
  if 0 ≤ index ∧ index < queue.qElements.size then
    some { queue with qElements := queue.qElements.write index.toNat [element] }
  else
    none

/-- `wr_queue_insert`. -/
def insert (queue : Queue α) (element : Option α) : Option (Queue α × Int) :=
  if queue.qCount < queue.qMaxSize then do
    let queue := { queue with qCount := toShort (queue.qCount + 1) }
    let queue := { queue with qRear := toShort ((queue.qRear + 1).tmod queue.qMaxSize) }
    let queue := if queue.qFront = -1 then { queue with qFront := 0 } else queue
    let queue ← queue.store queue.qRear element
    some (queue, 0)
  else
    some (queue, -1)

/-- `WR_QUEUE_INSERT`; the number is `retval`. -/
def insertMacro (queue : Queue α) (element : Option α) : Option (Queue α × Int) :=
  let retval := -1
  if queue.qCount < queue.qMaxSize then do
    let queue := { queue with qCount := toShort (queue.qCount + 1) }
    let queue := { queue with qRear := toShort ((queue.qRear + 1).tmod queue.qMaxSize) }
    let queue := if queue.qFront = -1 then { queue with qFront := 0 } else queue
    let queue ← queue.store queue.qRear element
    let retval := 0
    some (queue, retval)
  else
    some (queue, retval)

/-- `wr_queue_fetch`. -/
def fetch (queue : Queue α) : Option (Queue α × Option α) :=
  if 0 < queue.qCount then do
    let element ← queue.load queue.qFront
    let queue :=
      if queue.qRear = queue.qFront then
        { queue with qRear := -1, qFront := -1 }
      else
        { queue with qFront := toShort ((queue.qFront + 1).tmod queue.qMaxSize) }
    some ({ queue with qCount := toShort (queue.qCount - 1) }, element)
  else
    some (queue, none)

/-- `WR_QUEUE_FETCH`; the pointer is `element`. -/
def fetchMacro (queue : Queue α) : Option (Queue α × Option α) :=
  let element := none
  if 0 < queue.qCount then do
    let element ← queue.load queue.qFront
    let queue :=
      if queue.qRear = queue.qFront then
        { queue with qRear := -1, qFront := -1 }
      else
        { queue with qFront := toShort ((queue.qFront + 1).tmod queue.qMaxSize) }
    let queue := { queue with qCount := toShort (queue.qCount - 1) }
    some (queue, element)
  else
    some (queue, element)

section Remove

variable [DecidableEq α]

/-- The first loop of `wr_queue_remove`: where the element is, `left` elements from `i` on. -/
def search (queue : Queue α) (element : Option α) : Nat → Nat → Option Nat
  | 0, i => some i
  | left + 1, i => do
      let held ← queue.load ((queue.qFront + i).tmod queue.qMaxSize)
      if held = element then some i else queue.search element left (i + 1)

/-- The second loop of `wr_queue_remove`: `left` elements are moved, the first of them to
position `i`. -/
def shift (queue : Queue α) : Nat → Nat → Option (Queue α)
  | 0, _ => some queue
  | left + 1, i => do
      let held ← queue.load ((queue.qFront + i + 1).tmod queue.qMaxSize)
      let queue ← queue.store ((queue.qFront + i).tmod queue.qMaxSize) held
      queue.shift left (i + 1)

/-- `wr_queue_remove`. -/
def remove (queue : Queue α) (element : Option α) : Option (Queue α × Int) := do
  let i ← queue.search element queue.qCount.toNat 0
  if (i : Int) = queue.qCount then
    some (queue, -1)
  else
    let queue := { queue with qCount := toShort (queue.qCount - 1) }
    let queue ← queue.shift (queue.qCount - i).toNat i
    let queue :=
      if queue.qRear = queue.qFront then
        { queue with qRear := -1, qFront := -1 }
      else if queue.qRear = 0 then
        { queue with qRear := toShort (queue.qMaxSize - 1) }
      else
        { queue with qRear := toShort (queue.qRear - 1) }
    some (queue, 0)

end Remove

/-- A use of a queue. -/
inductive Call (α : Type) where
  | insert (element : Option α)
  | insertMacro (element : Option α)
  | fetch
  | fetchMacro
  | remove (element : Option α)

/-- What a use of a queue gives. -/
inductive Result (α : Type) where
  | status (value : Int)
  | element (pointer : Option α)
deriving DecidableEq

section Run

variable [DecidableEq α]

def step (queue : Queue α) : Call α → Option (Queue α × Result α)
  | .insert element => (queue.insert element).map fun after => (after.1, .status after.2)
  | .insertMacro element => (queue.insertMacro element).map fun after => (after.1, .status after.2)
  | .fetch => queue.fetch.map fun after => (after.1, .element after.2)
  | .fetchMacro => queue.fetchMacro.map fun after => (after.1, .element after.2)
  | .remove element => (queue.remove element).map fun after => (after.1, .status after.2)

def run (queue : Queue α) : List (Call α) → Option (Queue α × List (Result α))
  | [] => some (queue, [])
  | call :: calls => do
      let (queue, result) ← queue.step call
      let (queue, results) ← queue.run calls
      some (queue, result :: results)

end Run

/-- The elements of a queue, oldest first. -/
def contents (queue : Queue α) : List (Option α) :=
  queue.qElements.ring queue.qMaxSize.toNat queue.qFront.toNat queue.qCount.toNat

/-- What a use of a queue means for the list of its elements. -/
def Call.request : Call α → Fifo.Request (Option α)
  | .insert element => .insert element
  | .insertMacro element => .insert element
  | .fetch => .fetch
  | .fetchMacro => .fetch
  | .remove element => .remove element

/-- An answer as the code gives it: 0 or -1, or a pointer, which is NULL where there is none. -/
def Result.of : Fifo.Answer (Option α) → Result α
  | .done success => .status (if success then 0 else -1)
  | .item found => .element found.join

/-- The four numbers of a queue and the cells of its array show a list. -/
structure Shows (queue : Queue α) (capacity : Nat) (items : List (Option α)) : Prop where
  least : 1 ≤ capacity
  most : capacity ≤ 32767
  maxSize : queue.qMaxSize = capacity
  size : queue.qElements.size = capacity
  count : queue.qCount = items.length
  bounded : items.length ≤ capacity
  empty : items = [] → queue.qFront = -1 ∧ queue.qRear = -1
  filled : items ≠ [] → ∃ front : Nat, front < capacity ∧ queue.qFront = front ∧
    queue.qRear = ((front + items.length - 1) % capacity : Nat) ∧
    queue.qElements.ring capacity front items.length = items

variable {queue : Queue α} {capacity front : Nat} {items : List (Option α)}

theorem Shows.new {junk : Nat → Option α} (least : 1 ≤ capacity) (most : capacity ≤ 32767) :
    (Queue.new capacity junk).Shows capacity [] :=
  ⟨least, most, rfl, rfl, rfl, Nat.zero_le _, fun _ => ⟨rfl, rfl⟩, fun some => absurd rfl some⟩

theorem Shows.contents (shows : queue.Shows capacity items) : queue.contents = items := by
  unfold Queue.contents
  rw [shows.maxSize, shows.count, Int.toNat_natCast, Int.toNat_natCast]
  by_cases empty : items = []
  · rw [empty, List.length_nil, Block.ring_zero]
  · obtain ⟨front, -, atFront, -, cells⟩ := shows.filled empty
    rw [atFront, Int.toNat_natCast, cells]

/-- The indices are -1 exactly when nothing is there. -/
theorem Shows.empty_iff (shows : queue.Shows capacity items) :
    queue.qFront = -1 ∧ queue.qRear = -1 ↔ items = [] := by
  constructor
  · intro both
    by_contra some
    obtain ⟨front, -, atFront, -⟩ := shows.filled some
    have negative := atFront.symm.trans both.1
    omega
  · exact shows.empty

/-- The index of the place that is `count` cells behind another one. -/
theorem tmod_add (place count size : Nat) :
    ((place : Int) + count).tmod size = ((place + count) % size : Nat) := rfl

theorem tmod_succ (place size : Nat) :
    ((place : Int) + 1).tmod size = ((place + 1) % size : Nat) := rfl

/-- An index fits a `short`. -/
theorem toShort_index {place : Nat} (below : place < capacity) (most : capacity ≤ 32767) :
    toShort (place : Int) = place := toShort_eq (by omega) (by omega)

theorem load_natCast {place : Nat} (inside : place < queue.qElements.size) :
    queue.load place = some (queue.qElements.cell place) := by
  unfold load
  rw [if_pos ⟨by omega, by omega⟩, Int.toNat_natCast]

theorem store_natCast {place : Nat} {element : Option α} (inside : place < queue.qElements.size) :
    queue.store place element =
      some { queue with qElements := queue.qElements.write place [element] } := by
  unfold store
  rw [if_pos ⟨by omega, by omega⟩, Int.toNat_natCast]

/-- One step back from a place on the ring. -/
theorem step_back {place size : Nat} (some : 0 < size) :
    ((place + 1) % size = 0 → place % size = size - 1) ∧
      ((place + 1) % size ≠ 0 → place % size = (place + 1) % size - 1) := by
  have below := Nat.mod_lt place some
  rw [← Nat.mod_add_mod place size 1]
  generalize place % size = reached at below
  by_cases last : reached + 1 = size
  · rw [last, Nat.mod_self]
    exact ⟨fun _ => by omega, fun other => absurd rfl other⟩
  · rw [Nat.mod_eq_of_lt (by omega)]
    exact ⟨fun none => absurd none (Nat.succ_ne_zero reached), fun _ => rfl⟩

/-! ### Insertion -/

theorem insertMacro_eq (element : Option α) : queue.insertMacro element = queue.insert element :=
  rfl

theorem Shows.insert (shows : queue.Shows capacity items) (element : Option α)
    (room : items.length < capacity) :
    ∃ next, queue.insert element = some (next, 0) ∧ next.Shows capacity (items ++ [element]) := by
  obtain ⟨least, most, maxSize, size, count, bounded, empty, filled⟩ := shows
  have space : queue.qCount < queue.qMaxSize := by omega
  have counted : toShort (queue.qCount + 1) = (items.length + 1 : Nat) := by
    rw [toShort_eq (by omega) (by omega), count]
    rfl
  have longer : (items ++ [element]).length = items.length + 1 := List.length_append
  -- Where the list starts afterwards: at the first cell if there was none before.
  obtain ⟨front, inside, atFront, atRear, cells⟩ : ∃ front : Nat, front < capacity ∧
      (if queue.qFront = -1 then 0 else queue.qFront) = front ∧
      toShort ((queue.qRear + 1).tmod queue.qMaxSize) = ((front + items.length) % capacity : Nat) ∧
      queue.qElements.ring capacity front items.length = items := by
    by_cases none : items = []
    · obtain ⟨noFront, noRear⟩ := empty none
      refine ⟨0, least, if_pos noFront, ?_, ?_⟩
      · rw [noRear, none, List.length_nil, Nat.add_zero, Nat.zero_mod, maxSize]
        exact toShort_index (Nat.lt_of_lt_of_le Nat.zero_lt_one least) most
      · rw [none, List.length_nil, Block.ring_zero]
    · obtain ⟨front, inside, atFront, atRear, cells⟩ := filled none
      have some := List.length_pos_of_ne_nil none
      refine ⟨front, inside, ?_, ?_, cells⟩
      · rw [atFront, if_neg (by omega)]
      · have next : ((front + items.length - 1) % capacity + 1) % capacity =
            (front + items.length) % capacity := by
          rw [Nat.mod_add_mod, Nat.sub_add_cancel (by omega)]
        have below := Nat.mod_lt (front + items.length) least
        rw [atRear, maxSize, tmod_succ, next]
        exact toShort_index below most
  have below := Nat.mod_lt (front + items.length) least
  have started (count rear : Int) :
      (if queue.qFront = -1 then
        { queue with qCount := count, qRear := rear, qFront := 0 }
      else
        { queue with qCount := count, qRear := rear }) =
      { queue with qCount := count, qRear := rear, qFront := front } := by
    rw [← atFront]
    split
    · rfl
    · rfl
  unfold Queue.insert
  rw [if_pos space]
  dsimp only
  rw [counted, atRear, started, store_natCast (by dsimp only; omega)]
  refine ⟨_, rfl, least, most, maxSize, size, by rw [longer], by omega, by simp,
    fun _ => ⟨front, inside, rfl, ?_, ?_⟩⟩
  · rw [longer]
    rfl
  · rw [longer]
    exact (Block.ring_write_append room).trans (by rw [cells])

theorem Shows.insert_full (shows : queue.Shows capacity items) (element : Option α)
    (full : ¬ items.length < capacity) : queue.insert element = some (queue, -1) := by
  have space : ¬ queue.qCount < queue.qMaxSize := by
    rw [shows.count, shows.maxSize]
    omega
  unfold Queue.insert
  rw [if_neg space]

/-! ### Fetching -/

theorem fetchMacro_eq : queue.fetchMacro = queue.fetch := rfl

theorem Shows.fetch {oldest : Option α} (shows : queue.Shows capacity (oldest :: items)) :
    ∃ next, queue.fetch = some (next, oldest) ∧ next.Shows capacity items := by
  obtain ⟨least, most, maxSize, size, count, bounded, -, filled⟩ := shows
  obtain ⟨front, inside, atFront, atRear, cells⟩ := filled (List.cons_ne_nil _ _)
  rw [List.length_cons] at count bounded atRear cells
  rw [Block.ring_cons, Nat.mod_eq_of_lt inside] at cells
  obtain ⟨first, rest⟩ := List.cons.inj cells
  have counted : toShort (queue.qCount - 1) = items.length := by
    rw [toShort_eq (by omega) (by omega), count]
    omega
  have last : (front + (items.length + 1) - 1) = front + items.length := by omega
  rw [last] at atRear
  unfold Queue.fetch
  rw [if_pos (by omega), atFront, load_natCast (by omega), first]
  dsimp only [Option.bind_eq_bind, Option.bind_some]
  by_cases none : items = []
  · have same : queue.qRear = (front : Int) := by
      rw [atRear, none, List.length_nil, Nat.add_zero, Nat.mod_eq_of_lt inside]
    rw [if_pos same]
    refine ⟨_, rfl, least, most, maxSize, size, counted, by omega, fun _ => ⟨rfl, rfl⟩,
      fun some => absurd none some⟩
  · have some := List.length_pos_of_ne_nil none
    have other : ¬ queue.qRear = (front : Int) := by
      have apart : (front + 0) % capacity ≠ (front + items.length) % capacity :=
        Block.ring_apart some (by omega)
      rw [Nat.add_zero, Nat.mod_eq_of_lt inside] at apart
      rw [atRear]
      omega
    have below := Nat.mod_lt (front + 1) least
    have moved : toShort (((front : Int) + 1).tmod queue.qMaxSize) =
        ((front + 1) % capacity : Nat) := by
      rw [maxSize, tmod_succ]
      exact toShort_index below most
    rw [if_neg other, moved]
    refine ⟨_, rfl, least, most, maxSize, size, counted, by omega,
      fun nothing => absurd nothing none, fun _ => ⟨(front + 1) % capacity, below, rfl, ?_, ?_⟩⟩
    · have reached : ((front + 1) % capacity + items.length - 1) % capacity =
          (front + items.length) % capacity := by
        rw [Nat.add_sub_assoc some, Nat.mod_add_mod]
        congr 1
        omega
      dsimp only
      rw [atRear, reached]
    · rw [Block.ring_mod]
      exact rest

theorem Shows.fetch_empty (shows : queue.Shows capacity []) :
    queue.fetch = some (queue, none) := by
  unfold Queue.fetch
  rw [if_neg (by rw [shows.count]; simp)]

/-! ### Removal -/

/-- The second loop closes the gap at position `i`. -/
theorem shift_spec (maxSize : queue.qMaxSize = capacity) (size : queue.qElements.size = capacity)
    (atFront : queue.qFront = front) (left i : Nat) (room : i + left < capacity) :
    ∃ cells, queue.shift left i = some { queue with qElements := cells } ∧ cells.size = capacity ∧
      cells.ring capacity front (i + left) =
        queue.qElements.ring capacity front i ++
          queue.qElements.ring capacity (front + i + 1) left := by
  induction left generalizing i queue with
  | zero => exact ⟨queue.qElements, rfl, size, by simp⟩
  | succ left ih =>
      have place : (queue.qFront + i).tmod queue.qMaxSize = ((front + i) % capacity : Nat) := by
        rw [atFront, maxSize, tmod_add]
      have behind : (queue.qFront + i + 1).tmod queue.qMaxSize =
          ((front + i + 1) % capacity : Nat) := by
        rw [atFront, maxSize]
        exact tmod_succ (front + i) capacity
      have inside := Nat.mod_lt (front + i) (show 0 < capacity by omega)
      have next := Nat.mod_lt (front + i + 1) (show 0 < capacity by omega)
      rw [shift, behind, load_natCast (by omega), place]
      dsimp only [Option.bind_eq_bind, Option.bind_some]
      rw [store_natCast (by omega)]
      let later : Queue α := { queue with
        qElements := queue.qElements.write ((front + i) % capacity)
          [queue.qElements.cell ((front + i + 1) % capacity)] }
      obtain ⟨cells, moved, sized, shown⟩ := @ih later maxSize size atFront (i + 1) (by omega)
      refine ⟨cells, moved, sized, ?_⟩
      rw [Block.ring_write_append (by omega), ← Nat.add_assoc front i 1] at shown
      have behind := @Block.ring_write_behind _ queue.qElements capacity front
        (queue.qElements.cell ((front + i + 1) % capacity)) i (left + 1) (by omega)
      rw [Nat.add_comm left 1, Block.ring_add 1 left, Block.ring_add 1 left] at behind
      have kept := List.append_inj_right behind (by simp)
      rw [kept] at shown
      rw [← Nat.add_assoc, Nat.add_right_comm, shown, Block.ring_cons, List.append_assoc,
        List.singleton_append]

section Remove

variable [DecidableEq α]

-- The equality that `Fifo.perform` removes with.
local instance (priority := high) : BEq (Option α) := instBEqOfDecidableEq

/-- The first loop stops at the first occurrence, or behind the last element. -/
theorem search_spec (maxSize : queue.qMaxSize = capacity) (size : queue.qElements.size = capacity)
    (atFront : queue.qFront = front) (some : 0 < capacity) (element : Option α) (left i : Nat) :
    queue.search element left i =
      Option.some (i + (queue.qElements.ring capacity (front + i) left).idxOf element) := by
  induction left generalizing i with
  | zero => rfl
  | succ left ih =>
      have place : (queue.qFront + i).tmod queue.qMaxSize = ((front + i) % capacity : Nat) := by
        rw [atFront, maxSize, tmod_add]
      have inside := Nat.mod_lt (front + i) some
      rw [search, place, load_natCast (by omega), Block.ring_cons, List.idxOf_cons]
      dsimp only [Option.bind_eq_bind, Option.bind_some]
      by_cases same : queue.qElements.cell ((front + i) % capacity) = element
      · rw [if_pos same, same, beq_self_eq_true, cond_true, Nat.add_zero]
      · rw [if_neg same, ih, beq_false_of_ne same, cond_false, ← Nat.add_assoc, Nat.add_assoc i,
          Nat.add_comm 1]

theorem Shows.remove (shows : queue.Shows capacity items) (element : Option α)
    (member : element ∈ items) :
    ∃ next, queue.remove element = some (next, 0) ∧ next.Shows capacity (items.erase element) := by
  obtain ⟨least, most, maxSize, size, count, bounded, -, filled⟩ := shows
  have some := List.length_pos_of_mem member
  obtain ⟨front, inside, atFront, atRear, cells⟩ := filled (List.ne_nil_of_length_pos some)
  have found := search_spec maxSize size atFront least element items.length 0
  rw [Nat.add_zero, Nat.zero_add, cells] at found
  have within := List.idxOf_lt_length_of_mem member
  have shorter := List.length_erase_of_mem member
  have cut : items.erase element =
      items.take (items.idxOf element) ++ items.drop (items.idxOf element + 1) := by
    rw [List.erase_eq_eraseIdx_of_idxOf rfl, List.eraseIdx_eq_take_drop_succ]
  rw [cut] at shorter ⊢
  generalize items.idxOf element = i at found within shorter cut
  obtain ⟨left, total⟩ : ∃ left, items.length = i + 1 + left :=
    Nat.exists_eq_add_of_le within
  -- What is before the removed element and what is behind it.
  rw [total, Nat.add_assoc, Block.ring_add i (1 + left), Block.ring_add 1 left,
    ← List.append_assoc, Block.ring_one] at cells
  have before : items.take i = queue.qElements.ring capacity front i := by
    rw [← cells, List.append_assoc, List.take_left' Block.length_ring]
  have behind : items.drop (i + 1) = queue.qElements.ring capacity (front + i + 1) left := by
    rw [← cells, List.drop_left' (by simp)]
  have counted : toShort (queue.qCount - 1) = (i + left : Nat) := by
    rw [toShort_eq (by omega) (by omega), count, total]
    omega
  have moving : ((i + left : Nat) - (i : Int)).toNat = left := by omega
  let fewer : Queue α := { queue with qCount := (i + left : Nat) }
  obtain ⟨moved, shifted, sized, shown⟩ :=
    @shift_spec _ fewer capacity front maxSize size atFront left i (by omega)
  have length : (items.take i ++ items.drop (i + 1)).length = i + left := by
    rw [shorter, total]
    omega
  rw [before, behind] at length ⊢
  unfold Queue.remove
  rw [count, Int.toNat_natCast, found]
  dsimp only [Option.bind_eq_bind, Option.bind_some]
  rw [if_neg (by omega), ← count, counted, moving, shifted]
  dsimp only [Option.bind_some]
  have last : front + items.length - 1 = front + (i + left) := by omega
  rw [last] at atRear
  rw [atFront, atRear, maxSize]
  by_cases single : i + left = 0
  · rw [single, Nat.add_zero, Nat.mod_eq_of_lt inside, if_pos rfl]
    refine ⟨_, rfl, least, most, rfl, sized, by rw [length], by omega,
      fun _ => ⟨rfl, rfl⟩, fun some => absurd (List.eq_nil_of_length_eq_zero ?_) some⟩
    rw [length, single]
  · have apart : (front + 0) % capacity ≠ (front + (i + left)) % capacity :=
      Block.ring_apart (by omega) (by omega)
    rw [Nat.add_zero, Nat.mod_eq_of_lt inside] at apart
    rw [if_neg (by omega)]
    have back := @step_back (front + (i + left) - 1) capacity least
    rw [Nat.sub_add_cancel (by omega)] at back
    have below := Nat.mod_lt (front + (i + left)) least
    have shows (rear : Int) (atRear : rear = ((front + (i + left) - 1) % capacity : Nat)) :
        Shows (α := α) ⟨front, capacity, rear, (i + left : Nat), moved⟩ capacity
          (queue.qElements.ring capacity front i ++
            queue.qElements.ring capacity (front + i + 1) left) := by
      refine ⟨least, most, rfl, sized, by rw [length], by omega, ?_, fun _ => ⟨front, inside, rfl,
        by rw [length]; exact atRear, by rw [length]; exact shown⟩⟩
      intro none
      rw [none] at length
      exact absurd length.symm single
    by_cases first : (front + (i + left)) % capacity = 0
    · rw [if_pos (by rw [first]; rfl)]
      refine ⟨_, rfl, shows _ ?_⟩
      rw [back.1 first, toShort_eq (by omega) (by omega)]
      omega
    · rw [if_neg (by omega)]
      refine ⟨_, rfl, shows _ ?_⟩
      rw [back.2 first, toShort_eq (by omega) (by omega)]
      omega

theorem Shows.remove_absent (shows : queue.Shows capacity items) (element : Option α)
    (absent : element ∉ items) : queue.remove element = some (queue, -1) := by
  have found : queue.search element items.length 0 = some items.length := by
    by_cases empty : items = []
    · rw [empty]
      rfl
    · obtain ⟨front, -, atFront, -, cells⟩ := shows.filled empty
      rw [search_spec shows.maxSize shows.size atFront shows.least, Nat.add_zero, cells,
        Nat.zero_add, List.idxOf_of_notMem absent]
  unfold Queue.remove
  rw [shows.count, Int.toNat_natCast, found]
  dsimp only [Option.bind_eq_bind, Option.bind_some]
  rw [if_pos rfl]

/-! ### Whole runs -/

/-- A call does to the list what a bounded queue is to do, and where the list stays as it is, so
does the queue. -/
theorem Shows.step (shows : queue.Shows capacity items) (call : Call α) :
    ∃ next, queue.step call =
        some (next, .of (Fifo.perform capacity items call.request).2) ∧
      next.Shows capacity (Fifo.perform capacity items call.request).1 ∧
      ((Fifo.perform capacity items call.request).1 = items → next = queue) := by
  have inserted (element : Option α) : ∃ next,
      (queue.insert element).map (fun after => (after.1, Result.status after.2)) =
        some (next, .of (Fifo.perform capacity items (.insert element)).2) ∧
      next.Shows capacity (Fifo.perform capacity items (.insert element)).1 ∧
      ((Fifo.perform capacity items (.insert element)).1 = items → next = queue) := by
    unfold Fifo.perform
    by_cases room : items.length < capacity
    · obtain ⟨next, inserted, shown⟩ := shows.insert element room
      simp only [if_pos room, inserted]
      exact ⟨next, rfl, shown, fun same => absurd same (by simp)⟩
    · simp only [if_neg room, shows.insert_full element room]
      exact ⟨queue, rfl, shows, fun _ => rfl⟩
  have fetched : ∃ next,
      queue.fetch.map (fun after => (after.1, Result.element after.2)) =
        some (next, .of (Fifo.perform capacity items .fetch).2) ∧
      next.Shows capacity (Fifo.perform capacity items .fetch).1 ∧
      ((Fifo.perform capacity items .fetch).1 = items → next = queue) := by
    cases items with
    | nil =>
        rw [shows.fetch_empty]
        exact ⟨queue, rfl, shows, fun _ => rfl⟩
    | cons oldest rest =>
        obtain ⟨next, fetched, shown⟩ := shows.fetch
        rw [fetched]
        exact ⟨next, rfl, shown, fun same => absurd same.symm (List.cons_ne_self _ _)⟩
  cases call with
  | insert element => exact inserted element
  | insertMacro element => exact inserted element
  | fetch => exact fetched
  | fetchMacro => exact fetched
  | remove element =>
      unfold Queue.step Call.request Fifo.perform
      by_cases member : element ∈ items
      · obtain ⟨next, removed, shown⟩ := shows.remove element member
        simp only [if_pos member, removed]
        refine ⟨next, rfl, shown, fun same => ?_⟩
        have shorter := congrArg List.length same
        rw [List.length_erase_of_mem member] at shorter
        have some := List.length_pos_of_mem member
        omega
      · simp only [if_neg member, shows.remove_absent element member]
        exact ⟨queue, rfl, shows, fun _ => rfl⟩

theorem Shows.run (shows : queue.Shows capacity items) (calls : List (Call α)) :
    ∃ next, queue.run calls = some (next,
        (Fifo.run capacity items (calls.map Call.request)).2.map Result.of) ∧
      next.Shows capacity (Fifo.run capacity items (calls.map Call.request)).1 := by
  induction calls generalizing queue items with
  | nil => exact ⟨queue, rfl, shows⟩
  | cons call calls ih =>
      obtain ⟨next, stepped, shown, -⟩ := shows.step call
      obtain ⟨last, ran, whole⟩ := ih shown
      refine ⟨last, ?_, whole⟩
      rw [Queue.run, stepped]
      dsimp only [Option.bind_eq_bind, Option.bind_some]
      rw [ran]
      rfl

/-- A queue of between 1 and 32767 elements is a bounded first-in-first-out list, whatever is
done with it, through the functions or the macros: no access leaves the array, every answer is
the one of the list, the indices are -1 exactly when the list is empty, and a call that leaves the
list as it is leaves the queue as it is. -/
theorem bounded_fifo (capacity : Nat) (junk : Nat → Option α) (calls : List (Call α))
    (least : 1 ≤ capacity) (most : capacity ≤ 32767) :
    ∃ queue, (new capacity junk).run calls = some (queue,
        (Fifo.run capacity [] (calls.map Call.request)).2.map Result.of) ∧
      queue.contents = (Fifo.run capacity [] (calls.map Call.request)).1 ∧
      queue.contents.length ≤ capacity ∧
      (queue.qFront = -1 ∧ queue.qRear = -1 ↔ queue.contents = []) ∧
      ∀ call, ∃ next,
        queue.step call =
          some (next, .of (Fifo.perform capacity queue.contents call.request).2) ∧
        next.contents = (Fifo.perform capacity queue.contents call.request).1 ∧
        (next.contents = queue.contents → next = queue) := by
  obtain ⟨queue, ran, shown⟩ := (Shows.new least most).run calls
  refine ⟨queue, ran, shown.contents, ?_, ?_, fun call => ?_⟩
  · rw [shown.contents]
    exact shown.bounded
  · rw [shown.contents]
    exact shown.empty_iff
  · obtain ⟨next, stepped, shows, kept⟩ := shown.step call
    rw [shown.contents]
    exact ⟨next, stepped, shows.contents, fun same => kept (shows.contents.symm.trans same)⟩

/-- Two cells: the third insertion fails, the first occurrence is removed across the end. -/
theorem bounded_fifo_two :
    (1 ≤ 2 ∧ 2 ≤ 32767) ∧
    ∃ queue, (new (α := Nat) (2 : Nat) fun _ => none).run
        [.insert (some 1), .insertMacro (some 2), .insert (some 3), .fetchMacro,
          .insert (some 4), .remove (some 2)] =
        some (queue, [.status 0, .status 0, .status (-1), .element (some 1), .status 0,
          .status 0]) ∧
      queue.contents = [some 4] := by
  obtain ⟨queue, ran, contents, -⟩ := bounded_fifo 2 (fun _ => none) [.insert (some 1),
    .insertMacro (some 2), .insert (some 3), .fetchMacro, .insert (some 4), .remove (some 2)]
    (by decide) (by decide)
  exact ⟨by decide, queue, ran, contents⟩

end Remove

end Queue
