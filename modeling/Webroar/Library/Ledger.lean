import Webroar.Library.Hash

/-! # Samples in memory and rows on disk

For every key there is at most one sample in memory; when it is due it becomes a row. What samples
and rows add up to is the same before and after that, and grows by what is added to either.
-/

/-- The samples in memory, and the rows. -/
structure Ledger (κ σ ρ : Type) where
  samples : Hash κ (Option σ)
  rows : List ρ

namespace Ledger

variable {κ σ ρ M : Type}

/-- A row is written. -/
def write (ledger : Ledger κ σ ρ) (row : ρ) : Ledger κ σ ρ :=
  { ledger with rows := ledger.rows ++ [row] }

/-- A row is changed. -/
def update (ledger : Ledger κ σ ρ) (i : Nat) (f : ρ → ρ) : Ledger κ σ ρ :=
  { ledger with rows := ledger.rows.modify i f }

/-- The samples that are due, with their keys. -/
def dueSamples (ledger : Ledger κ σ ρ) (due : κ → σ → Bool) : List (κ × σ) :=
  ledger.samples.entries.filterMap fun entry =>
    (entry.2.filter (due entry.1)).map (entry.1, ·)

/-- Each sample that is due becomes a row. -/
def flush (ledger : Ledger κ σ ρ) (due : κ → σ → Bool) (row : κ → σ → ρ) : Ledger κ σ ρ where
  samples := ledger.samples.map fun key sample => sample.filter fun s => !due key s
  rows := ledger.rows ++ (ledger.dueSamples due).map fun entry => row entry.1 entry.2

/-- Rows are written for all samples, which stay in memory. -/
def writeAll (ledger : Ledger κ σ ρ) (row : κ → σ → ρ) : Ledger κ σ ρ :=
  { ledger with
    rows := ledger.rows ++ (ledger.dueSamples fun _ _ => true).map fun entry =>
      row entry.1 entry.2 }

section Keys

variable [DecidableEq κ]

/-- The sample of a key. -/
def sample? (ledger : Ledger κ σ ρ) (key : κ) : Option σ := (ledger.samples.get key).join

/-- The sample of a key is replaced. -/
def keep (ledger : Ledger κ σ ρ) (key : κ) (sample : σ) : Ledger κ σ ρ :=
  { ledger with samples := ledger.samples.set key (some sample) }

@[simp] theorem sample?_write (ledger : Ledger κ σ ρ) (row : ρ) (key : κ) :
    (ledger.write row).sample? key = ledger.sample? key := rfl

@[simp] theorem sample?_update (ledger : Ledger κ σ ρ) (i : Nat) (f : ρ → ρ) (key : κ) :
    (ledger.update i f).sample? key = ledger.sample? key := rfl

theorem sample?_keep (ledger : Ledger κ σ ρ) (key other : κ) (sample : σ) :
    (ledger.keep key sample).sample? other =
      if key = other then some sample else ledger.sample? other := by
  unfold sample? keep
  rw [Hash.get_set]
  split
  · rfl
  · rfl

theorem sample?_flush (ledger : Ledger κ σ ρ) (due : κ → σ → Bool) (row : κ → σ → ρ) (key : κ) :
    (ledger.flush due row).sample? key =
      (ledger.sample? key).filter fun sample => !due key sample := by
  unfold sample? flush
  rw [Hash.get_map]
  cases ledger.samples.get key with
  | none => rfl
  | some sample => rfl

theorem mem_dueSamples {ledger : Ledger κ σ ρ} {due : κ → σ → Bool} {key : κ} {sample : σ} :
    (key, sample) ∈ ledger.dueSamples due ↔
      ledger.sample? key = some sample ∧ due key sample = true := by
  rw [dueSamples, List.mem_filterMap, sample?, Option.join_eq_some_iff, ← Hash.mem_entries]
  constructor
  · intro ⟨entry, member, passes⟩
    obtain ⟨found, kept, same⟩ := Option.map_eq_some_iff.mp passes
    injection same with keys samples
    obtain ⟨present, old⟩ := Option.filter_eq_some_iff.mp kept
    rw [← keys, ← samples, ← present]
    exact ⟨member, old⟩
  · intro ⟨member, old⟩
    refine ⟨(key, some sample), member, ?_⟩
    rw [Option.filter_some, if_pos old, Option.map_some]

end Keys

/-! ### What samples and rows add up to -/

section Book

variable [AddCommMonoid M] (weigh : κ → σ → M) (weighRow : ρ → M)

/-- What a sample counts, if there is one. -/
def weighSample (key : κ) (sample : Option σ) : M := sample.elim 0 (weigh key)

/-- What rows and samples add up to. -/
def booked (ledger : Ledger κ σ ρ) : M :=
  (ledger.rows.map weighRow).sum + ledger.samples.sum (weighSample weigh)

theorem booked_write (ledger : Ledger κ σ ρ) (row : ρ) :
    (ledger.write row).booked weigh weighRow = ledger.booked weigh weighRow + weighRow row := by
  simp only [booked, write, List.map_append, List.map_cons, List.map_nil, List.sum_append,
    List.sum_cons, List.sum_nil, add_zero, add_right_comm]

theorem sum_modify {rows : List ρ} {i : Nat} {row : ρ} {f : ρ → ρ} {more : M}
    (present : rows[i]? = some row) (grown : weighRow (f row) = weighRow row + more) :
    ((rows.modify i f).map weighRow).sum = (rows.map weighRow).sum + more := by
  induction rows generalizing i with
  | nil => cases present
  | cons first rows ih =>
      cases i with
      | zero =>
          rw [List.getElem?_cons_zero] at present
          injection present with present
          rw [List.modify_zero_cons, List.map_cons, List.map_cons, List.sum_cons, List.sum_cons,
            present, grown, add_right_comm]
      | succ i =>
          rw [List.getElem?_cons_succ] at present
          rw [List.modify_succ_cons, List.map_cons, List.map_cons, List.sum_cons, List.sum_cons,
            ih present, add_assoc]

theorem booked_update (ledger : Ledger κ σ ρ) {i : Nat} {row : ρ} {f : ρ → ρ} {more : M}
    (present : ledger.rows[i]? = some row) (grown : weighRow (f row) = weighRow row + more) :
    (ledger.update i f).booked weigh weighRow = ledger.booked weigh weighRow + more := by
  simp only [booked, update, sum_modify weighRow present grown, add_right_comm]

variable {weigh weighRow}

/-- The rows of the samples that are due count what these samples do. -/
theorem sum_due (ledger : Ledger κ σ ρ) (due : κ → σ → Bool) {row : κ → σ → ρ}
    (same : ∀ key sample, weighRow (row key sample) = weigh key sample) :
    (((ledger.dueSamples due).map fun entry => row entry.1 entry.2).map weighRow).sum +
      (ledger.samples.map fun key sample => sample.filter fun s => !due key s).sum
        (weighSample weigh) = ledger.samples.sum (weighSample weigh) := by
  simp only [dueSamples, Hash.sum, Hash.map, List.map_map, Function.comp_def]
  induction ledger.samples.entries with
  | nil => simp
  | cons entry rest ih =>
      obtain ⟨key, sample⟩ := entry
      rw [List.map_cons, List.map_cons, List.sum_cons, List.sum_cons, ← ih]
      cases sample with
      | none => simp [weighSample]
      | some sample =>
          by_cases old : due key sample = true
          · simp [old, Option.filter_some, weighSample, same, add_assoc]
          · simp [old, Option.filter_some, weighSample, add_left_comm]

theorem booked_flush (ledger : Ledger κ σ ρ) (due : κ → σ → Bool) {row : κ → σ → ρ}
    (same : ∀ key sample, weighRow (row key sample) = weigh key sample) :
    (ledger.flush due row).booked weigh weighRow = ledger.booked weigh weighRow := by
  simp only [booked, flush, List.map_append, List.sum_append, add_assoc, sum_due ledger due same]

variable [DecidableEq κ]

theorem booked_keep_of_none (ledger : Ledger κ σ ρ) {key : κ} {sample : σ}
    (absent : ledger.sample? key = none) :
    (ledger.keep key sample).booked weigh weighRow =
      ledger.booked weigh weighRow + weigh key sample := by
  have sum : (ledger.samples.set key (some sample)).sum (weighSample weigh) =
      ledger.samples.sum (weighSample weigh) + weigh key sample := by
    cases found : ledger.samples.get key with
    | none => exact Hash.sum_set_of_none found
    | some old =>
        rw [sample?, found, Option.join_some] at absent
        rw [absent] at found
        obtain ⟨others, before, after⟩ := Hash.sum_set_split (f := weighSample weigh) found
        rw [after, before, add_right_comm]
        exact (congrArg (· + others) (zero_add _)).symm
  simp only [booked, keep, sum, add_assoc]

/-- What is added to a sample is added to the whole. -/
theorem booked_keep_of_some (ledger : Ledger κ σ ρ) {key : κ} {old sample : σ} {more : M}
    (present : ledger.sample? key = some old) (grown : weigh key sample = weigh key old + more) :
    (ledger.keep key sample).booked weigh weighRow = ledger.booked weigh weighRow + more := by
  have found : ledger.samples.get key = some (some old) := Option.join_eq_some_iff.mp present
  obtain ⟨others, before, after⟩ := Hash.sum_set_split (f := weighSample weigh) found
  have set : weighSample weigh key (some sample) = weighSample weigh key (some old) + more := grown
  simp only [booked, keep, before, after, set]
  simp only [add_left_comm, add_comm]

/-- A sample becomes a row and makes room for a new one. -/
theorem booked_roll (ledger : Ledger κ σ ρ) {key : κ} {old sample : σ} {row : ρ}
    (present : ledger.sample? key = some old) (same : weighRow row = weigh key old) :
    ((ledger.write row).keep key sample).booked weigh weighRow =
      ledger.booked weigh weighRow + weigh key sample := by
  have found : ledger.samples.get key = some (some old) := Option.join_eq_some_iff.mp present
  obtain ⟨others, before, after⟩ := Hash.sum_set_split (f := weighSample weigh) found
  have set : weighSample weigh key (some sample) = weigh key sample := rfl
  have kept : weighSample weigh key (some old) = weigh key old := rfl
  simp only [booked, keep, write, before, after, set, kept, List.map_append, List.map_cons,
    List.map_nil, List.sum_append, List.sum_cons, List.sum_nil, add_zero, same]
  simp only [add_assoc, add_left_comm, add_comm]

end Book

end Ledger
