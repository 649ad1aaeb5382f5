import Mathlib.Algebra.Order.Field.Rat
import Mathlib.Data.List.Dedup
import Mathlib.Data.Nat.GCD.Basic
import Mathlib.Tactic.Linarith
import Mathlib.Tactic.Ring
import Webroar.Library.Ledger

/-! # Tallies

A tally counts how many items have each of finitely many numbers. Its sum, the numbers that occur in
it, and its greatest entry are facts about the list of the items.
-/

/-- One more item for each of the numbers. -/
def tally (n : Nat) (items : List Nat) : List Nat :=
  items.foldl (fun counts item => counts.modify item (· + 1)) (List.replicate n 0)

/-- How often the most frequent item occurs. -/
def mostFrequent {α : Type} [DecidableEq α] (items : List α) : Nat :=
  (items.map fun item => items.count item).max?.getD 0

namespace Tally

variable {n : Nat} {items : List Nat}

theorem tally_append (n : Nat) (items : List Nat) (item : Nat) :
    tally n (items ++ [item]) = (tally n items).modify item (· + 1) := by
  unfold tally
  rw [List.foldl_append, List.foldl_cons, List.foldl_nil]

/-- Each entry is the number of items that are counted there. -/
theorem tally_eq (n : Nat) (items : List Nat) :
    tally n items = (List.range n).map fun i => items.count i := by
  induction items using List.reverseRecOn with
  | nil =>
      have none : (fun i => List.count i ([] : List Nat)) = fun _ => 0 := by
        funext i
        exact List.count_nil
      rw [none, List.map_const', List.length_range]
      rfl
  | append_singleton items item ih =>
      rw [tally_append, ih]
      apply List.ext_getElem
      · simp only [List.length_modify, List.length_map]
      · intro i inside _
        rw [List.getElem_modify, List.getElem_map, List.getElem_map, List.getElem_range,
          List.count_append, List.count_singleton]
        by_cases same : item = i
        · simp [same]
        · simp [same]

/-- The numbers that occur. -/
theorem length_filter_tally (bound : ∀ item ∈ items, item < n) :
    ((tally n items).filter (· ≠ 0)).length = items.dedup.length := by
  rw [tally_eq, List.filter_map, List.length_map]
  apply List.Perm.length_eq
  rw [List.perm_ext_iff_of_nodup (List.nodup_range.filter _) (List.nodup_dedup items)]
  intro i
  rw [List.mem_filter, List.mem_dedup, List.mem_range]
  simp only [Function.comp_apply, decide_eq_true_eq, ne_eq, List.count_eq_zero, not_not]
  exact and_iff_right_of_imp fun member => bound i member

/-- All items are counted. -/
theorem sum_tally (bound : ∀ item ∈ items, item < n) : (tally n items).sum = items.length := by
  induction items using List.reverseRecOn with
  | nil => simp [tally]
  | append_singleton items item ih =>
      have small : item < (tally n items).length := by
        rw [tally_eq, List.length_map, List.length_range]
        exact bound item (List.mem_append_right _ (List.mem_singleton_self item))
      have grown : (((tally n items).modify item (· + 1)).map fun count => count).sum =
          ((tally n items).map fun count => count).sum + 1 :=
        Ledger.sum_modify (fun count => count) (List.getElem?_eq_getElem small) rfl
      rw [List.map_id', List.map_id',
        ih fun other member => bound other (List.mem_append_left _ member)] at grown
      rw [tally_append, List.length_append, List.length_singleton]
      exact grown

theorem sum_filter_ne_zero (counts : List Nat) : (counts.filter (· ≠ 0)).sum = counts.sum := by
  induction counts with
  | nil => rfl
  | cons count counts ih =>
      by_cases zero : count = 0
      · rw [List.filter_cons, if_neg (by simpa using zero), List.sum_cons, ih, zero, zero_add]
      · rw [List.filter_cons, if_pos (by simpa using zero), List.sum_cons, List.sum_cons, ih]

/-- The greatest of some numbers that are at most one, when one of them is. -/
theorem max_eq_one {counts : List Nat} (small : ∀ count ∈ counts, count ≤ 1)
    (present : 1 ∈ counts) : counts.max?.getD 0 = 1 := by
  have greatest : counts.max? = some 1 := List.max?_eq_some_iff.mpr ⟨present, small⟩
  rw [greatest, Option.getD_some]

theorem max_tally (bound : ∀ item ∈ items, item < n) (nodup : items.Nodup) (some : items ≠ []) :
    (tally n items).max?.getD 0 = 1 := by
  rw [tally_eq]
  apply max_eq_one
  · intro count member
    obtain ⟨i, -, rfl⟩ := List.mem_map.mp member
    exact List.nodup_iff_count_le_one.mp nodup i
  · obtain ⟨item, member⟩ := List.exists_mem_of_ne_nil items some
    rw [List.mem_map]
    exact ⟨item, List.mem_range.mpr (bound item member), List.count_eq_one_of_mem nodup member⟩

theorem mostFrequent_eq_one {α : Type} [DecidableEq α] {items : List α} (nodup : items.Nodup)
    (some : items ≠ []) : mostFrequent items = 1 := by
  apply max_eq_one
  · intro count member
    obtain ⟨i, -, rfl⟩ := List.mem_map.mp member
    exact List.nodup_iff_count_le_one.mp nodup i
  · obtain ⟨item, member⟩ := List.exists_mem_of_ne_nil items some
    exact List.mem_map.mpr ⟨item, member, List.count_eq_one_of_mem nodup member⟩

theorem length_dedup_eq {α : Type} [DecidableEq α] {items : List α} :
    items.dedup.length = items.length ↔ items.Nodup := by
  constructor
  · intro same
    rw [← List.dedup_eq_self]
    exact (List.dedup_sublist items).eq_of_length same
  · intro nodup
    rw [nodup.dedup]

/-- A proportion of at most `m` and one of at most `m + 1` are the same only if both are the
whole. -/
theorem ratio_eq_iff {a m b : Nat} (few : a ≤ m) (some : m ≠ 0 → a ≠ 0) (occurs : b ≠ 0) :
    (if 0 < a then (a * 1000) / (m : ℚ) else 0) = (b * 1000) / ((m + 1 : Nat) : ℚ) ↔
      m ≠ 0 ∧ a = m ∧ b = m + 1 := by
  have whole : ((m + 1 : Nat) : ℚ) ≠ 0 := Nat.cast_ne_zero.mpr (Nat.succ_ne_zero m)
  by_cases none : m = 0
  · have zero : a = 0 := Nat.le_zero.mp (none ▸ few)
    have positive : (b : ℚ) ≠ 0 := Nat.cast_ne_zero.mpr occurs
    rw [zero, if_neg (lt_irrefl 0)]
    simp [none, positive]
  · have positive : (m : ℚ) ≠ 0 := Nat.cast_ne_zero.mpr none
    rw [if_pos (Nat.pos_of_ne_zero (some none)), div_eq_div_iff positive whole]
    constructor
    · intro same
      have crossed : a * (m + 1) = b * m := by
        have rational : (a : ℚ) * (m + 1 : Nat) = b * m := by linarith
        exact_mod_cast rational
      -- `m` has no factor in common with `m + 1`
      have divides : m ∣ a := by
        have coprime : Nat.Coprime m (m + 1) :=
          Nat.coprime_self_add_right.mpr (Nat.coprime_one_right m)
        exact coprime.dvd_of_dvd_mul_right (Dvd.intro_left b crossed.symm)
      have equal : a = m := le_antisymm few (Nat.le_of_dvd (Nat.pos_of_ne_zero (some none)) divides)
      refine ⟨none, equal, ?_⟩
      rw [equal, Nat.mul_comm] at crossed
      exact (Nat.eq_of_mul_eq_mul_right (Nat.pos_of_ne_zero none) crossed).symm
    · intro both
      rw [both.2.1, both.2.2]
      ring

end Tally
