import Mathlib.Algebra.Group.Pi.Basic
import Mathlib.Algebra.Group.Prod
import Webroar.Analyzer.Samples

/-! # A message is counted once

In whichever way a message is added, to a sample, to a row, or as a new one, what samples and rows
add up to grows by what the message counts. Samples that become rows change nothing.
-/

namespace Analyzer

variable {τ : Type} [AddCommMonoid τ]

namespace AppTimeSample

/-- What a sample counts for an application. -/
def weigh (appId : Nat) (key : Nat) (sample : Sample τ) : Totals τ :=
  if key = appId then sample.totals else 0

def weighRow (appId : Nat) (row : Row τ) : Totals τ :=
  if row.appId = appId then row.totals else 0

/-- What the rows of an application and its sample add up to. -/
def booked (store : Store τ) (appId : Nat) : Totals τ :=
  Ledger.booked (weigh appId) (weighRow appId) store

theorem weighRow_sampleRow (rate : Int) (appId key : Nat) (sample : Sample τ) :
    weighRow appId (sampleRow rate key sample) = weigh appId key sample := rfl

/-- A message of an application counts for it and for no other. -/
theorem booked_addToSample (db : Database) (rate : Int) (store : Store τ) (key : Nat)
    (totals : Totals τ) (wallTime : Int) (appId : Nat) :
    booked (addToSample db rate store key totals wallTime) appId =
      booked store appId + if key = appId then totals else 0 := by
  have grown : ∀ old : Totals τ, (if key = appId then old + totals else 0) =
      (if key = appId then old else 0) + if key = appId then totals else 0 := by
    intro old
    by_cases same : key = appId
    · simp only [if_pos same]
    · simp only [if_neg same, add_zero]
  unfold addToSample
  split
  case h_1 absent => exact Ledger.booked_keep_of_none store absent
  case h_2 sample present =>
    split
    · exact Ledger.booked_keep_of_some store present (grown sample.totals)
    · split
      · split
        case h_1 i found =>
          obtain ⟨row, present, own⟩ := row_of_matching found
          have same : row.appId = key := of_decide_eq_true own
          refine Ledger.booked_update _ _ store present ?_
          show (if row.appId = appId then row.totals + totals else 0) =
            (if row.appId = appId then row.totals else 0) + if key = appId then totals else 0
          rw [same]
          exact grown row.totals
        case h_2 => exact Ledger.booked_write _ _ store _
      · exact Ledger.booked_roll store present (weighRow_sampleRow rate appId key sample)

theorem mem_keys_addToSample {db : Database} {rate : Int} {store : Store τ} {key : Nat}
    {totals : Totals τ} {wallTime : Int} {other : Nat}
    (member : other ∈ (addToSample db rate store key totals wallTime).samples.keys) :
    other = key ∨ other ∈ store.samples.keys := by
  unfold addToSample at member
  split at member
  · exact Hash.mem_keys_set.mp member
  · split at member
    · exact Hash.mem_keys_set.mp member
    · split at member
      · split at member
        · exact .inr member
        · exact .inr member
      · exact Hash.mem_keys_set.mp member

theorem booked_writeStaleSamples (rate : Int) (now : Nat → Int) (store : Store τ) (appId : Nat) :
    booked (writeStaleSamples rate now store) appId = booked store appId :=
  Ledger.booked_flush store _ (weighRow_sampleRow rate appId)

end AppTimeSample

namespace UrlTimeSample

/-- The time of each method. -/
def times (breakup : Hash String τ) (name : String) : τ := (breakup.get name).getD 0

/-- What a sample counts for some of the URLs. -/
def weigh (own : Nat × String → Bool) (key : Nat × String) (sample : Sample τ) :
    Totals τ × (String → τ) :=
  if own key then (sample.totals, times sample.breakup) else 0

def weighRow (own : Nat × String → Bool) (row : Row τ) : Totals τ × (String → τ) :=
  if own (row.appId, row.url) then (row.totals, times row.breakup) else 0

/-- What the rows of some URLs and their samples add up to. -/
def booked (store : Store τ) (own : Nat × String → Bool) : Totals τ × (String → τ) :=
  Ledger.booked (weigh own) (weighRow own) store

/-- A time that is set under a name is added to what was there. -/
theorem times_set (breakup : Hash String τ) (name other : String) (time : τ) :
    times (match breakup.get name with
      | some old => breakup.set name (old + time)
      | none => breakup.set name time) other =
      times breakup other + if name = other then time else 0 := by
  by_cases same : name = other
  · subst same
    cases present : breakup.get name with
    | none => simp [times, Hash.get_set, present]
    | some old => simp [times, Hash.get_set, present]
  · cases breakup.get name with
    | none => simp [times, Hash.get_set, same]
    | some old => simp [times, Hash.get_set, same]

theorem times_foldl (breakup : Hash String τ) {pairs : List (String × τ)}
    (nodup : (pairs.map Prod.fst).Nodup) (name : String) :
    times (pairs.foldl (fun hash pair =>
      match hash.get pair.1 with
      | some time => hash.set pair.1 (time + pair.2)
      | none => hash.set pair.1 pair.2) breakup) name =
      times breakup name + (Hash.find name pairs).getD 0 := by
  induction pairs generalizing breakup with
  | nil => exact (add_zero _).symm
  | cons pair pairs ih =>
      rw [List.map_cons, List.nodup_cons] at nodup
      rw [List.foldl_cons, ih _ nodup.2, times_set, add_assoc, Hash.find]
      congr 1
      by_cases same : pair.1 = name
      · have absent : Hash.find name pairs = none := by
          rw [Hash.find_eq_none, ← same]
          exact nodup.1
        rw [if_pos same, if_pos same, absent, Option.getD_none, Option.getD_some, add_zero]
      · rw [if_neg same, if_neg same, zero_add]

theorem times_addBreakup (sample message : Hash String τ) :
    times (addBreakup sample message) = times sample + times message := by
  funext name
  exact times_foldl sample message.nodup name

/-- Rows of methods that are there grow, those that are missing are made. -/
theorem times_updateBreakup (rows message : Hash String τ) :
    times (updateBreakup rows message) = times rows + times message := by
  funext name
  have found : (updateBreakup rows message).get name =
      ((rows.get name).map fun time => match message.get name with
        | some more => time + more
        | none => time).or
        (if name ∉ rows.keys then message.get name else none) := by
    rw [Hash.get, updateBreakup, Hash.find_append]
    have old := Hash.get_map (fun name time => match message.get name with
      | some more => time + more
      | none => time) rows name
    have new := Hash.get_filter (fun name => name ∉ rows.keys) message name
    simp only [decide_eq_true_eq] at new
    exact congrArg₂ Option.or old new
  rw [Pi.add_apply, times, times, times, found]
  cases present : rows.get name with
  | none =>
      have absent : name ∉ rows.keys := by
        intro member
        exact Hash.mem_keys.mp member present
      simp [absent]
  | some time =>
      cases message.get name with
      | none => simp
      | some more => simp

/-- A message of a URL counts for those URLs that it belongs to. -/
theorem booked_addToSample (db : Database) (rate : Int) (store : Store τ) (key : Nat × String)
    (totals : Totals τ) (breakup : Hash String τ) (wallTime : Int) (own : Nat × String → Bool) :
    booked (addToSample db rate store key totals breakup wallTime) own =
      booked store own + if own key then (totals, times breakup) else 0 := by
  have grown : ∀ (old : Totals τ) (before after : Hash String τ),
      times after = times before + times breakup →
        (if own key then (old + totals, times after) else 0) =
          (if own key then (old, times before) else 0) +
            if own key then (totals, times breakup) else 0 := by
    intro old before after times
    by_cases same : own key = true
    · simp only [if_pos same, times, Prod.mk_add_mk]
    · simp only [if_neg same, add_zero]
  unfold addToSample
  split
  case h_1 absent => exact Ledger.booked_keep_of_none store absent
  case h_2 sample present =>
    split
    · exact Ledger.booked_keep_of_some store present
        (grown sample.totals sample.breakup _ (times_addBreakup sample.breakup breakup))
    · split
      · split
        case h_1 i found =>
          obtain ⟨row, present, same⟩ := row_of_matching found
          have same : (row.appId, row.url) = key := of_decide_eq_true same
          refine Ledger.booked_update _ _ store present ?_
          have result := grown row.totals row.breakup _ (times_updateBreakup row.breakup breakup)
          rw [← same] at result ⊢
          exact result
        case h_2 => exact Ledger.booked_write _ _ store _
      · exact Ledger.booked_roll store present rfl

theorem mem_keys_addToSample {db : Database} {rate : Int} {store : Store τ} {key : Nat × String}
    {totals : Totals τ} {breakup : Hash String τ} {wallTime : Int} {other : Nat × String}
    (member : other ∈ (addToSample db rate store key totals breakup wallTime).samples.keys) :
    other = key ∨ other ∈ store.samples.keys := by
  unfold addToSample at member
  split at member
  · exact Hash.mem_keys_set.mp member
  · split at member
    · exact Hash.mem_keys_set.mp member
    · split at member
      · split at member
        · exact .inr member
        · exact .inr member
      · exact Hash.mem_keys_set.mp member

theorem booked_writeStaleSamples (rate : Int) (now : Nat × String → Int) (store : Store τ)
    (own : Nat × String → Bool) :
    booked (writeStaleSamples rate now store) own = booked store own :=
  Ledger.booked_flush store _ fun _ _ => rfl

end UrlTimeSample

end Analyzer
