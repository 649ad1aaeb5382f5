import Mathlib
import Webroar.Analyzer.Analytics
import Webroar.Library.Tally

/-! # Rows and windows

A row that is written for a sample in memory should describe the window of that sample. In
`AppTimeSample` the first message of a window is in no second of it, so that a row is right only
where that does not show. In `UrlTimeSample` the row of a window that is over when the next message
comes has the time of that message.
-/

namespace Analyzer

variable {τ : Type}

/-- The times of the messages that a sample counts: of the first one, at which the window begins,
and of the others. -/
structure Window where
  first : Int
  later : List Int

namespace Window

def times (window : Window) : List Int := window.first :: window.later

/-- The seconds in which the messages were. -/
def seconds (window : Window) : List Int := window.times.map second

/-- A message comes in a window that is over. -/
def Over (rate : Int) (window : Window) (wallTime : Int) : Prop :=
  window.first ≤ wallTime ∧ window.first + rate < wallTime

/-- The window after a message. -/
def noted (rate wallTime : Int) : Option Window → Window
  | none => ⟨wallTime, []⟩
  | some window =>
      if window.first ≤ wallTime ∧ wallTime ≤ window.first + rate then
        { window with later := window.later ++ [wallTime] }
      else if wallTime < window.first then window
      else ⟨wallTime, []⟩

/-- There is a second message, no two messages are in one second, and no two after the first are in
the same second of a minute. -/
structure Spread (window : Window) : Prop where
  more : window.later ≠ []
  seconds : window.seconds.Nodup
  slots : (window.later.map sec).Nodup

end Window

/-- What a row says of the window is so: when it ends, how many messages there were at most in one
second, and how many milliseconds there were with messages in them for each message. -/
structure AppTimeSample.Row.Describes (rate : Int) (window : Window)
    (row : AppTimeSample.Row τ) : Prop where
  wallTime : row.wallTime = window.first + rate
  peakRequestsServed : row.peakRequestsServed = mostFrequent window.seconds
  avgResponseTime : row.avgResponseTime =
    (window.seconds.dedup.length * 1000) / (window.times.length : ℚ)

namespace AppTimeSample

/-- What a sample has of its window. -/
structure Sample.Counts (sample : Sample τ) (window : Window) : Prop where
  wallTime : sample.wallTime = window.first
  perSecond : sample.perSecond = tally 60 (window.later.map sec)

/-- The row of a sample is right where the window is spread, and nowhere else. -/
theorem Sample.Counts.describes_iff {sample : Sample τ} {window : Window}
    (counts : sample.Counts window) (rate : Int) (appId : Nat) :
    (sampleRow rate appId sample).Describes rate window ↔ window.Spread := by
  have bound : ∀ slot ∈ window.later.map sec, slot < 60 := by
    intro slot member
    obtain ⟨time, -, rfl⟩ := List.mem_map.mp member
    unfold sec
    omega
  have busy := Tally.length_filter_tally bound
  have all : ((tally 60 (window.later.map sec)).filter (· ≠ 0)).sum = window.later.length := by
    rw [Tally.sum_filter_ne_zero, Tally.sum_tally bound, List.length_map]
  have few : (window.later.map sec).dedup.length ≤ window.later.length := by
    have sublist := (List.dedup_sublist (window.later.map sec)).length_le
    rw [List.length_map] at sublist
    exact sublist
  have some : window.later.length ≠ 0 → (window.later.map sec).dedup.length ≠ 0 := by
    intro more none
    rw [List.length_eq_zero_iff, List.dedup_eq_nil, List.map_eq_nil_iff,
      ← List.length_eq_zero_iff] at none
    exact more none
  have occurs : window.seconds.dedup.length ≠ 0 := by
    rw [ne_eq, List.length_eq_zero_iff, List.dedup_eq_nil]
    exact List.cons_ne_nil _ _
  have length : window.seconds.length = window.later.length + 1 := by
    rw [Window.seconds, List.length_map, Window.times, List.length_cons]
  have ratio := Tally.ratio_eq_iff few some occurs
  have average : (sampleRow rate appId sample).avgResponseTime =
      if 0 < (window.later.map sec).dedup.length then
        ((window.later.map sec).dedup.length * 1000) / (window.later.length : ℚ) else 0 := by
    simp only [sampleRow, createSample, counts.perSecond, busy, all]
  constructor
  · intro right
    obtain ⟨more, slots, seconds⟩ := ratio.mp (average.symm.trans right.avgResponseTime)
    refine ⟨?_, ?_, ?_⟩
    · intro none
      rw [none] at more
      exact more rfl
    · rw [← Tally.length_dedup_eq, seconds, length]
    · rw [← Tally.length_dedup_eq, slots, List.length_map]
  · intro spread
    have more : window.later.map sec ≠ [] := by
      rw [ne_eq, List.map_eq_nil_iff]
      exact spread.more
    refine ⟨congrArg (· + rate) counts.wallTime, ?_, ?_⟩
    · have served : (sampleRow rate appId sample).peakRequestsServed =
          (tally 60 (window.later.map sec)).max?.getD 0 := by
        simp only [sampleRow, createSample, counts.perSecond]
      rw [served, Tally.max_tally bound spread.slots more,
        Tally.mostFrequent_eq_one spread.seconds (List.cons_ne_nil _ _)]
    · rw [average]
      apply ratio.mpr
      refine ⟨?_, ?_, ?_⟩
      · rw [ne_eq, List.length_eq_zero_iff]
        exact spread.more
      · rw [Tally.length_dedup_eq.mpr spread.slots, List.length_map]
      · rw [Tally.length_dedup_eq.mpr spread.seconds, length]

end AppTimeSample

/-! ### Samples and windows go together -/

section Agreement

variable {κ σ ρ : Type} [DecidableEq κ] {counts : σ → Window → Prop} {store : Ledger κ σ ρ}
  {windows : κ → Option Window}

/-- There is a sample wherever there is a window, and it counts its messages. -/
def Agree (counts : σ → Window → Prop) (store : Ledger κ σ ρ) (windows : κ → Option Window) :
    Prop :=
  ∀ key, Option.Rel counts (store.sample? key) (windows key)

/-- A message is noted in the window of its key. -/
def note (rate : Int) (windows : κ → Option Window) (key : κ) (wallTime : Int) :
    κ → Option Window :=
  Function.update windows key (some (Window.noted rate wallTime (windows key)))

/-- The windows that are not over. -/
def remaining (rate : Int) (windows : κ → Option Window) (now : κ → Int) (key : κ) :
    Option Window :=
  (windows key).filter fun window => !decide (window.first + rate < now key)

theorem Agree.of_sample {other : Ledger κ σ ρ} (agree : Agree counts store windows)
    (same : ∀ key, other.sample? key = store.sample? key) : Agree counts other windows := by
  intro key
  rw [same key]
  exact agree key

/-- A sample and its window are replaced together. -/
theorem Agree.keep (agree : Agree counts store windows) {key : κ} {sample : σ} {window : Window}
    (counted : counts sample window) :
    Agree counts (store.keep key sample) (Function.update windows key (some window)) := by
  intro other
  rw [Ledger.sample?_keep, Function.update_apply]
  by_cases same : key = other
  · rw [if_pos same, if_pos same.symm]
    exact .some counted
  · rw [if_neg same, if_neg fun equal => same equal.symm]
    exact agree other

/-- Samples and windows that are over go together. -/
theorem Agree.flush (agree : Agree counts store windows) {rate : Int} {now : κ → Int}
    {due : κ → σ → Bool} {row : κ → σ → ρ}
    (same : ∀ key sample window, counts sample window →
      due key sample = decide (window.first + rate < now key)) :
    Agree counts (store.flush due row) (remaining rate windows now) := by
  intro key
  have related := agree key
  rw [Ledger.sample?_flush, remaining]
  generalize store.sample? key = found at related ⊢
  generalize windows key = noted at related ⊢
  cases related with
  | none => exact .none
  | @some sample window counted =>
      rw [Option.filter_some, Option.filter_some, same key sample window counted]
      split
      · exact .some counted
      · exact .none

/-- However a message is counted, it is noted in the same way. -/
theorem Agree.note (agree : Agree counts store windows) {rate wallTime : Int} {key : κ}
    {result : Ledger κ σ ρ} (start : σ → Int)
    (begins : ∀ {sample window}, counts sample window → start sample = window.first)
    (opens : store.sample? key = none → ∃ new,
      (∀ other, result.sample? other = if key = other then some new else store.sample? other) ∧
        counts new ⟨wallTime, []⟩)
    (within : ∀ sample, store.sample? key = some sample →
      start sample ≤ wallTime ∧ wallTime ≤ start sample + rate → ∃ new,
        (∀ other, result.sample? other = if key = other then some new else store.sample? other) ∧
          ∀ {window}, counts sample window →
            counts new { window with later := window.later ++ [wallTime] })
    (early : ∀ sample, store.sample? key = some sample → wallTime < start sample →
      ∀ other, result.sample? other = store.sample? other)
    (past : ∀ sample, store.sample? key = some sample →
      start sample ≤ wallTime ∧ start sample + rate < wallTime → ∃ new,
        (∀ other, result.sample? other = if key = other then some new else store.sample? other) ∧
          counts new ⟨wallTime, []⟩) :
    Agree counts result (note rate windows key wallTime) := by
  have replaced : ∀ {new window}, (∀ other, result.sample? other =
      if key = other then some new else store.sample? other) → counts new window →
        Agree counts result (Function.update windows key (some window)) := by
    intro new window same counted
    apply (agree.keep counted).of_sample
    intro other
    rw [same other, Ledger.sample?_keep]
  have related := agree key
  unfold Analyzer.note
  generalize present : store.sample? key = found at related
  generalize noted : windows key = window at related ⊢
  cases related with
  | none =>
      obtain ⟨new, same, counted⟩ := opens present
      exact replaced same counted
  | @some sample window counted =>
      have begins := begins counted
      rw [Window.noted]
      split
      case isTrue inside =>
        obtain ⟨new, same, counts⟩ := within sample present (begins ▸ inside)
        exact replaced same (counts counted)
      case isFalse outside =>
        split
        case isTrue before =>
          rw [← noted, Function.update_eq_self]
          exact agree.of_sample (early sample present (begins ▸ before))
        case isFalse behind =>
          obtain ⟨new, same, counted⟩ := past sample present (by omega)
          exact replaced same counted

/-- Rows for samples are written by messages that find a window that is over. -/
theorem Agree.written_iff (agree : Agree counts store windows) {rate wallTime : Int} {key : κ}
    {written : List ρ} {right : ρ → Prop} {good : Window → Prop} (start : σ → Int)
    (begins : ∀ {sample window}, counts sample window → start sample = window.first)
    (opens : store.sample? key = none → written = [])
    (within : ∀ sample, store.sample? key = some sample →
      start sample ≤ wallTime ∧ wallTime ≤ start sample + rate → written = [])
    (past : ∀ sample window, store.sample? key = some sample → windows key = some window →
      counts sample window → start sample ≤ wallTime ∧ start sample + rate < wallTime →
        ((∀ row ∈ written, right row) ↔ good window)) :
    ((∀ window, windows key = some window → window.first ≤ wallTime) →
      ∀ row ∈ written, right row) ↔
    ∀ window, windows key = some window → window.Over rate wallTime → good window := by
  have related := agree key
  generalize present : store.sample? key = found at related
  generalize noted : windows key = window at related ⊢
  cases related with
  | none =>
      rw [opens present]
      exact iff_of_true (fun _ _ member => absurd member List.not_mem_nil) nofun
  | @some sample window counted =>
      have same : ∀ {other}, some window = some other → window = other := Option.some.inj
      have begins := begins counted
      by_cases early : wallTime < start sample
      · apply iff_of_true
        · intro late
          exact absurd early (not_lt.mpr (begins ▸ late window rfl))
        · intro other equal past
          rw [← same equal, Window.Over, ← begins] at past
          exact absurd early (not_lt.mpr past.1)
      by_cases inside : start sample ≤ wallTime ∧ wallTime ≤ start sample + rate
      · rw [within sample present inside]
        apply iff_of_true
        · exact fun _ _ member => absurd member List.not_mem_nil
        · intro other equal past
          rw [← same equal, Window.Over, ← begins] at past
          exact absurd past.2 (not_lt.mpr inside.2)
      · have behind : start sample ≤ wallTime ∧ start sample + rate < wallTime := by omega
        have late : ∀ other, some window = some other → other.first ≤ wallTime := by
          intro other equal
          rw [← same equal, ← begins]
          exact behind.1
        have ended : window.Over rate wallTime := by
          rw [Window.Over, ← begins]
          exact behind
        constructor
        · intro right other equal _
          rw [← same equal]
          exact (past sample window present noted counted behind).mp (right late)
        · intro all _
          exact (past sample window present noted counted behind).mpr (all window rfl ended)

end Agreement

namespace AppTimeSample

variable [AddCommMonoid τ] {db : Database} {rate : Int} {store : Store τ} {appId : Nat}
  {totals : Totals τ} {wallTime : Int} {sample : Sample τ}

/-! What `add_to_sample` does in each of its cases. -/

theorem addToSample_none (absent : store.sample? appId = none) :
    addToSample db rate store appId totals wallTime =
      store.keep appId (opened wallTime totals) := by
  unfold addToSample
  simp only [absent]

theorem addToSample_within (present : store.sample? appId = some sample)
    (within : sample.wallTime ≤ wallTime ∧ wallTime ≤ sample.wallTime + rate) :
    addToSample db rate store appId totals wallTime =
      store.keep appId (sample.add totals wallTime) := by
  unfold addToSample
  simp only [present, if_pos within]

/-- A message that is older than the sample leaves it as it is. -/
theorem sample?_addToSample_early (present : store.sample? appId = some sample)
    (early : wallTime < sample.wallTime) (other : Nat) :
    (addToSample db rate store appId totals wallTime).sample? other = store.sample? other := by
  have outside : ¬ (sample.wallTime ≤ wallTime ∧ wallTime ≤ sample.wallTime + rate) :=
    fun within => absurd within.1 (not_le.mpr early)
  unfold addToSample
  simp only [present, if_neg outside, if_pos early]
  split
  · exact Ledger.sample?_update ..
  · exact Ledger.sample?_write ..

theorem addToSample_over (present : store.sample? appId = some sample)
    (past : sample.wallTime ≤ wallTime ∧ sample.wallTime + rate < wallTime) :
    addToSample db rate store appId totals wallTime =
      (store.write (sampleRow rate appId sample)).keep appId (opened wallTime totals) := by
  have outside : ¬ (sample.wallTime ≤ wallTime ∧ wallTime ≤ sample.wallTime + rate) :=
    fun within => absurd within.2 (not_le.mpr past.2)
  unfold addToSample
  simp only [present, if_neg outside, if_neg (not_lt.mpr past.1)]

omit [AddCommMonoid τ] in
theorem counts_opened (wallTime : Int) (totals : Totals τ) :
    (opened wallTime totals).Counts ⟨wallTime, []⟩ := ⟨rfl, rfl⟩

/-- A message that is added to the sample belongs to its window. -/
theorem Sample.Counts.add {window : Window} (counts : sample.Counts window) :
    (sample.add totals wallTime).Counts { window with later := window.later ++ [wallTime] } := by
  refine ⟨counts.wallTime, ?_⟩
  have slots : (window.later ++ [wallTime]).map sec = window.later.map sec ++ [sec wallTime] := by
    rw [List.map_append, List.map_singleton]
  rw [slots, Tally.tally_append, ← counts.perSecond]
  rfl

/-- A message is noted where it is counted. -/
theorem agree_addToSample {windows : Nat → Option Window}
    (agree : Agree Sample.Counts store windows) :
    Agree Sample.Counts (addToSample db rate store appId totals wallTime)
      (note rate windows appId wallTime) := by
  apply agree.note Sample.wallTime fun counts => counts.wallTime
  · intro absent
    refine ⟨opened wallTime totals, fun other => ?_, counts_opened wallTime totals⟩
    rw [addToSample_none absent, Ledger.sample?_keep]
  · intro sample present within
    refine ⟨sample.add totals wallTime, fun other => ?_, fun counts => counts.add⟩
    rw [addToSample_within present within, Ledger.sample?_keep]
  · intro sample present early
    exact sample?_addToSample_early present early
  · intro sample present past
    refine ⟨opened wallTime totals, fun other => ?_, counts_opened wallTime totals⟩
    rw [addToSample_over present past, Ledger.sample?_keep, Ledger.sample?_write]

/-- The row that is written for the sample when a message comes is right where the window is spread,
if it is over. -/
theorem rows_addToSample_iff {windows : Nat → Option Window}
    (agree : Agree Sample.Counts store windows) :
    ((∀ window, windows appId = some window → window.first ≤ wallTime) →
      ∀ row ∈ (addToSample db rate store appId totals wallTime).rows.drop store.rows.length,
        ∃ window, windows row.appId = some window ∧ row.Describes rate window) ↔
    ∀ window, windows appId = some window → window.Over rate wallTime → window.Spread := by
  apply agree.written_iff Sample.wallTime fun counts => counts.wallTime
  · intro absent
    rw [addToSample_none absent]
    exact List.drop_length
  · intro sample present within
    rw [addToSample_within present within]
    exact List.drop_length
  · intro sample window present noted counts past
    have rows : (addToSample db rate store appId totals wallTime).rows.drop
        store.rows.length = [sampleRow rate appId sample] := by
      rw [addToSample_over present past]
      exact List.drop_left
    have own : windows (sampleRow rate appId sample).appId = some window := noted
    rw [rows, List.forall_mem_singleton, own, ← counts.describes_iff rate appId]
    constructor
    · intro ⟨other, same, describes⟩
      rw [Option.some.inj same]
      exact describes
    · exact fun describes => ⟨window, rfl, describes⟩

omit [AddCommMonoid τ] in
/-- The rows of stale samples are right where the windows that are over are spread. -/
theorem dueSamples_right_iff {windows : Nat → Option Window}
    (agree : Agree Sample.Counts store windows) {due : Nat → Sample τ → Bool}
    {ends : Nat → Window → Prop}
    (same : ∀ appId sample window, sample.Counts window →
      (due appId sample = true ↔ ends appId window)) :
    (∀ row ∈ (store.dueSamples due).map fun entry => sampleRow rate entry.1 entry.2,
      ∃ window, windows row.appId = some window ∧ row.Describes rate window) ↔
    ∀ appId window, windows appId = some window → ends appId window → window.Spread := by
  constructor
  · intro right appId window noted past
    have related := agree appId
    rw [noted] at related
    generalize present : store.sample? appId = found at related
    cases related with
    | @some sample _ counts =>
        have member := Ledger.mem_dueSamples.mpr
          ⟨present, (same appId sample window counts).mpr past⟩
        obtain ⟨other, equal, describes⟩ := right _ (List.mem_map_of_mem member)
        have equal : windows appId = some other := equal
        rw [noted] at equal
        injection equal with equal
        subst equal
        exact (counts.describes_iff rate appId).mp describes
  · intro spread row member
    obtain ⟨entry, listed, rfl⟩ := List.mem_map.mp member
    obtain ⟨present, old⟩ := Ledger.mem_dueSamples.mp listed
    have related := agree entry.1
    rw [present] at related
    generalize noted : windows entry.1 = window at related
    cases related with
    | @some _ window counts =>
        refine ⟨window, noted, (counts.describes_iff rate entry.1).mpr ?_⟩
        exact spread entry.1 window noted ((same entry.1 entry.2 window counts).mp old)

end AppTimeSample

namespace UrlTimeSample

variable [AddCommMonoid τ] {db : Database} {rate : Int} {store : Store τ} {key : Nat × String}
  {totals : Totals τ} {breakup : Hash String τ} {wallTime : Int} {sample : Sample τ}

/-- A sample has the time at which its window begins. -/
def Sample.Begins (sample : Sample τ) (window : Window) : Prop := sample.wallTime = window.first

theorem addToSample_none (absent : store.sample? key = none) :
    addToSample db rate store key totals breakup wallTime =
      store.keep key ⟨wallTime, totals, breakup⟩ := by
  unfold addToSample
  simp only [absent]

theorem addToSample_within (present : store.sample? key = some sample)
    (within : sample.wallTime ≤ wallTime ∧ wallTime ≤ sample.wallTime + rate) :
    addToSample db rate store key totals breakup wallTime =
      store.keep key (sample.add totals breakup) := by
  unfold addToSample
  simp only [present, if_pos within]

theorem sample?_addToSample_early (present : store.sample? key = some sample)
    (early : wallTime < sample.wallTime) (other : Nat × String) :
    (addToSample db rate store key totals breakup wallTime).sample? other =
      store.sample? other := by
  have outside : ¬ (sample.wallTime ≤ wallTime ∧ wallTime ≤ sample.wallTime + rate) :=
    fun within => absurd within.1 (not_le.mpr early)
  unfold addToSample
  simp only [present, if_neg outside, if_pos early]
  split
  · exact Ledger.sample?_update ..
  · exact Ledger.sample?_write ..

/-- The row has the time of the message, not that of the window. -/
theorem addToSample_over (present : store.sample? key = some sample)
    (past : sample.wallTime ≤ wallTime ∧ sample.wallTime + rate < wallTime) :
    addToSample db rate store key totals breakup wallTime =
      (store.write (createSample key sample.totals wallTime rate sample.breakup)).keep key
        ⟨wallTime, totals, breakup⟩ := by
  have outside : ¬ (sample.wallTime ≤ wallTime ∧ wallTime ≤ sample.wallTime + rate) :=
    fun within => absurd within.2 (not_le.mpr past.2)
  unfold addToSample
  simp only [present, if_neg outside, if_neg (not_lt.mpr past.1)]

theorem agree_addToSample {windows : Nat × String → Option Window}
    (agree : Agree Sample.Begins store windows) :
    Agree Sample.Begins (addToSample db rate store key totals breakup wallTime)
      (note rate windows key wallTime) := by
  apply agree.note Sample.wallTime fun begins => begins
  · intro absent
    refine ⟨⟨wallTime, totals, breakup⟩, fun other => ?_, rfl⟩
    rw [addToSample_none absent, Ledger.sample?_keep]
  · intro sample present within
    refine ⟨sample.add totals breakup, fun other => ?_, fun begins => begins⟩
    rw [addToSample_within present within, Ledger.sample?_keep]
  · intro sample present early
    exact sample?_addToSample_early present early
  · intro sample present past
    refine ⟨⟨wallTime, totals, breakup⟩, fun other => ?_, rfl⟩
    rw [addToSample_over present past, Ledger.sample?_keep, Ledger.sample?_write]

/-- The row that is written for the sample when a message comes is not right. -/
theorem rows_addToSample_iff {windows : Nat × String → Option Window}
    (agree : Agree Sample.Begins store windows) :
    ((∀ window, windows key = some window → window.first ≤ wallTime) →
      ∀ row ∈ (addToSample db rate store key totals breakup wallTime).rows.drop
          store.rows.length,
        ∃ window, windows (row.appId, row.url) = some window ∧
          row.wallTime = window.first + rate) ↔
    ∀ window, windows key = some window → ¬ window.Over rate wallTime := by
  apply agree.written_iff Sample.wallTime fun begins => begins
  · intro absent
    rw [addToSample_none absent]
    exact List.drop_length
  · intro sample present within
    rw [addToSample_within present within]
    exact List.drop_length
  · intro sample window present noted begins past
    have begins : sample.wallTime = window.first := begins
    have rows : (addToSample db rate store key totals breakup wallTime).rows.drop
        store.rows.length = [createSample key sample.totals wallTime rate sample.breakup] := by
      rw [addToSample_over present past]
      exact List.drop_left
    rw [rows, List.forall_mem_singleton]
    apply iff_of_false
    · intro ⟨other, same, time⟩
      have same : windows key = some other := same
      have time : wallTime = other.first + rate := time
      rw [noted] at same
      rw [time, begins, Option.some.inj same] at past
      exact absurd past.2 (lt_irrefl _)
    · exact id

omit [AddCommMonoid τ] in
/-- The rows of stale samples are right. -/
theorem dueSamples_right {windows : Nat × String → Option Window}
    (agree : Agree Sample.Begins store windows) (due : Nat × String → Sample τ → Bool) :
    ∀ row ∈ (store.dueSamples due).map fun entry => sampleRow rate entry.1 entry.2,
      ∃ window, windows (row.appId, row.url) = some window ∧
        row.wallTime = window.first + rate := by
  intro row member
  obtain ⟨entry, listed, rfl⟩ := List.mem_map.mp member
  obtain ⟨present, -⟩ := Ledger.mem_dueSamples.mp listed
  have related := agree entry.1
  rw [present] at related
  generalize noted : windows entry.1 = window at related
  cases related with
  | @some _ window begins => exact ⟨window, noted, congrArg (· + rate) begins⟩

end UrlTimeSample

/-- The windows of the applications and of the URLs. -/
structure Windows where
  apps : Nat → Option Window
  urls : Nat × String → Option Window

namespace MessageAnalyzer

/-- Nothing has been counted. -/
def noWindows : Windows := ⟨fun _ => none, fun _ => none⟩

variable [AddCommMonoid τ]

/-- The windows after an event. -/
def windowsAfter (setting : Setting) (analyzer : MessageAnalyzer τ) (windows : Windows) :
    Event τ → Windows
  | .read item =>
      match analyzer.handled (.read item) with
      | none => windows
      | some (appId, message) =>
          { apps := note setting.samplingRate windows.apps appId message.wallTime
            urls := note setting.samplingRate windows.urls (appId, message.url) message.wallTime }
  | .processStaleSamples appNow urlNow =>
      { apps := remaining setting.samplingRate windows.apps appNow
        urls := remaining setting.samplingRate windows.urls urlNow }
  | .appCreated _ _ => windows

/-- The windows after a run. -/
def windowsOf (setting : Setting) (analyzer : MessageAnalyzer τ) (windows : Windows) :
    List (Event τ) → Windows
  | [] => windows
  | event :: events =>
      (analyzer.step setting event).windowsOf setting (analyzer.windowsAfter setting windows event)
        events

/-- This holds of every event of a run, in the state that it finds. -/
def Throughout (setting : Setting) (P : MessageAnalyzer τ → Windows → Event τ → Prop)
    (analyzer : MessageAnalyzer τ) (windows : Windows) : List (Event τ) → Prop
  | [] => True
  | event :: events =>
      P analyzer windows event ∧
        (analyzer.step setting event).Throughout setting P
          (analyzer.windowsAfter setting windows event) events

/-- Each row has the time at which the window of its application ends, the greatest number of
messages in one second, and the average over all messages of the window. -/
def AppRowsRight (setting : Setting) (windows : Windows) (rows : List (AppTimeSample.Row τ)) :
    Prop :=
  ∀ row ∈ rows, ∃ window, windows.apps row.appId = some window ∧
    row.Describes setting.samplingRate window

/-- Each row has the time at which the window of its URL ends. -/
def UrlRowsRight (setting : Setting) (windows : Windows) (rows : List (UrlTimeSample.Row τ)) :
    Prop :=
  ∀ row ∈ rows, ∃ window, windows.urls (row.appId, row.url) = some window ∧
    row.wallTime = window.first + setting.samplingRate

/-- The rows that an event writes for samples in memory are right. For a message that is older than
the sample a row of its own may be written, which is not one of them. -/
structure RowsRight (setting : Setting) (analyzer : MessageAnalyzer τ) (windows : Windows)
    (event : Event τ) : Prop where
  apps : (∀ appId message window, analyzer.handled event = some (appId, message) →
      windows.apps appId = some window → window.first ≤ message.wallTime) →
    AppRowsRight setting windows ((analyzer.step setting event).applicationSamples.rows.drop
      analyzer.applicationSamples.rows.length)
  urls : (∀ appId message window, analyzer.handled event = some (appId, message) →
      windows.urls (appId, message.url) = some window → window.first ≤ message.wallTime) →
    UrlRowsRight setting windows ((analyzer.step setting event).urlSamples.rows.drop
      analyzer.urlSamples.rows.length)

/-- The event ends this window of an application. -/
def EndsWindow (setting : Setting) (analyzer : MessageAnalyzer τ) (event : Event τ) (appId : Nat)
    (window : Window) : Prop :=
  match event with
  | .read item => ∃ message, analyzer.handled (.read item) = some (appId, message) ∧
      window.Over setting.samplingRate message.wallTime
  | .processStaleSamples appNow _ => window.first + setting.samplingRate < appNow appId
  | .appCreated _ _ => False

/-- A window of an application is spread when it ends, and the window of a URL is not over when a
message of this URL comes. -/
structure Harmless (setting : Setting) (analyzer : MessageAnalyzer τ) (windows : Windows)
    (event : Event τ) : Prop where
  apps : ∀ appId window, windows.apps appId = some window →
    analyzer.EndsWindow setting event appId window → window.Spread
  urls : ∀ appId message window, analyzer.handled event = some (appId, message) →
    windows.urls (appId, message.url) = some window →
      ¬ window.Over setting.samplingRate message.wallTime

/-- Samples and windows go together, and belong to applications of the table. -/
structure Tracked (analyzer : MessageAnalyzer τ) (windows : Windows) : Prop where
  known : analyzer.Known
  apps : Agree AppTimeSample.Sample.Counts analyzer.applicationSamples windows.apps
  urls : Agree UrlTimeSample.Sample.Begins analyzer.urlSamples windows.urls

omit [AddCommMonoid τ] in
/-- Reading the applications again keeps the samples. -/
theorem Known.sample?_reloadApps {analyzer : MessageAnalyzer τ} (known : analyzer.Known) :
    (∀ appId, analyzer.reloadApps.applicationSamples.sample? appId =
      analyzer.applicationSamples.sample? appId) ∧
    ∀ key, analyzer.reloadApps.urlSamples.sample? key = analyzer.urlSamples.sample? key := by
  constructor
  · intro appId
    have found := Hash.get_map
      (fun appId _ => analyzer.applicationSamples.sample? appId) analyzer.table appId
    refine (congrArg Option.join found).trans ?_
    cases listed : analyzer.table.get appId with
    | some name => rfl
    | none =>
        have absent : analyzer.applicationSamples.samples.get appId = none := by
          by_contra present
          exact Hash.mem_keys.mp (known.applications appId (Hash.mem_keys.mpr present)) listed
        rw [Ledger.sample?, absent]
        rfl
  · intro key
    have same : analyzer.urlSamples.samples.filter (fun key => key.1 ∈ analyzer.table.keys) =
        analyzer.urlSamples.samples := by
      apply Hash.filter_eq_self
      intro key member
      exact decide_eq_true (known.urls key member)
    simp only [Ledger.sample?, reloadApps, same]

omit [AddCommMonoid τ] in
theorem Known.sample?_loaded {analyzer : MessageAnalyzer τ} (known : analyzer.Known)
    (appName : String) :
    (∀ appId, (analyzer.loaded appName).applicationSamples.sample? appId =
      analyzer.applicationSamples.sample? appId) ∧
    (∀ key, (analyzer.loaded appName).urlSamples.sample? key =
      analyzer.urlSamples.sample? key) ∧
    (analyzer.loaded appName).applicationSamples.rows = analyzer.applicationSamples.rows ∧
    (analyzer.loaded appName).urlSamples.rows = analyzer.urlSamples.rows := by
  unfold MessageAnalyzer.loaded
  split
  · exact ⟨fun _ => rfl, fun _ => rfl, rfl, rfl⟩
  · exact ⟨known.sample?_reloadApps.1, known.sample?_reloadApps.2, rfl, rfl⟩

omit [AddCommMonoid τ] in
/-- At first there are neither samples nor windows. -/
theorem tracked_start (table : Hash Nat String) :
    (start table : MessageAnalyzer τ).Tracked noWindows := by
  have blank : (blank table : MessageAnalyzer τ).Known := ⟨nofun, nofun, nofun⟩
  obtain ⟨apps, urls⟩ := blank.sample?_reloadApps
  refine ⟨known_reloadApps _, fun appId => ?_, fun key => ?_⟩
  · rw [start, apps appId]
    exact .none
  · rw [start, urls key]
    exact .none

/-- A stale sample is one whose window is over. -/
theorem Tracked.stale {analyzer : MessageAnalyzer τ} {windows : Windows}
    (tracked : analyzer.Tracked windows) (setting : Setting) (appNow : Nat → Int)
    (urlNow : Nat × String → Int) :
    (analyzer.processStaleSamples setting appNow urlNow).Tracked
      (analyzer.windowsAfter setting windows (.processStaleSamples appNow urlNow)) := by
  refine ⟨(tracked.known.step setting (.processStaleSamples appNow urlNow)).1, ?_, ?_⟩
  · apply tracked.apps.flush
    intro appId sample window counts
    rw [counts.wallTime]
  · apply tracked.urls.flush
    intro key sample window begins
    rw [show sample.wallTime = window.first from begins]

/-- An event keeps samples and windows together. -/
theorem Tracked.step {analyzer : MessageAnalyzer τ} {windows : Windows}
    (tracked : analyzer.Tracked windows) (setting : Setting) (event : Event τ) :
    (analyzer.step setting event).Tracked (analyzer.windowsAfter setting windows event) := by
  have known := (tracked.known.step setting event).1
  cases event with
  | read item =>
      cases item with
      | other => exact tracked
      | urlMetric message =>
          obtain ⟨apps, urls, -, -⟩ := tracked.known.sample?_loaded message.appName
          cases found : (analyzer.loaded message.appName).apps.get message.appName with
          | none =>
              obtain ⟨next, nothing⟩ := step_unknown setting found
              rw [next] at known
              rw [next, windowsAfter, nothing]
              exact ⟨known, tracked.apps.of_sample apps, tracked.urls.of_sample urls⟩
          | some appId =>
              obtain ⟨next, counted⟩ := step_known setting found
              rw [next] at known
              rw [next, windowsAfter, counted]
              exact ⟨known, AppTimeSample.agree_addToSample (tracked.apps.of_sample apps),
                UrlTimeSample.agree_addToSample (tracked.urls.of_sample urls)⟩
  | processStaleSamples appNow urlNow => exact tracked.stale setting appNow urlNow
  | appCreated appId name =>
      refine ⟨known, ?_, ?_⟩
      · intro key
        rw [MessageAnalyzer.step, create]
        split
        · exact tracked.apps key
        · exact tracked.apps key
      · intro key
        rw [MessageAnalyzer.step, create]
        split
        · exact tracked.urls key
        · exact tracked.urls key

/-- An event that writes no rows writes no wrong ones. -/
theorem rowsRight_of_rows {setting : Setting} {analyzer : MessageAnalyzer τ} {windows : Windows}
    {event : Event τ}
    (apps : (analyzer.step setting event).applicationSamples.rows =
      analyzer.applicationSamples.rows)
    (urls : (analyzer.step setting event).urlSamples.rows = analyzer.urlSamples.rows) :
    analyzer.RowsRight setting windows event := by
  constructor
  · intro _
    rw [apps, List.drop_length]
    exact fun _ member => absurd member List.not_mem_nil
  · intro _
    rw [urls, List.drop_length]
    exact fun _ member => absurd member List.not_mem_nil

omit [AddCommMonoid τ] in
/-- A message that is not processed ends no window. -/
theorem harmless_of_unhandled {setting : Setting} {analyzer : MessageAnalyzer τ}
    {windows : Windows} {item : Item τ} (unhandled : analyzer.handled (.read item) = none) :
    analyzer.Harmless setting windows (.read item) := by
  constructor
  · intro appId window _ ⟨message, handled, _⟩
    rw [unhandled] at handled
    cases handled
  · intro appId message window handled
    rw [unhandled] at handled
    cases handled

/-- The rows that a message writes are right where it ends no window, or, for its application, one
that is spread. -/
theorem Tracked.rowsRight_known {analyzer : MessageAnalyzer τ} {windows : Windows}
    (tracked : analyzer.Tracked windows) (setting : Setting) {message : UrlMetric τ} {appId : Nat}
    (found : (analyzer.loaded message.appName).apps.get message.appName = some appId) :
    analyzer.RowsRight setting windows (.read (.urlMetric message)) ↔
      analyzer.Harmless setting windows (.read (.urlMetric message)) := by
  obtain ⟨apps, urls, appRows, urlRows⟩ := tracked.known.sample?_loaded message.appName
  obtain ⟨next, handled⟩ := step_known setting found
  have only : ∀ {other message'},
      analyzer.handled (.read (.urlMetric message)) = some (other, message') →
        appId = other ∧ message = message' := by
    intro other message' same
    rw [handled] at same
    injection same with same
    injection same with ids messages
    exact ⟨ids, messages⟩
  have appsIff : ((∀ window, windows.apps appId = some window →
        window.first ≤ message.wallTime) →
      AppRowsRight setting windows
        ((analyzer.step setting (.read (.urlMetric message))).applicationSamples.rows.drop
          analyzer.applicationSamples.rows.length)) ↔
      ∀ window, windows.apps appId = some window →
        window.Over setting.samplingRate message.wallTime → window.Spread := by
    rw [next, ← appRows]
    exact AppTimeSample.rows_addToSample_iff (tracked.apps.of_sample apps)
  have urlsIff : ((∀ window, windows.urls (appId, message.url) = some window →
        window.first ≤ message.wallTime) →
      UrlRowsRight setting windows
        ((analyzer.step setting (.read (.urlMetric message))).urlSamples.rows.drop
          analyzer.urlSamples.rows.length)) ↔
      ∀ window, windows.urls (appId, message.url) = some window →
        ¬ window.Over setting.samplingRate message.wallTime := by
    rw [next, ← urlRows]
    exact UrlTimeSample.rows_addToSample_iff (tracked.urls.of_sample urls)
  constructor
  · intro right
    constructor
    · intro other window noted ⟨message', handled', past⟩
      obtain ⟨rfl, rfl⟩ := only handled'
      refine appsIff.mp (fun late => right.apps ?_) window noted past
      intro other message' window handled' noted
      obtain ⟨rfl, rfl⟩ := only handled'
      exact late window noted
    · intro other message' window handled' noted
      obtain ⟨rfl, rfl⟩ := only handled'
      refine urlsIff.mp (fun late => right.urls ?_) window noted
      intro other message' window handled' noted
      obtain ⟨rfl, rfl⟩ := only handled'
      exact late window noted
  · intro harmless
    constructor
    · intro late
      apply appsIff.mpr _ fun window => late appId message window handled
      intro window noted past
      exact harmless.apps appId window noted ⟨message, handled, past⟩
    · intro late
      apply urlsIff.mpr _ fun window => late appId message window handled
      intro window noted
      exact harmless.urls appId message window handled noted

/-- The rows of stale samples are right where the windows of their applications are spread. -/
theorem Tracked.rowsRight_stale {analyzer : MessageAnalyzer τ} {windows : Windows}
    (tracked : analyzer.Tracked windows) (setting : Setting) (appNow : Nat → Int)
    (urlNow : Nat × String → Int) :
    analyzer.RowsRight setting windows (.processStaleSamples appNow urlNow) ↔
      analyzer.Harmless setting windows (.processStaleSamples appNow urlNow) := by
  have appsIff : AppRowsRight setting windows
      ((analyzer.step setting (.processStaleSamples appNow urlNow)).applicationSamples.rows.drop
        analyzer.applicationSamples.rows.length) ↔
      ∀ appId window, windows.apps appId = some window →
        window.first + setting.samplingRate < appNow appId → window.Spread := by
    rw [MessageAnalyzer.step, processStaleSamples, AppTimeSample.writeStaleSamples, Ledger.flush,
      List.drop_left]
    apply AppTimeSample.dueSamples_right_iff tracked.apps
    intro appId sample window counts
    rw [decide_eq_true_eq, counts.wallTime]
  have urls : UrlRowsRight setting windows
      ((analyzer.step setting (.processStaleSamples appNow urlNow)).urlSamples.rows.drop
        analyzer.urlSamples.rows.length) := by
    rw [MessageAnalyzer.step, processStaleSamples, UrlTimeSample.writeStaleSamples, Ledger.flush,
      List.drop_left]
    exact UrlTimeSample.dueSamples_right tracked.urls _
  constructor
  · intro right
    exact ⟨appsIff.mp (right.apps (by rintro _ _ _ ⟨⟩)), by rintro _ _ _ ⟨⟩⟩
  · intro harmless
    exact ⟨fun _ => appsIff.mpr harmless.apps, fun _ => urls⟩

/-- The rows that an event writes are right where it is harmless, and nowhere else. -/
theorem Tracked.right_iff {analyzer : MessageAnalyzer τ} {windows : Windows}
    (tracked : analyzer.Tracked windows) (setting : Setting) (event : Event τ) :
    analyzer.RowsRight setting windows event ↔ analyzer.Harmless setting windows event := by
  cases event with
  | read item =>
      cases item with
      | other => exact iff_of_true (rowsRight_of_rows rfl rfl) (harmless_of_unhandled rfl)
      | urlMetric message =>
          cases found : (analyzer.loaded message.appName).apps.get message.appName with
          | none =>
              obtain ⟨-, -, appRows, urlRows⟩ :=
                tracked.known.sample?_loaded message.appName
              obtain ⟨next, unhandled⟩ := step_unknown setting found
              apply iff_of_true _ (harmless_of_unhandled unhandled)
              apply rowsRight_of_rows
              · rw [next, appRows]
              · rw [next, urlRows]
          | some appId => exact tracked.rowsRight_known setting found
  | processStaleSamples appNow urlNow => exact tracked.rowsRight_stale setting appNow urlNow
  | appCreated appId name =>
      apply iff_of_true
      · apply rowsRight_of_rows
        · rw [MessageAnalyzer.step, create]
          split
          · rfl
          · rfl
        · rw [MessageAnalyzer.step, create]
          split
          · rfl
          · rfl
      · exact ⟨fun _ _ _ ends => ends.elim, by rintro _ _ _ ⟨⟩⟩

theorem Tracked.throughout_iff {analyzer : MessageAnalyzer τ} {windows : Windows}
    (tracked : analyzer.Tracked windows) (setting : Setting) (events : List (Event τ)) :
    (analyzer.Throughout setting (RowsRight setting) windows events ↔
      analyzer.Throughout setting (Harmless setting) windows events) ∧
    (analyzer.run setting events).Tracked (analyzer.windowsOf setting windows events) := by
  induction events generalizing analyzer windows with
  | nil => exact ⟨Iff.rfl, tracked⟩
  | cons event events ih =>
      obtain ⟨later, tracked'⟩ := ih (tracked.step setting event)
      exact ⟨and_congr (tracked.right_iff setting event) later, tracked'⟩

/-- In every run the rows that are written for samples in memory are right if and only if each
window of an application that ends is spread and no window of a URL is ended by a message. The rows
that `write_all_samples` writes in the end are right if and only if the windows that are left for
applications are spread. -/
theorem rowsRight_iff (setting : Setting) (table : Hash Nat String) (events : List (Event τ)) :
    let after := (start table : MessageAnalyzer τ).run setting events
    let windows := (start table : MessageAnalyzer τ).windowsOf setting noWindows events
    let final := after.writeAllSamples setting
    ((start table).Throughout setting (RowsRight setting) noWindows events ↔
      (start table).Throughout setting (Harmless setting) noWindows events) ∧
    (AppRowsRight setting windows
        (final.applicationSamples.rows.drop after.applicationSamples.rows.length) ∧
      UrlRowsRight setting windows
        (final.urlSamples.rows.drop after.urlSamples.rows.length) ↔
      ∀ appId window, windows.apps appId = some window → window.Spread) := by
  intro after windows final
  obtain ⟨written, tracked⟩ := (tracked_start table).throughout_iff setting events
  refine ⟨written, ?_⟩
  have urls : UrlRowsRight setting windows
      (final.urlSamples.rows.drop after.urlSamples.rows.length) := by
    have rows : final.urlSamples.rows.drop after.urlSamples.rows.length =
        (after.urlSamples.dueSamples fun _ _ => true).map fun entry =>
          UrlTimeSample.sampleRow setting.samplingRate entry.1 entry.2 := List.drop_left
    rw [rows]
    exact UrlTimeSample.dueSamples_right tracked.urls _
  rw [and_iff_left urls]
  have rows : final.applicationSamples.rows.drop after.applicationSamples.rows.length =
      (after.applicationSamples.dueSamples fun _ _ => true).map fun entry =>
        AppTimeSample.sampleRow setting.samplingRate entry.1 entry.2 := List.drop_left
  have right : AppRowsRight setting windows
      ((after.applicationSamples.dueSamples fun _ _ => true).map fun entry =>
        AppTimeSample.sampleRow setting.samplingRate entry.1 entry.2) ↔
      ∀ appId window, windows.apps appId = some window → True → window.Spread := by
    apply AppTimeSample.dueSamples_right_iff tracked.apps
    exact fun _ _ _ _ => iff_of_true rfl trivial
  rw [rows, right]
  constructor
  · exact fun all appId window noted => all appId window noted trivial
  · exact fun all appId window noted _ => all appId window noted

/-- A window of a minute, and the first of the rows that match. -/
def oneMinute : Setting where
  db := { shown := id, first := List.head?, mem_of_first := List.mem_of_head? }
  samplingRate := 60 * 10 ^ 6

/-- A request of one page of an application. -/
def request (wallTime : Int) : UrlMetric ℕ where
  appName := "app"
  controller := "home"
  action := "index"
  totalSpentTime := 5
  rendering := 2
  database := .empty
  wallTime := wallTime
  traced := nofun

/-- After two requests 61 seconds apart the row of the first one says that there was none in any
second, and the row of its URL has the time of the second one. -/
theorem not_rowsRight :
    let analyzer : MessageAnalyzer ℕ := start (Hash.empty.set 1 "app")
    let events : List (Event ℕ) :=
      [.read (.urlMetric (request 0)), .read (.urlMetric (request (61 * 10 ^ 6)))]
    let after := analyzer.run oneMinute events
    (after.applicationSamples.rows.map fun row =>
      (row.wallTime, row.peakRequestsServed, row.avgResponseTime)) = [(60 * 10 ^ 6, 0, 0)] ∧
    (after.urlSamples.rows.map fun row => row.wallTime) = [61 * 10 ^ 6] ∧
    ¬ analyzer.Throughout oneMinute (RowsRight oneMinute) noWindows events := by
  intro analyzer events after
  refine ⟨by decide +kernel, by decide +kernel, ?_⟩
  intro right
  have harmless := ((tracked_start _).throughout_iff oneMinute events).1.mp right
  have ended : EndsWindow oneMinute (analyzer.step oneMinute (.read (.urlMetric (request 0))))
      (.read (.urlMetric (request (61 * 10 ^ 6)))) 1 ⟨0, []⟩ :=
    ⟨request (61 * 10 ^ 6), rfl, by decide, by decide⟩
  have spread : (⟨0, []⟩ : Window).Spread := harmless.2.1.apps 1 ⟨0, []⟩ rfl ended
  exact spread.more rfl

end MessageAnalyzer

end Analyzer
