import Mathlib.Algebra.Order.Field.Rat
import Webroar.Analyzer.Message
import Webroar.Library.Ledger

/-! # Samples of applications and of URLs

`AppTimeSample` and `UrlTimeSample` keep a sample of the current window in memory. A message within
the window is added to it; an earlier one is added to a row of its time, or becomes a row; a later
one turns the sample into a row and opens a new window. Times are microseconds.
-/

namespace Analyzer

variable {τ : Type}

/-- The database as far as its answers depend on more than the rows: how a time is written in a
query, and which of the rows that match comes first. -/
structure Database where
  shown : Int → Int
  first : List Nat → Option Nat
  mem_of_first : ∀ {rows : List Nat} {i : Nat}, first rows = some i → i ∈ rows

/-- The second of a time. -/
def second (wallTime : Int) : Int := wallTime / 10 ^ 6

/-- `Time#sec`: the second of the minute. -/
def sec (wallTime : Int) : Nat := (second wallTime % 60).toNat

/-- The rows with this property whose time is in the window that begins at `wallTime`. -/
def matching {ρ : Type} (db : Database) (rate wallTime : Int) (rows : List ρ) (own : ρ → Bool)
    (time : ρ → Int) : List Nat :=
  (List.range rows.length).filter fun i => rows[i]?.any fun row =>
    own row && db.shown wallTime ≤ db.shown (time row) &&
      db.shown (time row) ≤ db.shown (wallTime + rate)

theorem row_of_matching {ρ : Type} {db : Database} {rate wallTime : Int} {rows : List ρ}
    {own : ρ → Bool} {time : ρ → Int} {i : Nat}
    (found : db.first (matching db rate wallTime rows own time) = some i) :
    ∃ row, rows[i]? = some row ∧ own row = true := by
  obtain ⟨-, passes⟩ := List.mem_filter.mp (db.mem_of_first found)
  cases present : rows[i]? with
  | none =>
      rw [present, Option.any_none] at passes
      cases passes
  | some row =>
      rw [present, Option.any_some, Bool.and_eq_true, Bool.and_eq_true] at passes
      exact ⟨row, rfl, passes.1.1⟩

namespace AppTimeSample

/-- A sample of an application in memory: where its window begins, what its messages add up to, and
how many there were in each second of the minute. -/
structure Sample (τ : Type) where
  wallTime : Int
  totals : Totals τ
  perSecond : List Nat

/-- A row of `app_time_samples`. -/
structure Row (τ : Type) where
  appId : Nat
  totals : Totals τ
  wallTime : Int
  samplingRate : Int
  avgResponseTime : ℚ
  peakRequestsServed : Nat

/-- `application_samples`, and the table. -/
abbrev Store (τ : Type) : Type := Ledger Nat (Sample τ) (Row τ)

/-- The row that `create_sample` creates. -/
def createSample (appId : Nat) (totals : Totals τ) (perSecond : List Nat) (samplingRate : Int)
    (wallTime : Int) : Row τ :=
  let busy := perSecond.filter (· ≠ 0)
  { appId, totals, wallTime, samplingRate
    avgResponseTime := if 0 < busy.length then (busy.length * 1000) / (busy.sum : ℚ) else 0
    peakRequestsServed := perSecond.max?.getD 0 }

/-- The row of a sample in memory. -/
def sampleRow (rate : Int) (appId : Nat) (sample : Sample τ) : Row τ :=
  createSample appId sample.totals sample.perSecond rate (sample.wallTime + rate)

/-- A new window. -/
def opened (wallTime : Int) (totals : Totals τ) : Sample τ :=
  { wallTime, totals, perSecond := List.replicate 60 0 }

section Add

variable [AddCommMonoid τ]

/-- A message in the window of the sample. -/
def Sample.add (sample : Sample τ) (totals : Totals τ) (wallTime : Int) : Sample τ :=
  { sample with
    totals := sample.totals + totals
    perSecond := sample.perSecond.modify (sec wallTime) (· + 1) }

def Row.add (row : Row τ) (totals : Totals τ) : Row τ := { row with totals := row.totals + totals }

/-- `AppTimeSample.add_to_sample`. -/
def addToSample (db : Database) (rate : Int) (store : Store τ) (appId : Nat) (totals : Totals τ)
    (wallTime : Int) : Store τ :=
  match store.sample? appId with
  | none => store.keep appId (opened wallTime totals)
  | some sample =>
      if sample.wallTime ≤ wallTime ∧ wallTime ≤ sample.wallTime + rate then
        store.keep appId (sample.add totals wallTime)
      else if wallTime < sample.wallTime then
        match db.first (matching db rate wallTime store.rows (·.appId = appId) (·.wallTime)) with
        | some i => store.update i (·.add totals)
        | none => store.write (createSample appId totals [1] rate (wallTime + rate))
      else (store.write (sampleRow rate appId sample)).keep appId (opened wallTime totals)

end Add

/-- `AppTimeSample.write_stale_samples`. -/
def writeStaleSamples (rate : Int) (now : Nat → Int) (store : Store τ) : Store τ :=
  store.flush (fun appId sample => sample.wallTime + rate < now appId) (sampleRow rate)

/-- `AppTimeSample.write_all_samples`. -/
def writeAllSamples (rate : Int) (store : Store τ) : Store τ := store.writeAll (sampleRow rate)

end AppTimeSample

namespace UrlTimeSample

/-- A sample of a URL of an application in memory, with the time of each method. -/
structure Sample (τ : Type) where
  wallTime : Int
  totals : Totals τ
  breakup : Hash String τ

/-- A row of `url_time_samples`, and the rows of `url_breakup_time_samples` with its id: their
names differ, and their time is that of the row. -/
structure Row (τ : Type) where
  appId : Nat
  url : String
  totals : Totals τ
  wallTime : Int
  samplingRate : Int
  breakup : Hash String τ

/-- `url_samples`, by application and URL, and the tables. -/
abbrev Store (τ : Type) : Type := Ledger (Nat × String) (Sample τ) (Row τ)

/-- The row that `create_sample` creates, with those of the methods. -/
def createSample (key : Nat × String) (totals : Totals τ) (wallTime : Int) (samplingRate : Int)
    (breakup : Hash String τ) : Row τ :=
  { appId := key.1, url := key.2, totals, wallTime, samplingRate, breakup }

/-- The row of a sample in memory whose window is over. -/
def sampleRow (rate : Int) (key : Nat × String) (sample : Sample τ) : Row τ :=
  createSample key sample.totals (sample.wallTime + rate) rate sample.breakup

section Add

variable [AddCommMonoid τ]

/-- The times of a message are added to those of a sample. -/
def addBreakup (sample message : Hash String τ) : Hash String τ :=
  message.entries.foldl (fun hash pair =>
    match hash.get pair.1 with
    | some time => hash.set pair.1 (time + pair.2)
    | none => hash.set pair.1 pair.2) sample

/-- The times of a message are added to the rows of their methods; the remaining ones get rows of
their own. -/
def updateBreakup (rows message : Hash String τ) : Hash String τ where
  entries :=
    (rows.map fun name time => match message.get name with
      | some more => time + more
      | none => time).entries ++
      (message.filter fun name => name ∉ rows.keys).entries
  nodup := by
    rw [List.map_append]
    refine List.nodup_append.mpr ⟨Hash.nodup _, Hash.nodup _, ?_⟩
    intro name old name' new same
    rw [← same] at new
    obtain ⟨entry, kept, named⟩ := List.mem_map.mp new
    have other := of_decide_eq_true (List.mem_filter.mp kept).2
    rw [named] at other
    apply other
    simp only [Hash.map, List.map_map] at old
    exact old

/-- A message in the window of the sample. -/
def Sample.add (sample : Sample τ) (totals : Totals τ) (breakup : Hash String τ) : Sample τ :=
  { sample with
    totals := sample.totals + totals, breakup := addBreakup sample.breakup breakup }

def Row.add (row : Row τ) (totals : Totals τ) (breakup : Hash String τ) : Row τ :=
  { row with totals := row.totals + totals, breakup := updateBreakup row.breakup breakup }

/-- `UrlTimeSample.add_to_sample`. A window that is over becomes a row with the time of the message
that opens the next one. -/
def addToSample (db : Database) (rate : Int) (store : Store τ) (key : Nat × String)
    (totals : Totals τ) (breakup : Hash String τ) (wallTime : Int) : Store τ :=
  match store.sample? key with
  | none => store.keep key ⟨wallTime, totals, breakup⟩
  | some sample =>
      if sample.wallTime ≤ wallTime ∧ wallTime ≤ sample.wallTime + rate then
        store.keep key (sample.add totals breakup)
      else if wallTime < sample.wallTime then
        match db.first (matching db rate wallTime store.rows
            (fun row => (row.appId, row.url) = key) (·.wallTime)) with
        | some i => store.update i (·.add totals breakup)
        | none => store.write (createSample key totals (wallTime + rate) rate breakup)
      else
        (store.write (createSample key sample.totals wallTime rate sample.breakup)).keep key
          ⟨wallTime, totals, breakup⟩

end Add

/-- `UrlTimeSample.write_stale_samples`. -/
def writeStaleSamples (rate : Int) (now : Nat × String → Int) (store : Store τ) : Store τ :=
  store.flush (fun key sample => sample.wallTime + rate < now key) (sampleRow rate)

/-- `UrlTimeSample.write_all_samples`. -/
def writeAllSamples (rate : Int) (store : Store τ) : Store τ := store.writeAll (sampleRow rate)

end UrlTimeSample

end Analyzer
