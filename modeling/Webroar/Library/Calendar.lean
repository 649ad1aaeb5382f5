import Mathlib.Algebra.Order.Group.Int
import Mathlib.Tactic.Cases
import Webroar.Library.Decimal

/-! # Times and dates

Seconds since the epoch, dates of the Gregorian calendar, and texts for dates. The functions are those
of the C library under their own names: `gmtime` and `timegm` between seconds and dates, `strftime`
and `strptime` between dates and texts, in the locale C.
-/

namespace Calendar

/-- `struct tm`: the month is counted from zero and the year from 1900. -/
structure Tm where
  sec : Int
  min : Int
  hour : Int
  mday : Int
  mon : Int
  year : Int
  wday : Int
deriving DecidableEq, Repr

/-! ### Days and dates -/

def isLeap (year : Int) : Bool := year % 4 = 0 && (year % 100 ≠ 0 || year % 400 = 0)

/-- The days of a year before a month. -/
def daysBeforeMonth (leap : Bool) (mon : Nat) : Nat :=
  [0, 31, 59, 90, 120, 151, 181, 212, 243, 273, 304, 334].getD mon 365 +
    if leap && 2 ≤ mon then 1 else 0

/-- The days from the first of January of the year 1 to that of another year. -/
def daysBeforeYear (year : Int) : Int :=
  365 * (year - 1) + (year - 1) / 4 - (year - 1) / 100 + (year - 1) / 400

/-- The first of January 1970. -/
def epoch : Int := 719162

/-- `timegm`. -/
def timegm (tm : Tm) : Int :=
  let year := tm.year + 1900
  (daysBeforeYear year + daysBeforeMonth (isLeap year) tm.mon.toNat + tm.mday - 1 - epoch) * 86400 +
    tm.hour * 3600 + tm.min * 60 + tm.sec

/-- The last month, up to a bound, that begins not later than a day of the year. -/
def monthFrom (leap : Bool) (yday : Nat) : Nat → Nat
  | 0 => 0
  | mon + 1 => if daysBeforeMonth leap (mon + 1) ≤ yday then mon + 1 else monthFrom leap yday mon

/-- The year of a day, counted from the first of January of the year 1, and the day in it. The days
are divided into spans of 400, 100, 4 and 1 years; the last span of 100 years among four and the last
year among four are one day longer. -/
def yearAndDay (day : Int) : Int × Int :=
  let era := day / 146097
  let inEra := day % 146097
  let century := min (inEra / 36524) 3
  let inCentury := inEra - century * 36524
  let four := inCentury / 1461
  let inFour := inCentury % 1461
  let one := min (inFour / 365) 3
  (era * 400 + century * 100 + four * 4 + one + 1, inFour - one * 365)

/-- `gmtime`. -/
def gmtime (time : Int) : Tm :=
  let day := time / 86400 + epoch
  let sec := time % 86400
  let year := (yearAndDay day).1
  let yday := (yearAndDay day).2
  let mon := monthFrom (isLeap year) yday.toNat 11
  { sec := sec % 60
    min := sec % 3600 / 60
    hour := sec / 3600
    mday := yday - daysBeforeMonth (isLeap year) mon + 1
    mon := mon
    year := year - 1900
    wday := (day + 1) % 7 }

/-- The days before a year by the spans it is made of. -/
theorem daysBeforeYear_spans {era century four one : Int} (c : 0 ≤ century ∧ century ≤ 3)
    (f : 0 ≤ four ∧ four ≤ 24) (o : 0 ≤ one ∧ one ≤ 3) :
    daysBeforeYear (era * 400 + century * 100 + four * 4 + one + 1) =
      era * 146097 + century * 36524 + four * 1461 + one * 365 := by
  have fourths : (era * 400 + century * 100 + four * 4 + one + 1 - 1) / 4 =
      era * 100 + century * 25 + four := by omega
  have hundredths : (era * 400 + century * 100 + four * 4 + one + 1 - 1) / 100 =
      era * 4 + century := by omega
  have eras : (era * 400 + century * 100 + four * 4 + one + 1 - 1) / 400 = era := by omega
  rw [daysBeforeYear, fourths, hundredths, eras]
  omega

/-- A year is a leap year when it is the last of four, but not the last of a hundred unless that is
the last of four hundred. -/
theorem isLeap_spans {era century four one : Int} (c : 0 ≤ century ∧ century ≤ 3)
    (f : 0 ≤ four ∧ four ≤ 24) (o : 0 ≤ one ∧ one ≤ 3) :
    isLeap (era * 400 + century * 100 + four * 4 + one + 1) = true ↔
      one = 3 ∧ (four = 24 → century = 3) := by
  unfold isLeap
  simp only [Bool.and_eq_true, Bool.or_eq_true, decide_eq_true_eq]
  omega

theorem yearAndDay_spec (day : Int) :
    daysBeforeYear (yearAndDay day).1 + (yearAndDay day).2 = day ∧
      (0 ≤ (yearAndDay day).2 ∧ (yearAndDay day).2 ≤ 365) ∧
      ((yearAndDay day).2 = 365 → isLeap (yearAndDay day).1 = true) := by
  have split : day / 146097 * 146097 + day % 146097 = day := by omega
  have era : 0 ≤ day % 146097 ∧ day % 146097 ≤ 146096 := by omega
  unfold yearAndDay
  dsimp only
  generalize day / 146097 = eras at split ⊢
  generalize day % 146097 = inEra at split era ⊢
  have century : 0 ≤ min (inEra / 36524) 3 ∧ min (inEra / 36524) 3 ≤ 3 := by omega
  have inCentury : 0 ≤ inEra - min (inEra / 36524) 3 * 36524 ∧
      inEra - min (inEra / 36524) 3 * 36524 ≤ 36524 ∧
      (inEra - min (inEra / 36524) 3 * 36524 = 36524 → min (inEra / 36524) 3 = 3) := by omega
  generalize min (inEra / 36524) 3 = centuries at century inCentury ⊢
  generalize rest : inEra - centuries * 36524 = inside at inCentury ⊢
  have four : 0 ≤ inside / 1461 ∧ inside / 1461 ≤ 24 := by omega
  have parts : inside / 1461 * 1461 + inside % 1461 = inside := by omega
  have inFour : 0 ≤ inside % 1461 ∧ inside % 1461 ≤ 1460 := by omega
  generalize inside / 1461 = fours at four parts ⊢
  generalize inside % 1461 = left at parts inFour ⊢
  have one : 0 ≤ min (left / 365) 3 ∧ min (left / 365) 3 ≤ 3 := by omega
  have within : 0 ≤ left - min (left / 365) 3 * 365 ∧ left - min (left / 365) 3 * 365 ≤ 365 ∧
      (left - min (left / 365) 3 * 365 = 365 → min (left / 365) 3 = 3 ∧ left = 1460) := by omega
  generalize min (left / 365) 3 = ones at one within ⊢
  rw [daysBeforeYear_spans century four one, isLeap_spans century four one]
  refine ⟨by omega, ⟨within.1, within.2.1⟩, fun last => ?_⟩
  obtain ⟨third, full⟩ := within.2.2 last
  exact ⟨third, fun final => inCentury.2.2 (by omega)⟩

/-- The month of a day of the year. -/
theorem monthFrom_spec : ∀ leap, ∀ yday < 366, (yday = 365 → leap = true) →
    monthFrom leap yday 11 ≤ 11 ∧ daysBeforeMonth leap (monthFrom leap yday 11) ≤ yday ∧
      yday < daysBeforeMonth leap (monthFrom leap yday 11) + 31 := by decide +kernel

/-- The parts of a date are in the ranges of a text for it. -/
structure Tm.Valid (tm : Tm) : Prop where
  sec : 0 ≤ tm.sec ∧ tm.sec ≤ 59
  min : 0 ≤ tm.min ∧ tm.min ≤ 59
  hour : 0 ≤ tm.hour ∧ tm.hour ≤ 23
  mday : 1 ≤ tm.mday ∧ tm.mday ≤ 31
  mon : 0 ≤ tm.mon ∧ tm.mon ≤ 11
  wday : 0 ≤ tm.wday ∧ tm.wday ≤ 6

theorem gmtime_valid (time : Int) : (gmtime time).Valid := by
  obtain ⟨-, range, last⟩ := yearAndDay_spec (time / 86400 + epoch)
  unfold gmtime
  dsimp only
  generalize (yearAndDay (time / 86400 + epoch)).1 = year at last ⊢
  generalize (yearAndDay (time / 86400 + epoch)).2 = yday at range last ⊢
  obtain ⟨few, before, within⟩ := monthFrom_spec (isLeap year) yday.toNat (by omega)
    fun full => last (by omega)
  exact ⟨by dsimp only; omega, by dsimp only; omega, by dsimp only; omega, by dsimp only; omega,
    by dsimp only; omega, by dsimp only; omega⟩

/-- `timegm` is the inverse of `gmtime`. -/
theorem timegm_gmtime (time : Int) : timegm (gmtime time) = time := by
  obtain ⟨day, range, last⟩ := yearAndDay_spec (time / 86400 + epoch)
  unfold gmtime timegm
  dsimp only
  generalize (yearAndDay (time / 86400 + epoch)).1 = year at day last ⊢
  generalize (yearAndDay (time / 86400 + epoch)).2 = yday at day range last ⊢
  rw [Int.toNat_natCast, Int.sub_add_cancel]
  generalize monthFrom (isLeap year) yday.toNat 11 = mon
  omega

end Calendar
