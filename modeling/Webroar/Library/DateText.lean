import Webroar.Library.Calendar

/-! # Texts for dates

Dates are written and read after a format, a text with conversions behind percent signs. Only the
conversions of HTTP dates are here.
-/

namespace Calendar

/-! ### Names -/

/-- Names in full and abbreviated, from the number zero on. -/
abbrev Names := List (List UInt8 × List UInt8)

def days : Names :=
  [("Sunday", "Sun"), ("Monday", "Mon"), ("Tuesday", "Tue"), ("Wednesday", "Wed"),
    ("Thursday", "Thu"), ("Friday", "Fri"), ("Saturday", "Sat")].map
    fun name => (ascii name.1, ascii name.2)

def months : Names :=
  [("January", "Jan"), ("February", "Feb"), ("March", "Mar"), ("April", "Apr"), ("May", "May"),
    ("June", "Jun"), ("July", "Jul"), ("August", "Aug"), ("September", "Sep"), ("October", "Oct"),
    ("November", "Nov"), ("December", "Dec")].map fun name => (ascii name.1, ascii name.2)

/-- A letter in lower case. -/
def lower (c : UInt8) : UInt8 := if 65 ≤ c ∧ c ≤ 90 then c + 32 else c

/-- What is left behind a name, in any case of the letters. -/
def skipName : List UInt8 → List UInt8 → Option (List UInt8)
  | [], input => some input
  | _ :: _, [] => none
  | c :: name, d :: input => if lower c = lower d then skipName name input else none

/-- The number of the name with which a text begins, and what is left. -/
def readName (number : Nat) : Names → List UInt8 → Option (Nat × List UInt8)
  | [], _ => none
  | (full, short) :: names, input =>
      match (skipName full input).or (skipName short input) with
      | some rest => some (number, rest)
      | none => readName (number + 1) names input

/-! ### Numbers -/

/-- A number below a hundred with two digits. -/
def twoDigits (n : Int) : List UInt8 :=
  [UInt8.ofNat (48 + n.toNat / 10), UInt8.ofNat (48 + n.toNat % 10)]

/-- A number of at most so many digits between two bounds, and what is left. -/
def readNumber (least most count : Nat) (input : List UInt8) : Option (Int × List UInt8) :=
  let digits := (input.take count).takeWhile Decimal.isDigit
  let number := Decimal.readDigits 0 digits
  if digits ≠ [] ∧ least ≤ number ∧ number ≤ most then some (number, input.drop digits.length)
  else none

/-! ### Formats -/

/-- A conversion of `strftime`; `gmtime` has set the zone. -/
def convert (tm : Tm) (c : UInt8) : List UInt8 :=
  if c = 97 then (days.getD tm.wday.toNat default).2
  else if c = 98 then (months.getD tm.mon.toNat default).2
  else if c = 100 then twoDigits tm.mday
  else if c = 89 then Decimal.ofInt (tm.year + 1900)
  else if c = 72 then twoDigits tm.hour
  else if c = 77 then twoDigits tm.min
  else if c = 83 then twoDigits tm.sec
  else if c = 90 then ascii "GMT"
  else [c]

/-- `strftime`. -/
def strftime (tm : Tm) : List UInt8 → List UInt8
  | [] => []
  | c :: format =>
      if c = 37 then
        match format with
        | [] => []
        | conversion :: format => convert tm conversion ++ strftime tm format
      else c :: strftime tm format

/-- A conversion of `strptime`: the date with a part changed, and what is left of the text. -/
def parse (tm : Tm) (c : UInt8) (input : List UInt8) : Option (Tm × List UInt8) :=
  if c = 65 then (readName 0 days input).map fun read => ({ tm with wday := read.1 }, read.2)
  else if c = 66 then (readName 0 months input).map fun read => ({ tm with mon := read.1 }, read.2)
  else if c = 100 then
    (readNumber 1 31 2 input).map fun read => ({ tm with mday := read.1 }, read.2)
  else if c = 89 then
    (readNumber 0 9999 4 input).map fun read => ({ tm with year := read.1 - 1900 }, read.2)
  else if c = 72 then
    (readNumber 0 23 2 input).map fun read => ({ tm with hour := read.1 }, read.2)
  else if c = 77 then (readNumber 0 59 2 input).map fun read => ({ tm with min := read.1 }, read.2)
  else if c = 83 then (readNumber 0 60 2 input).map fun read => ({ tm with sec := read.1 }, read.2)
  else none

/-- `strptime` into a date with some values. What is left of the text is not looked at. -/
def strptime : List UInt8 → List UInt8 → Tm → Option Tm
  | [], _, tm => some tm
  | c :: format, input, tm =>
      if c = 37 then
        match format with
        | [] => none
        | conversion :: format =>
            (parse tm conversion input).bind fun read => strptime format read.2 read.1
      else if Decimal.isSpace c then strptime format (input.dropWhile Decimal.isSpace) tm
      else
        match input with
        | [] => none
        | d :: input => if c = d then strptime format input tm else none

/-! ### What was written is read -/

theorem readNumber_eq {least most count number : Nat} {digits rest : List UInt8}
    (some : digits ≠ []) (all : ∀ c ∈ digits, Decimal.isDigit c = true)
    (few : digits.length ≤ count)
    (ends : digits.length = count ∨ ∃ c after, rest = c :: after ∧ Decimal.isDigit c = false)
    (value : Decimal.readDigits 0 digits = number) (bounds : least ≤ number ∧ number ≤ most) :
    readNumber least most count (digits ++ rest) = Option.some ((number : Int), rest) := by
  have front : ((digits ++ rest).take count).takeWhile Decimal.isDigit = digits := by
    rw [List.take_append, List.take_of_length_le few,
      List.takeWhile_append_of_pos all]
    rcases ends with exact | ⟨c, after, rfl, other⟩
    · rw [exact, Nat.sub_self, List.take_zero, List.takeWhile_nil, List.append_nil]
    · cases count - digits.length with
      | zero => rw [List.take_zero, List.takeWhile_nil, List.append_nil]
      | succ n =>
          rw [List.take_succ_cons, List.takeWhile_cons_of_neg (by rw [other]; exact nofun),
            List.append_nil]
  unfold readNumber
  rw [front]
  dsimp only
  rw [value, List.drop_left]
  exact if_pos ⟨some, bounds⟩

theorem twoDigits_spec : ∀ n : Nat, n < 100 →
    (∀ c ∈ twoDigits n, Decimal.isDigit c = true) ∧
      Decimal.readDigits 0 (twoDigits n) = n := by decide +kernel

/-- Two digits are read as the number. -/
theorem readNumber_twoDigits {least most : Nat} {n : Int} (range : least ≤ n ∧ n ≤ most)
    (small : most < 100) (rest : List UInt8) :
    readNumber least most 2 (twoDigits n ++ rest) = some (n, rest) := by
  obtain ⟨number, rfl⟩ := Int.eq_ofNat_of_zero_le (by omega : 0 ≤ n)
  obtain ⟨all, value⟩ := twoDigits_spec number (by omega)
  exact readNumber_eq (List.cons_ne_nil _ _) all (Nat.le_refl 2) (Or.inl rfl) value (by omega)

/-- A year of at most four digits is read, if a space follows. -/
theorem readNumber_year {year : Int} (range : 0 ≤ year ∧ year ≤ 9999) (rest : List UInt8) :
    readNumber 0 9999 4 (Decimal.ofInt year ++ 32 :: rest) = some (year, 32 :: rest) := by
  obtain ⟨number, rfl⟩ := Int.eq_ofNat_of_zero_le range.1
  exact readNumber_eq (Decimal.ofNat_ne_nil number) (fun _ => Decimal.isDigit_of_mem_ofNat)
    (Decimal.length_ofNat_le (by decide) (by omega)) (Or.inr ⟨32, rest, rfl, rfl⟩)
    (Decimal.readDigits_ofNat number) (by omega)

/-- An abbreviated day is read, if a comma follows. -/
theorem readName_day {n : Nat} (few : n ≤ 6) (rest : List UInt8) :
    readName 0 days ((days.getD n default).2 ++ 44 :: rest) = some (n, 44 :: rest) := by
  interval_cases n <;> rfl

/-- An abbreviated month is read, if a space follows. -/
theorem readName_month {n : Nat} (few : n ≤ 11) (rest : List UInt8) :
    readName 0 months ((months.getD n default).2 ++ 32 :: rest) = some (n, 32 :: rest) := by
  interval_cases n <;> rfl

/-! ### HTTP dates -/

/-- The format HTTP dates are written in. -/
def httpFormat : List UInt8 := ascii "%a, %d %b %Y %H:%M:%S %Z"

/-- The format HTTP dates are read in. -/
def httpParse : List UInt8 := ascii "%A, %d %B %Y %H:%M:%S"

theorem httpParse_eq : httpParse =
    [37, 65, 44, 32, 37, 100, 32, 37, 66, 32, 37, 89, 32, 37, 72, 58, 37, 77, 58, 37, 83] := by
  decide +kernel

theorem httpFormat_eq : httpFormat =
    [37, 97, 44, 32, 37, 100, 32, 37, 98, 32, 37, 89, 32, 37, 72, 58, 37, 77, 58, 37, 83, 32, 37,
      90] := by
  decide +kernel

theorem strftime_httpFormat (tm : Tm) : strftime tm httpFormat =
    (days.getD tm.wday.toNat default).2 ++ 44 :: 32 :: (twoDigits tm.mday ++ 32 ::
      ((months.getD tm.mon.toNat default).2 ++ 32 :: (Decimal.ofInt (tm.year + 1900) ++ 32 ::
        (twoDigits tm.hour ++ 58 :: (twoDigits tm.min ++ 58 :: (twoDigits tm.sec ++ 32 ::
          ascii "GMT")))))) := by
  rw [httpFormat_eq]
  rfl

theorem day_name : ∀ n ≤ 6, (13 : UInt8) ∉ (days.getD n default).2 ∧
    ((days.getD n default).2.head?.any fun c => decide (65 ≤ c)) = true := by decide +kernel

theorem month_name : ∀ n ≤ 11, (13 : UInt8) ∉ (months.getD n default).2 := by decide +kernel

/-- A date is on one line. -/
theorem not_mem_strftime {tm : Tm} (valid : tm.Valid) : (13 : UInt8) ∉ strftime tm httpFormat := by
  have two : ∀ {n : Int}, 0 ≤ n → n < 100 → (13 : UInt8) ∉ twoDigits n := by
    intro n least most member
    obtain ⟨number, rfl⟩ := Int.eq_ofNat_of_zero_le least
    cases (twoDigits_spec number (by omega)).1 13 member
  have year : (13 : UInt8) ∉ Decimal.ofInt (tm.year + 1900) := by
    intro member
    rcases Decimal.mem_ofInt member with digit | sign
    · cases digit
    · cases sign
  have zone : (13 : UInt8) ∉ ascii "GMT" := by decide +kernel
  obtain ⟨⟨sec, sec'⟩, ⟨min, min'⟩, ⟨hour, hour'⟩, ⟨mday, mday'⟩, ⟨mon, mon'⟩, ⟨wday, wday'⟩⟩ := valid
  have dayName := (day_name tm.wday.toNat (by omega)).1
  have monthName := month_name tm.mon.toNat (by omega)
  have day : (13 : UInt8) ∉ twoDigits tm.mday := two (by omega) (by omega)
  have hours : (13 : UInt8) ∉ twoDigits tm.hour := two hour (by omega)
  have minutes : (13 : UInt8) ∉ twoDigits tm.min := two min (by omega)
  have seconds : (13 : UInt8) ∉ twoDigits tm.sec := two sec (by omega)
  rw [strftime_httpFormat]
  simp only [List.mem_append, List.mem_cons, not_or]
  exact ⟨dayName, by decide, by decide, day, by decide, monthName, by decide, year, by decide, hours,
    by decide, minutes, by decide, seconds, by decide, zone⟩

/-- A date begins with a letter. -/
theorem head_strftime {tm : Tm} (valid : tm.Valid) :
    ∃ c rest, strftime tm httpFormat = c :: rest ∧ 65 ≤ c := by
  obtain ⟨-, letter⟩ := day_name tm.wday.toNat (by have := valid.wday; omega)
  rw [strftime_httpFormat]
  generalize (days.getD tm.wday.toNat default).2 = name at letter
  cases name with
  | nil => cases letter
  | cons c name => exact ⟨c, _, rfl, of_decide_eq_true letter⟩

theorem strptime_conversion (conversion : UInt8) (format input : List UInt8) (tm : Tm) :
    strptime (37 :: conversion :: format) input tm =
      (parse tm conversion input).bind fun read => strptime format read.2 read.1 := rfl

theorem strptime_literal {c : UInt8} (plain : c ≠ 37) (visible : Decimal.isSpace c = false)
    (format input : List UInt8) (tm : Tm) :
    strptime (c :: format) (c :: input) tm = strptime format input tm := by
  rw [strptime.eq_def]
  dsimp only
  rw [if_neg plain, if_neg (by rw [visible]; exact nofun), if_pos rfl]

/-- A space in the format takes the space in front of a text. -/
theorem strptime_space {text : List UInt8} (some : text ≠ [])
    (visible : ∀ c ∈ text, Decimal.isSpace c = false) (format rest : List UInt8) (tm : Tm) :
    strptime (32 :: format) (32 :: (text ++ rest)) tm = strptime format (text ++ rest) tm := by
  obtain ⟨c, text, rfl⟩ := List.exists_cons_of_ne_nil some
  have dark := visible c List.mem_cons_self
  rw [strptime.eq_def]
  dsimp only
  rw [if_neg (by decide), if_pos (by decide), List.dropWhile_cons_of_pos (by decide),
    List.cons_append, List.dropWhile_cons_of_neg (by rw [dark]; exact nofun)]

theorem not_isSpace_of_isDigit {c : UInt8} (digit : Decimal.isDigit c = true) :
    Decimal.isSpace c = false := by
  unfold Decimal.isDigit at digit
  unfold Decimal.isSpace
  simp only [Bool.and_eq_true, decide_eq_true_eq, UInt8.le_iff_toNat_le] at digit
  have least : 48 ≤ c.toNat := digit.1
  simp only [Bool.or_eq_false_iff, Bool.and_eq_false_iff, decide_eq_false_iff_not,
    UInt8.le_iff_toNat_le, ← UInt8.toNat_inj]
  have exact : (32 : UInt8).toNat = 32 ∧ (9 : UInt8).toNat = 9 ∧ (13 : UInt8).toNat = 13 :=
    ⟨rfl, rfl, rfl⟩
  omega

theorem not_isSpace_month : ∀ n ≤ 11, (months.getD n default).2 ≠ [] ∧
    ∀ c ∈ (months.getD n default).2, Decimal.isSpace c = false := by decide +kernel

/-- An HTTP date is read as it was written, up to the year 9999. -/
theorem strptime_strftime {tm : Tm} (valid : tm.Valid) (century : 0 ≤ tm.year + 1900)
    (short : tm.year + 1900 ≤ 9999) (memory : Tm) :
    strptime httpParse (strftime tm httpFormat) memory = some tm := by
  have two : ∀ {n : Int}, 0 ≤ n → n < 100 →
      twoDigits n ≠ [] ∧ ∀ c ∈ twoDigits n, Decimal.isSpace c = false := by
    intro n least most
    obtain ⟨number, rfl⟩ := Int.eq_ofNat_of_zero_le least
    exact ⟨List.cons_ne_nil _ _, fun c member =>
      not_isSpace_of_isDigit ((twoDigits_spec number (by omega)).1 c member)⟩
  have year : Decimal.ofInt (tm.year + 1900) ≠ [] ∧
      ∀ c ∈ Decimal.ofInt (tm.year + 1900), Decimal.isSpace c = false := by
    obtain ⟨number, same⟩ := Int.eq_ofNat_of_zero_le century
    rw [same]
    exact ⟨Decimal.ofNat_ne_nil number, fun c member =>
      not_isSpace_of_isDigit (Decimal.isDigit_of_mem_ofNat member)⟩
  obtain ⟨⟨sec, sec'⟩, ⟨min, min'⟩, ⟨hour, hour'⟩, ⟨mday, mday'⟩, ⟨mon, mon'⟩, ⟨wday, wday'⟩⟩ := valid
  obtain ⟨someMon, visibleMon⟩ := not_isSpace_month tm.mon.toNat (by omega)
  obtain ⟨someDay, visibleDay⟩ := two (n := tm.mday) (by omega) (by omega)
  obtain ⟨someHour, visibleHour⟩ := two hour (by omega)
  have readDay := readName_day (n := tm.wday.toNat) (by omega)
  have readMonth := readName_month (n := tm.mon.toNat) (by omega)
  rw [httpParse_eq, strftime_httpFormat]
  have dayName : ∀ (memory : Tm) (rest : List UInt8),
      parse memory 65 ((days.getD tm.wday.toNat default).2 ++ 44 :: rest) =
        some ({ memory with wday := tm.wday }, 44 :: rest) := by
    intro memory rest
    rw [parse, if_pos rfl, readDay, Option.map_some, Int.toNat_of_nonneg wday]
  have day : ∀ (memory : Tm) (rest : List UInt8), parse memory 100 (twoDigits tm.mday ++ rest) =
      some ({ memory with mday := tm.mday }, rest) := by
    intro memory rest
    rw [parse, if_neg (by decide), if_neg (by decide), if_pos rfl,
      readNumber_twoDigits ⟨mday, mday'⟩ (by decide)]
    rfl
  have monthName : ∀ (memory : Tm) (rest : List UInt8),
      parse memory 66 ((months.getD tm.mon.toNat default).2 ++ 32 :: rest) =
        some ({ memory with mon := tm.mon }, 32 :: rest) := by
    intro memory rest
    rw [parse, if_neg (by decide), if_pos rfl, readMonth, Option.map_some,
      Int.toNat_of_nonneg mon]
  have years : ∀ (memory : Tm) (rest : List UInt8),
      parse memory 89 (Decimal.ofInt (tm.year + 1900) ++ 32 :: rest) =
        some ({ memory with year := tm.year }, 32 :: rest) := by
    intro memory rest
    rw [parse, if_neg (by decide), if_neg (by decide), if_neg (by decide), if_pos rfl,
      readNumber_year ⟨century, short⟩, Option.map_some, Int.add_sub_cancel]
  have hours : ∀ (memory : Tm) (rest : List UInt8), parse memory 72 (twoDigits tm.hour ++ rest) =
      some ({ memory with hour := tm.hour }, rest) := by
    intro memory rest
    rw [parse, if_neg (by decide), if_neg (by decide), if_neg (by decide), if_neg (by decide),
      if_pos rfl, readNumber_twoDigits ⟨hour, hour'⟩ (by decide)]
    rfl
  have minutes : ∀ (memory : Tm) (rest : List UInt8), parse memory 77 (twoDigits tm.min ++ rest) =
      some ({ memory with min := tm.min }, rest) := by
    intro memory rest
    rw [parse, if_neg (by decide), if_neg (by decide), if_neg (by decide), if_neg (by decide),
      if_neg (by decide), if_pos rfl, readNumber_twoDigits ⟨min, min'⟩ (by decide)]
    rfl
  have seconds : ∀ (memory : Tm) (rest : List UInt8), parse memory 83 (twoDigits tm.sec ++ rest) =
      some ({ memory with sec := tm.sec }, rest) := by
    intro memory rest
    rw [parse, if_neg (by decide), if_neg (by decide), if_neg (by decide), if_neg (by decide),
      if_neg (by decide), if_neg (by decide), if_pos rfl,
      readNumber_twoDigits ⟨sec, by omega⟩ (by decide)]
    rfl
  have comma : (44 : UInt8) ≠ 37 ∧ Decimal.isSpace 44 = false := by decide
  have colon : (58 : UInt8) ≠ 37 ∧ Decimal.isSpace 58 = false := by decide
  rw [strptime_conversion, dayName, Option.bind_some, strptime_literal comma.1 comma.2,
    strptime_space someDay visibleDay, strptime_conversion, day, Option.bind_some,
    strptime_space someMon visibleMon, strptime_conversion, monthName, Option.bind_some,
    strptime_space year.1 year.2, strptime_conversion, years, Option.bind_some,
    strptime_space someHour visibleHour, strptime_conversion, hours, Option.bind_some,
    strptime_literal colon.1 colon.2, strptime_conversion, minutes, Option.bind_some,
    strptime_literal colon.1 colon.2, strptime_conversion, seconds, Option.bind_some]
  rfl

end Calendar
