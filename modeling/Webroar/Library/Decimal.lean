import Mathlib.Data.List.Basic
import Mathlib.Tactic.Linarith
import Mathlib.Tactic.IntervalCases

/-! # Decimal text and machine integers

Bytes of ASCII text, the decimal text of a machine integer as the C library prints and reads
it, and the wrap of a count to a 32-bit `int`. Digit strings are those of `Nat.toDigits`.
-/

/-- The bytes of an ASCII literal. -/
def ascii (text : String) : List UInt8 :=
  text.toList.map fun c => UInt8.ofNat c.toNat

namespace Decimal

/-- The byte is one of the ten ASCII digits. -/
def isDigit (byte : UInt8) : Bool := 48 ≤ byte && byte ≤ 57

/-- The decimal digits of a natural number, most significant first. -/
def ofNat (n : Nat) : List UInt8 :=
  (Nat.toDigits 10 n).map fun c => UInt8.ofNat c.toNat

/-- The decimal text of an integer, with a minus sign when it is negative. -/
def ofInt : Int → List UInt8
  | .ofNat n => ofNat n
  | .negSucc n => 45 :: ofNat (n + 1)

/-- The value a 32-bit `int` takes when it is read from the low half of a count. -/
def toInt32 (n : Int) : Int := n.bmod (2 ^ 32)

/-- `printf("%d")` of a count: its low 32 bits as a signed integer. -/
def format (n : Nat) : List UInt8 := ofInt (toInt32 n)

/-- The value of the digits at the front of a text, after `acc`. -/
def readDigits (acc : Nat) : List UInt8 → Nat
  | [] => acc
  | byte :: rest => if isDigit byte then readDigits (10 * acc + (byte.toNat - 48)) rest else acc

/-- The white space the C library skips. -/
def isSpace (byte : UInt8) : Bool := byte = 32 || (9 ≤ byte && byte ≤ 13)

/-- `strtol` in base ten: white space, a sign, digits, clamped to a 64-bit `long`. -/
def strtol (text : List UInt8) : Int :=
  match text.dropWhile isSpace with
  | 45 :: rest => max (-2 ^ 63) (-(readDigits 0 rest : Int))
  | 43 :: rest => min (2 ^ 63 - 1) (readDigits 0 rest : Int)
  | digits => min (2 ^ 63 - 1) (readDigits 0 digits : Int)

/-- `atoi`: the low 32 bits of `strtol`. -/
def atoi (text : List UInt8) : Int := toInt32 (strtol text)

/-- An `int` stored in a 64-bit `size_t`. -/
def toSize (n : Int) : Nat := (n % 2 ^ 64).toNat

/-- The `size_t` difference of two counts. -/
def sizeSub (left right : Nat) : Nat := (left + (2 ^ 64 - right)) % 2 ^ 64

/-- A character that is a digit is its byte. -/
theorem toNat_ofNat_of_isDigit {c : Char} (digit : c.isDigit = true) :
    (UInt8.ofNat c.toNat).toNat = c.toNat ∧ 48 ≤ c.toNat ∧ c.toNat ≤ 57 := by
  simp only [Char.isDigit, Bool.and_eq_true, decide_eq_true_eq, UInt32.le_iff_toNat_le] at digit
  have lower : 48 ≤ c.toNat := digit.1
  have upper : c.toNat ≤ 57 := digit.2
  refine ⟨?_, lower, upper⟩
  rw [UInt8.toNat_ofNat']
  omega

/-- The digits of a number are digits. -/
theorem isDigit_of_mem_ofNat {n : Nat} {byte : UInt8} (member : byte ∈ ofNat n) :
    isDigit byte = true := by
  obtain ⟨c, inside, rfl⟩ := List.mem_map.mp member
  have digit := Nat.isDigit_of_mem_toDigits (by decide) (by decide) inside
  obtain ⟨same, lower, upper⟩ := toNat_ofNat_of_isDigit digit
  simp only [isDigit, Bool.and_eq_true, decide_eq_true_eq, UInt8.le_iff_toNat_le, same]
  exact ⟨lower, upper⟩

theorem ofNat_ne_nil (n : Nat) : ofNat n ≠ [] := by
  simp [ofNat, Nat.toDigits_ne_nil]

/-- A number below `10 ^ k` has at most `k` digits. -/
theorem length_ofNat_le_iff {n k : Nat} (positive : 0 < k) :
    (ofNat n).length ≤ k ↔ n < 10 ^ k := by
  rw [ofNat, List.length_map]
  exact Nat.length_toDigits_le_iff (by decide) positive

theorem length_ofNat_le {n k : Nat} (positive : 0 < k) (bound : n < 10 ^ k) :
    (ofNat n).length ≤ k :=
  (length_ofNat_le_iff positive).mpr bound

theorem length_ofNat_pos (n : Nat) : 0 < (ofNat n).length :=
  List.length_pos_of_ne_nil (ofNat_ne_nil n)

/-- Reading the digits of a number gives the number. -/
theorem readDigits_ofNat (n : Nat) : readDigits 0 (ofNat n) = n := by
  have general : ∀ (digits : List Char) (acc : Nat), (∀ c ∈ digits, c.isDigit = true) →
      readDigits acc (digits.map fun c => UInt8.ofNat c.toNat) =
        Nat.ofDigitChars 10 digits acc := by
    intro digits
    induction digits with
    | nil => intro acc _; rfl
    | cons c rest ih =>
        intro acc all
        obtain ⟨same, lower, upper⟩ := toNat_ofNat_of_isDigit (all c List.mem_cons_self)
        have digit : isDigit (UInt8.ofNat c.toNat) = true := by
          simp only [isDigit, Bool.and_eq_true, decide_eq_true_eq, UInt8.le_iff_toNat_le, same]
          exact ⟨lower, upper⟩
        rw [List.map_cons, readDigits, if_pos digit, same, Nat.ofDigitChars_cons]
        exact ih _ fun d member => all d (List.mem_cons_of_mem c member)
  rw [ofNat, general _ 0 fun c member =>
    Nat.isDigit_of_mem_toDigits (by decide) (by decide) member]
  exact Nat.ofDigitChars_ten_toDigits

theorem toInt32_of_lt {n : Nat} (small : n < 2 ^ 31) : toInt32 n = n := by
  unfold toInt32
  rw [Int.bmod_eq_of_le] <;> omega

theorem toSize_natCast {n : Nat} (small : n < 2 ^ 64) : toSize n = n := by
  unfold toSize
  omega

theorem sizeSub_of_le {left right : Nat} (ordered : right ≤ left) (sized : left < 2 ^ 64) :
    sizeSub left right = left - right := by
  unfold sizeSub
  omega

theorem toSize_lt (n : Int) : toSize n < 2 ^ 64 := by
  unfold toSize
  omega

theorem toInt32_bounds (n : Int) : -2 ^ 31 ≤ toInt32 n ∧ toInt32 n < 2 ^ 31 := by
  unfold toInt32
  have lower := Int.le_bmod (x := n) (m := 2 ^ 32) (by decide)
  have upper := Int.bmod_lt (x := n) (m := 2 ^ 32) (by decide)
  omega

theorem toInt32_toInt32 (n : Int) : toInt32 (toInt32 n) = toInt32 n := by
  simp [toInt32]

/-- A count that fits an `int` prints as its digits. -/
theorem format_of_lt {n : Nat} (small : n < 2 ^ 31) : format n = ofNat n := by
  rw [format, toInt32_of_lt small]
  rfl

/-- A number is printed as it is just when it fits into an `int`. -/
theorem format_eq_ofNat_iff {n : Nat} : format n = ofNat n ↔ n < 2 ^ 31 := by
  refine ⟨fun same => ?_, format_of_lt⟩
  have bounds := toInt32_bounds n
  cases value : toInt32 n with
  | ofNat m =>
      rw [format, value] at same
      have equal := congrArg (readDigits 0) same
      rw [ofInt, readDigits_ofNat, readDigits_ofNat] at equal
      rw [value, equal] at bounds
      exact Int.ofNat_lt.mp bounds.2
  | negSucc m =>
      rw [format, value] at same
      have sign : (45 : UInt8) ∈ ofNat n := same ▸ List.mem_cons_self
      cases isDigit_of_mem_ofNat sign

/-- A printed count takes at most eleven bytes. -/
theorem length_format_le (n : Nat) : (format n).length ≤ 11 := by
  obtain ⟨lower, upper⟩ := toInt32_bounds n
  unfold format
  cases value : toInt32 n with
  | ofNat m =>
      rw [value] at upper
      have bound : m < 10 ^ 10 := by simp only [Int.ofNat_eq_natCast] at upper; omega
      exact (length_ofNat_le (by decide) bound).trans (by decide)
  | negSucc m =>
      rw [value] at lower
      have bound : m + 1 < 10 ^ 10 := by omega
      have digits := length_ofNat_le (by decide) bound
      simp only [ofInt, List.length_cons]
      omega

theorem length_format_pos (n : Nat) : 0 < (format n).length := by
  unfold format
  cases toInt32 n with
  | ofNat m => exact length_ofNat_pos m
  | negSucc m => simp [ofInt]

/-- A number is printed with digits and a minus sign. -/
theorem mem_ofInt {n : Int} {byte : UInt8} (member : byte ∈ ofInt n) :
    isDigit byte = true ∨ byte = 45 := by
  cases n with
  | ofNat m => exact Or.inl (isDigit_of_mem_ofNat member)
  | negSucc m =>
      rcases List.mem_cons.mp member with rfl | inside
      · exact Or.inr rfl
      · exact Or.inl (isDigit_of_mem_ofNat inside)

/-- A printed count contains neither NUL nor a comma. -/
theorem mem_format {n : Nat} {byte : UInt8} (member : byte ∈ format n) :
    isDigit byte = true ∨ byte = 45 := mem_ofInt member

/-- A count whose low 32 bits have the sign bit set prints with a minus sign. -/
theorem format_negative {n : Nat} (signed : 2 ^ 31 ≤ n % 2 ^ 32) :
    ∃ digits, format n = 45 :: digits := by
  have negative : toInt32 n < 0 := by
    unfold toInt32
    rw [Int.bmod_eq_emod]
    split <;> omega
  unfold format
  cases value : toInt32 n with
  | ofNat m => rw [value] at negative; simp only [Int.ofNat_eq_natCast] at negative; omega
  | negSucc m => exact ⟨ofNat (m + 1), rfl⟩

/-- No digit is white space or a sign. -/
theorem isDigit_plain {byte : UInt8} (digit : isDigit byte = true) :
    isSpace byte = false ∧ byte ≠ 45 ∧ byte ≠ 43 := by
  simp only [isDigit, Bool.and_eq_true, decide_eq_true_eq, UInt8.le_iff_toNat_le] at digit
  have lower : 48 ≤ byte.toNat := digit.1
  refine ⟨?_, ?_, ?_⟩
  · simp only [isSpace, Bool.or_eq_false_iff, Bool.and_eq_false_iff, decide_eq_false_iff_not,
      UInt8.le_iff_toNat_le, ← UInt8.toNat_inj, UInt8.toNat_ofNat]
    omega
  · rintro rfl
    exact absurd lower (by decide)
  · rintro rfl
    exact absurd lower (by decide)

/-- Reading digits starts at once. -/
theorem strtol_of_isDigit {byte : UInt8} {rest : List UInt8} (digit : isDigit byte = true) :
    strtol (byte :: rest) = min (2 ^ 63 - 1) (readDigits 0 (byte :: rest) : Int) := by
  obtain ⟨notSpace, notMinus, notPlus⟩ := isDigit_plain digit
  simp only [strtol, List.dropWhile_cons, notSpace, Bool.false_eq_true, ↓reduceIte]
  split
  · next equal => exact absurd (List.cons.inj equal).1 notMinus
  · next equal => exact absurd (List.cons.inj equal).1 notPlus
  · rfl

/-- A numeral: digits that spell a number, with or without zeros in front. -/
structure Numeral (text : List UInt8) (n : Nat) : Prop where
  nonempty : text ≠ []
  digits : ∀ byte ∈ text, isDigit byte = true
  value : readDigits 0 text = n

theorem numeral_ofNat (n : Nat) : Numeral (ofNat n) n :=
  ⟨ofNat_ne_nil n, fun _ member => isDigit_of_mem_ofNat member, readDigits_ofNat n⟩

/-- `atoi` of a numeral clamps its number to a `long` and cuts that to an `int`. -/
theorem Numeral.atoi {text : List UInt8} {n : Nat} (numeral : Numeral text n) :
    atoi text = toInt32 (min (2 ^ 63 - 1) n) := by
  obtain ⟨nonempty, digits, value⟩ := numeral
  cases text with
  | nil => exact absurd rfl nonempty
  | cons byte rest =>
      rw [Decimal.atoi, strtol_of_isDigit (digits byte List.mem_cons_self), value]

/-- `atoi` reads a number back from its digits when it fits an `int`. -/
theorem atoi_ofNat {n : Nat} (small : n < 2 ^ 31) : atoi (ofNat n) = n := by
  rw [(numeral_ofNat n).atoi, min_eq_right (by omega), toInt32_of_lt small]

/-- Reading digits ends at the first byte that is none. -/
theorem readDigits_stop (acc : Nat) (text rest : List UInt8) {byte : UInt8}
    (stop : isDigit byte = false) :
    readDigits acc (text ++ byte :: rest) = readDigits acc text := by
  induction text generalizing acc with
  | nil => simp only [List.nil_append, readDigits, stop, Bool.false_eq_true, ↓reduceIte]
  | cons first text ih =>
      rw [List.cons_append, readDigits, readDigits]
      split
      · exact ih _
      · rfl

/-- `atoi` reads a number in front of a byte that is no digit. -/
theorem atoi_ofNat_append {n : Nat} (small : n < 2 ^ 31) {byte : UInt8} (rest : List UInt8)
    (stop : isDigit byte = false) : atoi (ofNat n ++ byte :: rest) = n := by
  have value := readDigits_stop 0 (ofNat n) rest stop
  rw [readDigits_ofNat] at value
  cases text : ofNat n with
  | nil => exact absurd text (ofNat_ne_nil n)
  | cons first digits =>
      have digit : isDigit first = true :=
        isDigit_of_mem_ofNat (n := n) (text ▸ List.mem_cons_self)
      rw [text, List.cons_append] at value
      rw [List.cons_append, atoi, strtol_of_isDigit digit, value, min_eq_right (by omega),
        toInt32_of_lt small]

/-- What a `size_t` holds after `atoi` is the number of a numeral exactly when that fits an `int`,
or is the largest number that a `size_t` holds. -/
theorem Numeral.toSize_atoi_iff {text : List UInt8} {n : Nat} (numeral : Numeral text n) :
    toSize (Decimal.atoi text) = n ↔ n < 2 ^ 31 ∨ n = 2 ^ 64 - 1 := by
  rw [numeral.atoi]
  constructor
  · intro same
    by_contra other
    obtain ⟨wide, notLast⟩ := not_or.mp other
    obtain ⟨lower, upper⟩ := toInt32_bounds (min (2 ^ 63 - 1) n)
    -- A wide number is only hit by the wrap of a negative one, and the clamp leaves just -1.
    have clamped : min (2 ^ 63 - 1) (n : Int) = 2 ^ 63 - 1 := by
      unfold toSize at same
      omega
    have last : toInt32 (2 ^ 63 - 1) = -1 := by decide
    rw [clamped, last] at same
    exact notLast same.symm
  · rintro (small | rfl)
    · rw [min_eq_right (by omega), toInt32_of_lt small, toSize_natCast (by omega)]
    · decide

/-- `atoi` of a printed count is the count cut to an `int`. -/
theorem atoi_format (n : Nat) : atoi (format n) = toInt32 n := by
  obtain ⟨lower, upper⟩ := toInt32_bounds n
  rw [format]
  cases value : toInt32 n with
  | ofNat m =>
      rw [value] at upper
      exact atoi_ofNat (by simpa using upper)
  | negSucc m =>
      rw [value] at lower
      have read := readDigits_ofNat (m + 1)
      have parsed : strtol (45 :: ofNat (m + 1)) = Int.negSucc m := by
        simp only [strtol, List.dropWhile_cons]
        rw [show isSpace 45 = false from rfl]
        simp only [Bool.false_eq_true, ↓reduceIte, read]
        omega
      change toInt32 (strtol (45 :: ofNat (m + 1))) = _
      rw [parsed, ← value, toInt32_toInt32]

example : format (2 ^ 31) = ascii "-2147483648" := by decide

end Decimal
