import Mathlib.Data.List.Basic
import Mathlib.Tactic.Cases
import Mathlib.Tactic.IntervalCases

/-! # Percent-encoding

A byte is written as itself or as a percent sign with two hexadecimal digits. Which bytes are
written the second way is up to the writer; the percent sign always is.
-/

namespace Percent

/-- The value of a hexadecimal digit, in upper or lower case. -/
def digitValue (c : UInt8) : Option Nat :=
  if 48 ≤ c ∧ c ≤ 57 then some (c.toNat - 48)
  else if 65 ≤ c ∧ c ≤ 70 then some (c.toNat - 55)
  else if 97 ≤ c ∧ c ≤ 102 then some (c.toNat - 87)
  else none

/-- The percent sign. -/
def sign : UInt8 := 37

/-- A byte with the two halves. -/
def ofDigits (high low : Nat) : UInt8 := UInt8.ofNat (16 * high + low)

/-- A text is written down by some bytes. -/
inductive Encodes : List UInt8 → List UInt8 → Prop where
  | nil : Encodes [] []
  | plain {c : UInt8} {coded text : List UInt8} (other : c ≠ sign) :
      Encodes coded text → Encodes (c :: coded) (c :: text)
  | escape {x y : UInt8} {high low : Nat} {coded text : List UInt8}
      (first : digitValue x = some high) (second : digitValue y = some low) :
      Encodes coded text → Encodes (sign :: x :: y :: coded) (ofDigits high low :: text)

/-- Behind every percent sign two hexadecimal digits follow. -/
def Escaped (coded : List UInt8) : Prop :=
  ∀ before rest, coded = before ++ sign :: rest →
    ∃ x y after, rest = x :: y :: after ∧ (digitValue x).isSome = true ∧
      (digitValue y).isSome = true

variable {coded text : List UInt8}

theorem digitValue_lt {c : UInt8} {value : Nat} (digit : digitValue c = some value) :
    value < 16 := by
  unfold digitValue at digit
  simp only [UInt8.le_iff_toNat_le] at digit
  split_ifs at digit with decimal upper lower
  · cases digit
    have most : c.toNat ≤ 57 := decimal.2
    omega
  · cases digit
    have most : c.toNat ≤ 70 := upper.2
    omega
  · cases digit
    have most : c.toNat ≤ 102 := lower.2
    omega

theorem digitValue_sign : digitValue sign = none := by decide

/-- A text is never longer than what is written. -/
theorem Encodes.length_le (encodes : Encodes coded text) : text.length ≤ coded.length := by
  induction encodes with
  | nil => exact Nat.le_refl 0
  | plain _ _ ih => exact Nat.succ_le_succ ih
  | escape _ _ _ ih =>
      simp only [List.length_cons]
      omega

/-- What stands for a text without NULs has none. -/
theorem Encodes.zero_not_mem (encodes : Encodes coded text) (plain : (0 : UInt8) ∉ text) :
    (0 : UInt8) ∉ coded := by
  induction encodes with
  | nil => exact List.not_mem_nil
  | plain _ _ ih =>
      simp only [List.mem_cons, not_or] at plain ⊢
      exact ⟨plain.1, ih plain.2⟩
  | escape first second _ ih =>
      simp only [List.mem_cons, not_or] at plain ⊢
      refine ⟨by decide, ?_, ?_, ih plain.2⟩
      · rintro rfl
        cases first
      · rintro rfl
        cases second

/-- What is written can be read in one way only. -/
theorem Encodes.unique (encodes : Encodes coded text) {other : List UInt8}
    (also : Encodes coded other) : text = other := by
  induction encodes generalizing other with
  | nil => cases also; rfl
  | plain different _ ih =>
      cases also with
      | plain _ rest => rw [ih rest]
      | escape => exact absurd rfl different
  | escape first second _ ih =>
      cases also with
      | plain different => exact absurd rfl different
      | escape first' second' rest =>
          cases first.symm.trans first'
          cases second.symm.trans second'
          rw [ih rest]

/-- What is left of a text with escapes when some bytes are cut off that are no escape's. -/
theorem Escaped.drop (escaped : Escaped coded) {before rest : List UInt8}
    (cut : coded = before ++ rest) : Escaped rest := by
  rintro first after rfl
  exact escaped (before ++ first) after (by rw [cut, List.append_assoc])

/-- Without a percent sign there are no escapes. -/
theorem Escaped.of_not_mem (plain : sign ∉ coded) : Escaped coded := by
  rintro before rest rfl
  exact absurd (List.mem_append_right _ List.mem_cons_self) plain

/-- Bytes with whole escapes write down a text. -/
theorem Escaped.encodes : ∀ {coded : List UInt8}, Escaped coded → ∃ text, Encodes coded text
  | [], _ => ⟨[], .nil⟩
  | c :: rest, escaped => by
      by_cases percent : c = sign
      · subst percent
        obtain ⟨x, y, after, rfl, first, second⟩ := escaped [] rest rfl
        obtain ⟨high, first⟩ := Option.isSome_iff_exists.mp first
        obtain ⟨low, second⟩ := Option.isSome_iff_exists.mp second
        have later : Escaped after := @Escaped.drop _ escaped [sign, x, y] after rfl
        obtain ⟨text, encodes⟩ := later.encodes
        exact ⟨_, .escape first second encodes⟩
      · have later : Escaped rest := @Escaped.drop _ escaped [c] rest rfl
        obtain ⟨text, encodes⟩ := later.encodes
        exact ⟨_, .plain percent encodes⟩

end Percent
