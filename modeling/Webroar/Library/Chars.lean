import Mathlib

/-! # Texts and their bytes

A text is a list of characters, and its bytes are those of UTF-8. Where an ASCII character stands
can be seen in the bytes, so a text may be split and cut before or after it is encoded.
-/

namespace Chars

/-- The bytes of a text. -/
def utf8 (text : List Char) : List UInt8 := text.flatMap String.utf8EncodeChar

/-- The byte of an ASCII character. -/
def byte (c : Char) : UInt8 := UInt8.ofNat c.val.toNat

/-- An ASCII character. -/
def Ascii (c : Char) : Prop := c.val.toNat < 128

instance (c : Char) : Decidable (Ascii c) := inferInstanceAs (Decidable (_ < _))

/-! ### Characters -/

theorem toNat_byte {c : Char} (ascii : Ascii c) : (byte c).toNat = c.val.toNat := by
  unfold Ascii at ascii
  rw [byte, UInt8.toNat_ofNat']
  omega

theorem encode_ascii {c : Char} (ascii : Ascii c) : String.utf8EncodeChar c = [byte c] := by
  unfold Ascii at ascii
  have few : c.val.toNat ≤ 0x7f := by omega
  simp only [String.utf8EncodeChar, few, ↓reduceIte, byte]

/-- The bytes of other characters are not ASCII. -/
theorem le_of_mem_encode {c : Char} (other : ¬ Ascii c) {b : UInt8}
    (member : b ∈ String.utf8EncodeChar c) : 128 ≤ b.toNat := by
  unfold Ascii at other
  have many : ¬ c.val.toNat ≤ 0x7f := by omega
  simp only [String.utf8EncodeChar, many, ↓reduceIte] at member
  split_ifs at member
  all_goals
    simp only [List.mem_cons, List.not_mem_nil, or_false] at member
    rcases member with rfl | rfl | rfl | rfl <;> rw [UInt8.toNat_ofNat'] <;> omega

/-- An ASCII character is found by its byte. -/
theorem encode_cases {c : Char} (ascii : Ascii c) (d : Char) :
    (d = c ∧ String.utf8EncodeChar d = [byte c]) ∨
      (d ≠ c ∧ byte c ∉ String.utf8EncodeChar d ∧ String.utf8EncodeChar d ≠ []) := by
  by_cases same : d = c
  · subst same
    exact Or.inl ⟨rfl, encode_ascii ascii⟩
  · refine Or.inr ⟨same, fun member => ?_, String.utf8EncodeChar_ne_nil⟩
    by_cases also : Ascii d
    · rw [encode_ascii also, List.mem_singleton] at member
      have equal : c.val.toNat = d.val.toNat := by
        rw [← toNat_byte ascii, ← toNat_byte also, member]
      exact same (Char.ext (UInt32.toNat_inj.mp equal.symm))
    · have many := le_of_mem_encode also member
      rw [toNat_byte ascii] at many
      exact absurd ascii (Nat.not_lt_of_ge many)

/-! ### Splitting -/

/-- A part that is not empty takes two places at least. -/
theorem two_mul_filter_le {α : Type} (parts : List (List α)) :
    2 * (parts.filter (· ≠ [])).length ≤ (parts.map fun part => part.length + 1).sum := by
  induction parts with
  | nil => exact Nat.le_refl _
  | cons part parts ih =>
      rw [List.filter_cons, List.map_cons, List.sum_cons]
      cases part with
      | nil => exact Nat.le_trans ih (Nat.le_add_left _ _)
      | cons x part =>
          rw [if_pos (decide_eq_true (List.cons_ne_nil _ _)), List.length_cons, List.length_cons]
          omega

section Splitting

variable {α : Type} [DecidableEq α] {a : α}

theorem splitOn_cons (x : α) (text : List α) : (x :: text).splitOn a =
    if x = a then [] :: text.splitOn a else (text.splitOn a).modifyHead (x :: ·) := by
  rw [List.splitOn_cons_eq_if_modifyHead]
  by_cases same : x = a
  · rw [if_pos same, if_pos (beq_iff_eq.mpr same)]
  · rw [if_neg same, if_neg (fun equal => same (beq_iff_eq.mp equal))]

/-- What comes in front of the first separator goes to the first part. -/
theorem splitOn_append {front : List α} (absent : a ∉ front) (text : List α) :
    (front ++ text).splitOn a = (text.splitOn a).modifyHead (front ++ ·) := by
  induction front with
  | nil =>
      cases found : text.splitOn a with
      | nil => exact absurd found (List.splitOn_ne_nil a text)
      | cons first rest => exact found
  | cons x front ih =>
      have other : ¬ x = a := fun same => absent (same ▸ List.mem_cons_self)
      rw [List.cons_append, splitOn_cons, if_neg other,
        ih fun member => absent (List.mem_cons_of_mem _ member), List.modifyHead_modifyHead]
      rfl

/-- The first part stands in front, and a separator before each of the others. -/
theorem splitOn_places (text : List α) :
    (∀ first ∈ (text.splitOn a).head?, first <+: text) ∧
      ∀ part ∈ (text.splitOn a).tail, a :: part <:+: text := by
  induction text with
  | nil =>
      rw [List.splitOn_nil]
      refine ⟨?_, nofun⟩
      rintro first ⟨⟩
      exact List.prefix_refl _
  | cons x text ih =>
      obtain ⟨front, behind⟩ := ih
      rw [splitOn_cons]
      cases found : text.splitOn a with
      | nil => exact absurd found (List.splitOn_ne_nil a text)
      | cons first rest =>
          rw [found] at front behind
          have begins := front first rfl
          split_ifs with same
          · refine ⟨?_, fun part member => ?_⟩
            · rintro part ⟨⟩
              exact List.nil_prefix
            · rcases List.mem_cons.mp member with rfl | later
              · exact (List.cons_prefix_cons.mpr ⟨same.symm, begins⟩).isInfix
              · exact (behind part later).trans (List.suffix_cons x text).isInfix
          · refine ⟨?_, fun part member => ?_⟩
            · rintro part ⟨⟩
              exact List.cons_prefix_cons.mpr ⟨rfl, begins⟩
            · exact (behind part member).trans (List.suffix_cons x text).isInfix

/-- A part stands in front of the text or behind a separator. -/
theorem place_of_mem_splitOn {text part : List α} (member : part ∈ text.splitOn a) :
    part <+: text ∨ a :: part <:+: text := by
  obtain ⟨front, behind⟩ := @splitOn_places α _ a text
  cases found : text.splitOn a with
  | nil => exact absurd found (List.splitOn_ne_nil a text)
  | cons first rest =>
      rw [found] at member front behind
      rcases List.mem_cons.mp member with rfl | later
      · exact Or.inl (front _ rfl)
      · exact Or.inr (behind part later)

theorem not_mem_of_mem_splitOn {text part : List α} (member : part ∈ text.splitOn a) :
    a ∉ part := by
  induction text generalizing part with
  | nil =>
      obtain rfl := List.mem_singleton.mp (List.splitOn_nil a ▸ member)
      exact List.not_mem_nil
  | cons x text ih =>
      rw [splitOn_cons] at member
      cases found : text.splitOn a with
      | nil => exact absurd found (List.splitOn_ne_nil a text)
      | cons first rest =>
          rw [found] at member ih
          split_ifs at member with same
          · rcases List.mem_cons.mp member with rfl | later
            · exact List.not_mem_nil
            · exact ih later
          · rcases List.mem_cons.mp member with rfl | later
            · intro inside
              rcases List.mem_cons.mp inside with equal | inside
              · exact same equal.symm
              · exact ih List.mem_cons_self inside
            · exact ih (List.mem_cons_of_mem _ later)

/-- Between two separators in a row there is an empty part. -/
theorem nil_mem_splitOn {text : List α} (twice : [a, a] <:+: text) :
    [] ∈ (text.splitOn a).tail := by
  induction text with
  | nil => cases List.eq_nil_of_infix_nil twice
  | cons x text ih =>
      rw [splitOn_cons]
      rcases List.infix_cons_iff.mp twice with front | later
      · obtain ⟨rest, spelled⟩ := front
        cases spelled
        rw [if_pos rfl, List.tail_cons]
        change [] ∈ (a :: rest).splitOn a
        rw [splitOn_cons, if_pos rfl]
        exact List.mem_cons_self
      · have member := ih later
        split_ifs
        · exact List.mem_of_mem_tail member
        · rw [List.tail_modifyHead]
          exact member

/-- A part lies in one piece in the text, and has no separator. -/
theorem part_of_mem_splitOn {text part : List α} (member : part ∈ text.splitOn a) :
    part <:+: text ∧ a ∉ part := by
  refine ⟨?_, not_mem_of_mem_splitOn member⟩
  rcases place_of_mem_splitOn member with front | behind
  · exact front.isInfix
  · exact (List.suffix_cons a part).isInfix.trans behind

/-- What is no separator lies in a part. -/
theorem mem_splitOn_of_mem {text : List α} {x : α} (member : x ∈ text) (other : x ≠ a) :
    ∃ part ∈ text.splitOn a, x ∈ part := by
  induction text with
  | nil => cases member
  | cons y text ih =>
      rw [splitOn_cons]
      by_cases same : y = a
      · rw [if_pos same]
        have later := (List.mem_cons.mp member).resolve_left fun equal => other (equal.trans same)
        obtain ⟨part, listed, inside⟩ := ih later
        exact ⟨part, List.mem_cons_of_mem _ listed, inside⟩
      · rw [if_neg same]
        cases found : text.splitOn a with
        | nil => exact absurd found (List.splitOn_ne_nil a text)
        | cons first rest =>
            rw [List.modifyHead_cons]
            rcases List.mem_cons.mp member with rfl | later
            · exact ⟨_, List.mem_cons_self, List.mem_cons_self⟩
            · obtain ⟨part, listed, inside⟩ := ih later
              rw [found] at listed
              rcases List.mem_cons.mp listed with rfl | listed
              · exact ⟨_, List.mem_cons_self, List.mem_cons_of_mem y inside⟩
              · exact ⟨part, List.mem_cons_of_mem _ listed, inside⟩

/-- Every part is followed by a separator or the end. -/
theorem sum_splitOn (text : List α) :
    ((text.splitOn a).map fun part => part.length + 1).sum = text.length + 1 := by
  induction text with
  | nil => rfl
  | cons x text ih =>
      rw [splitOn_cons, List.length_cons]
      split_ifs
      · rw [List.map_cons, List.sum_cons, ih, List.length_nil]
        omega
      · cases found : text.splitOn a with
        | nil => exact absurd found (List.splitOn_ne_nil a text)
        | cons first rest =>
            rw [found, List.map_cons, List.sum_cons] at ih
            rw [List.modifyHead_cons, List.map_cons, List.sum_cons, List.length_cons]
            omega

/-- The parts of the front of a text are the fronts of its parts. -/
theorem splitOn_takeWhile {p : α → Bool} (goes : p a = true) (text : List α) :
    (text.takeWhile p).splitOn a <+: (text.splitOn a).map (·.takeWhile p) := by
  induction text with
  | nil => exact List.prefix_refl _
  | cons x text ih =>
      rw [splitOn_cons, List.takeWhile_cons]
      by_cases same : x = a
      · rw [if_pos same, if_pos (same ▸ goes), splitOn_cons, if_pos same, List.map_cons]
        exact List.cons_prefix_cons.mpr ⟨rfl, ih⟩
      · rw [if_neg same]
        cases found : text.splitOn a with
        | nil => exact absurd found (List.splitOn_ne_nil a text)
        | cons first rest =>
            rw [found] at ih
            rw [List.modifyHead_cons, List.map_cons, List.takeWhile_cons]
            by_cases going : p x = true
            · rw [if_pos going, if_pos going, splitOn_cons, if_neg same]
              cases before : (text.takeWhile p).splitOn a with
              | nil => exact absurd before (List.splitOn_ne_nil a _)
              | cons front later =>
                  rw [before, List.map_cons] at ih
                  obtain ⟨equal, also⟩ := List.cons_prefix_cons.mp ih
                  rw [List.modifyHead_cons, equal]
                  exact List.cons_prefix_cons.mpr ⟨rfl, also⟩
            · rw [if_neg going, if_neg going, List.splitOn_nil]
              exact List.cons_prefix_cons.mpr ⟨rfl, List.nil_prefix⟩

end Splitting

/-! ### Encoding -/

theorem utf8_cons (c : Char) (text : List Char) :
    utf8 (c :: text) = String.utf8EncodeChar c ++ utf8 text := List.flatMap_cons

theorem utf8_eq_nil {text : List Char} : utf8 text = [] ↔ text = [] := by
  cases text with
  | nil => exact iff_of_true rfl rfl
  | cons c text =>
      rw [utf8_cons, List.append_eq_nil_iff]
      exact iff_of_false (fun none => String.utf8EncodeChar_ne_nil none.1) (List.cons_ne_nil _ _)

variable {c : Char}

theorem mem_utf8 (ascii : Ascii c) {text : List Char} : byte c ∈ utf8 text ↔ c ∈ text := by
  induction text with
  | nil => exact iff_of_false List.not_mem_nil List.not_mem_nil
  | cons d text ih =>
      rw [utf8_cons, List.mem_append, ih, List.mem_cons]
      rcases encode_cases ascii d with ⟨rfl, one⟩ | ⟨other, absent, -⟩
      · rw [one]
        exact iff_of_true (Or.inl (List.mem_singleton_self _)) (Or.inl rfl)
      · exact or_congr (iff_of_false absent fun same => other same.symm) Iff.rfl

theorem splitOn_utf8 (ascii : Ascii c) (text : List Char) :
    (utf8 text).splitOn (byte c) = (text.splitOn c).map utf8 := by
  induction text with
  | nil => rfl
  | cons d text ih =>
      rw [utf8_cons, splitOn_cons]
      rcases encode_cases ascii d with ⟨rfl, one⟩ | ⟨other, absent, -⟩
      · rw [one, List.singleton_append, splitOn_cons, if_pos rfl, if_pos rfl, ih, List.map_cons]
        rfl
      · rw [if_neg other, splitOn_append absent, ih]
        cases found : text.splitOn c with
        | nil => exact absurd found (List.splitOn_ne_nil c text)
        | cons first rest =>
            rw [List.modifyHead_cons, List.map_cons, List.map_cons, List.modifyHead_cons, utf8_cons]

theorem takeWhile_utf8 (ascii : Ascii c) (text : List Char) :
    (utf8 text).takeWhile (· ≠ byte c) = utf8 (text.takeWhile (· ≠ c)) := by
  induction text with
  | nil => rfl
  | cons d text ih =>
      rw [utf8_cons, List.takeWhile_cons]
      rcases encode_cases ascii d with ⟨rfl, one⟩ | ⟨other, absent, -⟩
      · rw [one, List.singleton_append, List.takeWhile_cons]
        simp only [ne_eq, not_true_eq_false, decide_false, Bool.false_eq_true, ↓reduceIte]
        rfl
      · rw [if_pos (decide_eq_true other), utf8_cons, List.takeWhile_append_of_pos, ih]
        intro b member
        exact decide_eq_true fun same => absent (same ▸ member)

/-- A text of ASCII characters is as long as its bytes. -/
theorem utf8_eq_map {text : List Char} (all : ∀ c ∈ text, Ascii c) :
    utf8 text = text.map byte := by
  induction text with
  | nil => rfl
  | cons c text ih =>
      rw [utf8_cons, encode_ascii (all c List.mem_cons_self),
        ih fun d member => all d (List.mem_cons_of_mem c member)]
      rfl

/-- The ASCII character of a byte. -/
def ofByte (b : UInt8) : Char := Char.ofNat b.toNat

theorem ofByte_byte (ascii : Ascii c) : ofByte (byte c) = c := by
  rw [ofByte, toNat_byte ascii]
  exact Char.ofNat_toNat c

/-- ASCII characters can be had back from their bytes. -/
theorem map_ofByte_utf8 {text : List Char} (all : ∀ c ∈ text, Ascii c) :
    (utf8 text).map ofByte = text := by
  rw [utf8_eq_map all, List.map_map]
  refine (List.map_congr_left fun c member => ?_).trans (List.map_id text)
  exact ofByte_byte (all c member)

end Chars
