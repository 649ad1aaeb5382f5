import Mathlib.Data.List.Chain
import Webroar.Admin.Specification
import Webroar.Configurator.Acceptance

/-! # Host names of the admin panel

The admin panel looks at the labels of a host name one by one, the server at all of its bytes. What
the panel takes is in order for the server, too, but for the length of the first and the last label
and for the first character of the last label, which the panel does not look at.
-/

open Chars (utf8 byte Ascii)
open Configurator (isLabelByte hostName strtok strstr_eq_none length_dropWhile_le)

namespace ApplicationSpecification

/-- A character of a label: a letter, a digit, a hyphen or a wildcard. -/
def isLabel (c : Char) : Bool := isLdh c || c = '*'

/-- What follows is fine, unless it stands at the beginning of a label. -/
def Follows (first second : Char) : Prop :=
  first = '.' ∨ second = '.' ∨ isLabel second = true

/-- What the panel knows of a host name that it takes. -/
structure Shape (name : List Char) : Prop where
  length : name.length ≤ 253
  dots : ¬ ['.', '.'] <:+: name
  stars : ∀ pos, 2 ≤ pos → name[pos]? = some '*' → pos + 1 = name.length
  tilde : '*' ∈ name → name.head? = some '~'
  front : ∃ c d rest, name = c :: d :: rest ∧ (isAlnum c = true ∨ c = '~') ∧
    (isAlnum d = true ∨ d = '*')
  follows : name.IsChain Follows

/-! ### Characters and bytes -/

/-- A letter, a digit or one other character is none that is neither. -/
theorem ne_of_alnum {c d e : Char} (right : isAlnum c = true ∨ c = d) (no : isAlnum e = false)
    (other : e ≠ d) : c ≠ e := by
  rintro rfl
  rcases right with alnum | same
  · rw [no] at alnum
    cases alnum
  · exact other same

theorem ascii_of_isLabel {c : Char} (label : isLabel c = true) : Ascii c := by
  unfold isLabel isLdh isAlnum at label
  simp only [Bool.or_eq_true, Bool.and_eq_true, decide_eq_true_eq, Char.le_def,
    UInt32.le_iff_toNat_le] at label
  unfold Ascii
  rcases label with (((⟨-, most⟩ | ⟨-, most⟩) | ⟨-, most⟩) | rfl) | rfl
  · exact Nat.lt_of_le_of_lt most (by decide)
  · exact Nat.lt_of_le_of_lt most (by decide)
  · exact Nat.lt_of_le_of_lt most (by decide)
  · decide
  · decide

theorem isLabelByte_byte {c : Char} (ascii : Ascii c) : isLabelByte (byte c) = isLabel c := by
  have equal : ∀ d : Char, Ascii d → (byte c = byte d ↔ c = d) := by
    intro d also
    constructor
    · intro same
      refine Char.ext (UInt32.toNat_inj.mp ?_)
      rw [← Chars.toNat_byte ascii, ← Chars.toNat_byte also, same]
    · rintro rfl
      rfl
  have le : ∀ d : Char, Ascii d → (byte c ≤ byte d ↔ c ≤ d) ∧ (byte d ≤ byte c ↔ d ≤ c) := by
    intro d also
    simp only [UInt8.le_iff_toNat_le, Char.le_def, UInt32.le_iff_toNat_le,
      Chars.toNat_byte ascii, Chars.toNat_byte also, and_self]
  have bytes : (97 : UInt8) = byte 'a' ∧ (122 : UInt8) = byte 'z' ∧ (65 : UInt8) = byte 'A' ∧
      (90 : UInt8) = byte 'Z' ∧ (48 : UInt8) = byte '0' ∧ (57 : UInt8) = byte '9' ∧
      (45 : UInt8) = byte '-' ∧ (42 : UInt8) = byte '*' := by decide
  obtain ⟨a, z, A, Z, zero, nine, hyphen, star⟩ := bytes
  unfold isLabelByte isLabel isLdh isAlnum
  rw [a, z, A, Z, zero, nine, hyphen, star]
  simp only [(le 'a' (by decide)).2, (le 'z' (by decide)).1, (le 'A' (by decide)).2,
    (le 'Z' (by decide)).1, (le '0' (by decide)).2, (le '9' (by decide)).1,
    equal '-' (by decide), equal '*' (by decide)]

theorem toNat_lt_of_isLabelByte {b : UInt8} (label : isLabelByte b = true) : b.toNat < 128 := by
  unfold isLabelByte at label
  simp only [Bool.or_eq_true, Bool.and_eq_true, decide_eq_true_eq, UInt8.le_iff_toNat_le] at label
  rcases label with (((⟨-, most⟩ | ⟨-, most⟩) | ⟨-, most⟩) | rfl) | rfl
  · exact Nat.lt_of_le_of_lt most (by decide)
  · exact Nat.lt_of_le_of_lt most (by decide)
  · exact Nat.lt_of_le_of_lt most (by decide)
  · decide
  · decide

/-- A character is right by the first byte of its label. -/
theorem isLabel_of_head {c : Char} {rest : List Char}
    (begins : (utf8 (c :: rest)).head?.any isLabelByte = true) : isLabel c = true := by
  rw [Chars.utf8_cons] at begins
  by_cases ascii : Ascii c
  · rw [Chars.encode_ascii ascii, List.singleton_append, List.head?_cons, Option.any_some,
      isLabelByte_byte ascii] at begins
    exact begins
  · obtain ⟨b, others, filled⟩ := List.exists_cons_of_ne_nil (@String.utf8EncodeChar_ne_nil c)
    have member : b ∈ String.utf8EncodeChar c := filled ▸ List.mem_cons_self
    rw [filled, List.cons_append, List.head?_cons, Option.any_some] at begins
    exact absurd (toNat_lt_of_isLabelByte begins)
      (Nat.not_lt_of_ge (Chars.le_of_mem_encode ascii member))

/-- Characters that follow each other without a dot are right but for the first. -/
theorem isLabel_of_follows {first : Char} {rest : List Char}
    (follows : (first :: rest).IsChain Follows) (absent : '.' ∉ first :: rest) :
    ∀ c ∈ rest, isLabel c = true := by
  induction rest generalizing first with
  | nil => exact nofun
  | cons next rest ih =>
      obtain ⟨step, follows⟩ := List.isChain_cons_cons.mp follows
      have later : '.' ∉ next :: rest := fun member => absent (List.mem_cons_of_mem _ member)
      have right : isLabel next = true := by
        rcases step with dot | dot | right
        · exact absurd (dot ▸ List.mem_cons_self) absent
        · exact absurd (dot ▸ List.mem_cons_self) later
        · exact right
      exact List.forall_mem_cons.mpr ⟨right, ih follows later⟩

/-! ### Without the tilde -/

/-- The host name without the tilde in front. -/
def body (name : List Char) : List Char := if name.head? = some '~' then name.drop 1 else name

theorem byte_dot : (46 : UInt8) = byte '.' := by decide

/-- What `strtok` finds in the bytes. -/
theorem strtok_utf8 {separator : Char} (ascii : Ascii separator) (text : List Char) :
    strtok (utf8 text) (byte separator) = ((text.splitOn separator).filter (· ≠ [])).map utf8 := by
  unfold strtok
  rw [Chars.splitOn_utf8 ascii, List.filter_map]
  congr 2
  funext part
  simp only [Function.comp_apply, ne_eq, Chars.utf8_eq_nil]

variable {name : List Char}

theorem hostName_utf8 (some : name ≠ []) : hostName (utf8 name) = utf8 (body name) := by
  have tilde : (126 : UInt8) = byte '~' := by decide
  obtain ⟨c, rest, rfl⟩ := List.exists_cons_of_ne_nil some
  unfold hostName body
  rw [Chars.utf8_cons, tilde]
  rcases Chars.encode_cases (c := '~') (by decide) c with ⟨rfl, one⟩ | ⟨other, absent, filled⟩
  · rw [one]
    rfl
  · obtain ⟨first, others, shape⟩ := List.exists_cons_of_ne_nil filled
    rw [shape] at absent ⊢
    rw [List.cons_append, List.head?_cons, List.head?_cons, if_neg, if_neg, Chars.utf8_cons, shape,
      List.cons_append]
    · exact fun same => other (Option.some.inj same)
    · exact fun same => absent (Option.some.inj same ▸ List.mem_cons_self)

theorem Shape.ne_nil (shape : Shape name) : name ≠ [] := by
  obtain ⟨c, d, rest, rfl, -⟩ := shape.front
  exact List.cons_ne_nil _ _

theorem body_suffix (name : List Char) : body name <:+ name := by
  unfold body
  split_ifs
  · exact List.drop_suffix 1 name
  · exact List.suffix_refl name

theorem Shape.body_ne_nil (shape : Shape name) : body name ≠ [] := by
  obtain ⟨c, d, rest, rfl, -⟩ := shape.front
  unfold body
  split_ifs
  · exact List.cons_ne_nil _ _
  · exact List.cons_ne_nil _ _

/-- A wildcard is the first or the last byte that is checked. -/
theorem Shape.body_stars (shape : Shape name) {pos : Nat} (later : 1 ≤ pos)
    (star : (body name)[pos]? = some '*') : pos + 1 = (body name).length := by
  unfold body at star ⊢
  split_ifs at star ⊢ with tilde
  · rw [List.getElem?_drop] at star
    have last := shape.stars (1 + pos) (by omega) star
    rw [List.length_drop]
    omega
  · exact absurd (shape.tilde (List.mem_of_getElem? star)) tilde

/-- Labels are not many. -/
theorem Shape.body_labels (shape : Shape name) :
    (((body name).splitOn '.').filter (· ≠ [])).length ≤ 126 := by
  have short := shape.length
  obtain ⟨c, d, rest, rfl, first, second⟩ := shape.front
  rw [List.length_cons, List.length_cons] at short
  unfold body
  split_ifs with tilde
  · have most := Chars.two_mul_filter_le ((d :: rest).splitOn '.')
    rw [Chars.sum_splitOn, List.length_cons] at most
    rw [List.drop_succ_cons, List.drop_zero]
    omega
  · -- the first label has two characters
    have one : c ≠ '.' := ne_of_alnum first (by decide) (by decide)
    have two : d ≠ '.' := ne_of_alnum second (by decide) (by decide)
    have total := Chars.sum_splitOn (a := '.') rest
    rw [Chars.splitOn_cons, if_neg one, Chars.splitOn_cons, if_neg two]
    cases found : rest.splitOn '.' with
    | nil => exact absurd found (List.splitOn_ne_nil _ _)
    | cons label labels =>
        rw [found, List.map_cons, List.sum_cons] at total
        have most := Chars.two_mul_filter_le labels
        rw [List.modifyHead_cons, List.modifyHead_cons, List.filter_cons,
          if_pos (decide_eq_true (List.cons_ne_nil _ _)), List.length_cons]
        omega

/-- Labels that begin with the right bytes are right. -/
theorem Shape.body_good (shape : Shape name)
    (begins : ∀ label ∈ strtok (utf8 (body name)) 46, label.head?.any isLabelByte = true) :
    ∀ c ∈ body name, c = '.' ∨ isLabel c = true := by
  intro c member
  by_cases dot : c = '.'
  · exact Or.inl dot
  refine Or.inr ?_
  obtain ⟨part, listed, inside⟩ := Chars.mem_splitOn_of_mem member dot
  obtain ⟨infixes, absent⟩ := Chars.part_of_mem_splitOn listed
  have token : utf8 part ∈ strtok (utf8 (body name)) 46 := by
    rw [byte_dot, strtok_utf8 (by decide)]
    exact List.mem_map_of_mem (List.mem_filter.mpr
      ⟨listed, decide_eq_true (List.ne_nil_of_mem inside)⟩)
  have follows : part.IsChain Follows :=
    shape.follows.infix (infixes.trans (body_suffix name).isInfix)
  obtain ⟨first, rest, rfl⟩ := List.exists_cons_of_ne_nil (List.ne_nil_of_mem inside)
  -- the first character is right by its byte, the others follow no dot
  rcases List.mem_cons.mp inside with rfl | later
  · exact isLabel_of_head (begins _ token)
  · exact isLabel_of_follows follows absent c later

/-- The server takes a host name of the panel just when its labels are short and begin with the
right bytes. -/
theorem Shape.passes_iff (shape : Shape name) (stack : List UInt8) :
    Configurator.wrValidateAppHostName stack (hostName (utf8 name)) = none ↔
      ∀ label ∈ strtok (hostName (utf8 name)) 46,
        label.length ≤ 63 ∧ label.head?.any isLabelByte = true := by
  rw [hostName_utf8 shape.ne_nil, Configurator.passes_iff]
  constructor
  · rintro ⟨-, -, -, -, labels⟩ label listed
    obtain ⟨short, all⟩ := labels label listed
    have some : label ≠ [] := of_decide_eq_true (List.mem_filter.mp listed).2
    obtain ⟨b, rest, rfl⟩ := List.exists_cons_of_ne_nil some
    exact ⟨short, (Bool.and_eq_true_iff.mp all).1⟩
  · intro labels
    have good := shape.body_good fun label listed => (labels label listed).2
    have plain : ∀ c ∈ body name, Ascii c := by
      intro c member
      rcases good c member with rfl | label
      · decide
      · exact ascii_of_isLabel label
    have bytes := Chars.utf8_eq_map plain
    have length := (body_suffix name).length_le
    have short := shape.length
    refine ⟨?_, ?_, ?_, ?_, fun label listed => ⟨(labels label listed).1, ?_⟩⟩
    · rw [bytes, List.length_map]
      omega
    · refine strstr_eq_none fun found => shape.dots ?_
      have dots : (ascii "..").map Chars.ofByte = ['.', '.'] := by decide
      have there := found.map Chars.ofByte
      rw [dots, Chars.map_ofByte_utf8 plain] at there
      exact there.trans (body_suffix name).isInfix
    · have filled : utf8 (body name) ≠ [] := fun none =>
        shape.body_ne_nil (Chars.utf8_eq_nil.mp none)
      rw [if_neg filled]
      refine length_dropWhile_le fun pos found => ?_
      rw [bytes, ← List.map_drop] at found ⊢
      obtain ⟨c, there, same⟩ := Option.map_eq_some_iff.mp (List.getElem?_map.symm.trans found)
      rw [List.getElem?_drop] at there
      have star : Chars.ofByte 42 = '*' := by decide
      rw [← Chars.ofByte_byte (plain c (List.mem_of_getElem? there)), same, star] at there
      have ended := shape.body_stars (Nat.le_add_right 1 pos) there
      rw [List.length_map, List.length_drop]
      omega
    · rw [byte_dot, strtok_utf8 (by decide), List.length_map]
      exact shape.body_labels
    · rw [byte_dot, strtok_utf8 (by decide)] at listed
      obtain ⟨part, among, rfl⟩ := List.mem_map.mp listed
      obtain ⟨infixes, absent⟩ := Chars.part_of_mem_splitOn (List.mem_filter.mp among).1
      have right : ∀ c ∈ part, isLabel c = true := fun c member =>
        (good c (infixes.subset member)).resolve_left fun dot => absent (dot ▸ member)
      rw [Chars.utf8_eq_map fun c member => ascii_of_isLabel (right c member), List.all_map]
      refine List.all_eq_true.mpr fun c member => ?_
      exact (isLabelByte_byte (ascii_of_isLabel (right c member))).trans (right c member)

/-! ### What the panel checks -/

/-- Parts whose characters are right but for the first make up a right text. -/
theorem follows_of_parts {text : List Char}
    (parts : ∀ part ∈ text.splitOn '.', ∀ c ∈ part.tail, isLabel c = true) :
    text.IsChain Follows := by
  induction text with
  | nil => exact List.IsChain.nil
  | cons x text ih =>
      rw [Chars.splitOn_cons] at parts
      cases found : text.splitOn '.' with
      | nil => exact absurd found (List.splitOn_ne_nil _ _)
      | cons first rest =>
          rw [found] at parts ih
          split_ifs at parts with dot
          · exact List.isChain_cons.mpr ⟨fun y _ => Or.inl dot,
              ih fun part member => parts part (List.mem_cons_of_mem _ member)⟩
          · have whole : ∀ c ∈ first, isLabel c = true := parts _ List.mem_cons_self
            refine List.isChain_cons.mpr ⟨fun y next => ?_, ih fun part member => ?_⟩
            · by_cases also : y = '.'
              · exact Or.inr (Or.inl also)
              · obtain ⟨others, rfl⟩ := List.head?_eq_some_iff.mp next
                refine Or.inr (Or.inr (whole y ?_))
                rw [Chars.splitOn_cons, if_neg also] at found
                obtain ⟨label, labels, more⟩ := List.exists_cons_of_ne_nil
                  (List.splitOn_ne_nil '.' others)
                rw [more, List.modifyHead_cons] at found
                exact (List.cons.inj found).1 ▸ List.mem_cons_self
            · rcases List.mem_cons.mp member with rfl | later
              · exact fun c inside => whole c (List.mem_of_mem_tail inside)
              · exact parts part (List.mem_cons_of_mem _ later)

/-- What is found right in the labels: the first begins with a letter, a digit or a tilde, and a
letter, a digit or a wildcard follows, and all have the right characters but for the first one. -/
structure Checked (labels : List (List Char)) : Prop where
  front : ∃ c d rest, labels.head? = some (c :: d :: rest) ∧ (isAlnum c = true ∨ c = '~') ∧
    (isAlnum d = true ∨ d = '*')
  right : ∀ label ∈ labels, ∀ c ∈ label.tail, isLabel c = true

theorem isLabel_of_isLdh {c : Char} (ldh : isLdh c = true) : isLabel c = true := by
  rw [isLabel, ldh, Bool.true_or]

theorem isLabel_of_last {c : Char} (last : isAlnum c = true ∨ c = '*') : isLabel c = true := by
  unfold isLabel isLdh
  rcases last with alnum | star
  · rw [alnum, Bool.true_or, Bool.true_or]
  · rw [decide_eq_true star, Bool.or_true]

/-- What comes behind the first element is the last one or before it. -/
theorem mem_tail_ends {α : Type} {rest : List α} {first last x : α}
    (ended : (first :: rest).getLast? = some last) (member : x ∈ rest) :
    x ∈ rest.dropLast ∨ x = last := by
  have some := List.ne_nil_of_mem member
  rw [List.getLast?_cons, List.getLast?_eq_some_getLast some, Option.getD_some] at ended
  rw [← List.dropLast_append_getLast some, List.mem_append, List.mem_singleton,
    Option.some.inj ended] at member
  exact member

/-- A list is its first element, those between, and its last element. -/
theorem mem_ends {α : Type} {items : List α} {first last x : α} (head : items.head? = some first)
    (ended : items.getLast? = some last) (member : x ∈ items) :
    x = first ∨ x ∈ (items.drop 1).dropLast ∨ x = last := by
  obtain ⟨rest, rfl⟩ := List.head?_eq_some_iff.mp head
  exact (List.mem_cons.mp member).imp_right (mem_tail_ends ended)

theorem middleErrors_eq_nil_iff {label : List Char} :
    middleErrors label = [] ↔ label.length ≤ 63 ∧ label.all isLdh = true := by
  unfold middleErrors
  split_ifs with long ldh
  · exact iff_of_false not_false fun right => Nat.not_le_of_lt long right.1
  · exact iff_of_true rfl ⟨Nat.le_of_not_lt long, ldh⟩
  · exact iff_of_false not_false fun right => ldh right.2

/-- The last label, of which the first character is not looked at. -/
theorem isLabel_of_last_label {label : List Char} {e x : Char} (ends : label.getLast? = some e)
    (last : isAlnum e = true ∨ e = '*')
    (none : (label.drop 1).dropLast.filter (fun c => !(isAlnum c || c = '*')) = [])
    (inside : x ∈ label.tail) : isLabel x = true := by
  cases label with
  | nil => cases inside
  | cons first rest =>
      rcases mem_tail_ends ends inside with before | rfl
      · have right := List.filter_eq_nil_iff.mp none x before
        rw [Bool.not_eq_true, Bool.not_eq_false', Bool.or_eq_true, decide_eq_true_eq] at right
        exact isLabel_of_last right
      · exact isLabel_of_last last

/-- What the checks of the labels leave without an error. -/
theorem checked_of_checkLabels {labels : List (List Char)} {looked : Looked}
    (found : checkLabels labels = some looked) (fine : looked.errors = []) : Checked labels := by
  unfold checkLabels at found
  dsimp only at found
  split at found
  · next first last head ended =>
      have wrong : ∀ errors : List Wrong,
          some (Looked.mk (errors ++ [hostnameLdh]) false false) ≠ some looked := by
        rintro errors same
        obtain rfl := Option.some.inj same
        exact absurd (List.append_eq_nil_iff.mp fine).2 (List.cons_ne_nil _ _)
      have between : (labels.drop 1).dropLast.flatMap middleErrors = [] →
          ∀ label ∈ (labels.drop 1).dropLast, label.length ≤ 63 ∧ label.all isLdh = true :=
        fun none label member => middleErrors_eq_nil_iff.mp (List.flatMap_eq_nil_iff.mp none label member)
      split_ifs at found with bad
      · obtain rfl := Option.some.inj found
        obtain ⟨label, member, odd⟩ := List.any_eq_true.mp bad
        rw [(between fine label member).2, Bool.not_true, Bool.and_false] at odd
        cases odd
      · split at found
        · cases found
        · split_ifs at found
          exact absurd found (wrong _)
        · next c d rest =>
            split_ifs at found with one two others
            · exact absurd found (wrong _)
            · exact absurd found (wrong _)
            · exact absurd found (wrong _)
            split at found
            · cases found
            · next e ends =>
                split_ifs at found with three
                · exact absurd found (wrong _)
                obtain rfl := Option.some.inj found
                obtain ⟨middle, tail⟩ := List.append_eq_nil_iff.mp fine
                simp only [Bool.not_eq_true', Bool.not_eq_false, Bool.or_eq_true,
                  decide_eq_true_eq] at one two three others
                refine ⟨⟨c, d, rest, head, one, two⟩, fun label member x inside => ?_⟩
                rcases mem_ends head ended member with rfl | among | rfl
                · rcases List.mem_cons.mp inside with rfl | later
                  · exact isLabel_of_last two
                  · exact isLabel_of_isLdh (List.all_eq_true.mp others x later)
                · have all := (between middle label among).2
                  exact isLabel_of_isLdh
                    (List.all_eq_true.mp all x (List.mem_of_mem_tail inside))
                · exact isLabel_of_last_label ends three (List.map_eq_nil_iff.mp tail) inside
  · cases found

theorem split_prefix (separator : Char) (text : List Char) :
    split separator text <+: text.splitOn separator := List.rdropWhile_prefix _ _

/-- A part that is not empty is not dropped. -/
theorem mem_split {separator : Char} {text part : List Char}
    (listed : part ∈ text.splitOn separator) (some : part ≠ []) : part ∈ split separator text := by
  unfold split List.rdropWhile
  rw [List.mem_reverse]
  have member := List.mem_reverse.mpr listed
  rw [← List.takeWhile_append_dropWhile (p := (· = [])) (l := (text.splitOn separator).reverse),
    List.mem_append] at member
  refine member.resolve_left fun dropped => some ?_
  exact of_decide_eq_true (List.mem_takeWhile_imp (p := fun part => decide (part = [])) dropped)

theorem mem_splitOn_of_mem_lines {text line : List Char} (member : line ∈ lines text) :
    line ∈ text.splitOn '\n' := by
  unfold lines at member
  dsimp only at member
  split_ifs at member
  · exact List.dropLast_subset _ member
  · exact member

/-- A wildcard is not behind the second character unless it is the last. -/
theorem stars_of_index {token : List Char}
    (fine : ¬ ∃ pos ∈ index '*' 2 token, pos ≠ token.length - 1) {pos : Nat} (later : 2 ≤ pos)
    (star : token[pos]? = some '*') : pos + 1 = token.length := by
  obtain ⟨inside, here⟩ := List.getElem?_eq_some_iff.mp star
  have there : (token.drop 2)[pos - 2]? = some '*' := by
    rw [List.getElem?_drop]
    have same : 2 + (pos - 2) = pos := by omega
    rw [same, star]
  cases found : (token.drop 2).findIdx? (· = '*') with
  | none =>
      have none := List.findIdx?_eq_none_iff.mp found '*' (List.mem_of_getElem? there)
      exact absurd none (by decide)
  | some first =>
      have last : 2 + first = token.length - 1 := by
        by_contra other
        exact fine ⟨2 + first, by rw [index, found]; rfl, other⟩
      obtain ⟨short, -, before⟩ := List.findIdx?_eq_some_iff_getElem.mp found
      obtain ⟨bound, found⟩ := List.getElem?_eq_some_iff.mp there
      have behind : ¬ pos - 2 < first := by
        intro earlier
        exact before (pos - 2) earlier (decide_eq_true found)
      omega

/-- A token without an error passes the checks of the whole, and its labels are checked. -/
theorem checkToken_fine {token : List Char} {looked : Looked}
    (found : checkToken token = some looked) (fine : looked.errors = []) :
    token.length ≤ 253 ∧ ('*' ∈ token → ∃ line ∈ lines token, line.head? = some '~') ∧
      (¬ ∃ pos ∈ index '*' 2 token, pos ≠ token.length - 1) ∧ ¬ ['.', '.'] <:+: token ∧
      checkLabels (split '.' token) = some looked := by
  have wrong : ∀ (text : Wrong) (ends : Bool), some (Looked.mk [text] false ends) ≠ some looked := by
    rintro text ends same
    obtain rfl := Option.some.inj same
    exact absurd fine (List.cons_ne_nil _ _)
  unfold checkToken at found
  dsimp only at found
  split_ifs at found with long many slash tilde one two dots
  · exact absurd found (wrong _ _)
  · exact absurd found (wrong _ _)
  · exact absurd found (wrong _ _)
  · exact absurd found (wrong _ _)
  · exact absurd found (wrong _ _)
  · exact absurd found (wrong _ _)
  · exact absurd found (wrong _ _)
  · exact ⟨Nat.le_of_not_lt long, fun star => not_not.mp (not_and.mp tilde star), two, dots, found⟩

/-- What the panel finds no error in has the right shape. -/
theorem shape_of_checkToken {token : List Char} {looked : Looked}
    (found : checkToken token = some looked) (fine : looked.errors = []) : Shape token := by
  obtain ⟨short, tilde, stars, dots, found⟩ := checkToken_fine found fine
  obtain ⟨⟨c, d, rest, head, first, second⟩, right⟩ := checked_of_checkLabels found fine
  have follows : token.IsChain Follows := by
    refine follows_of_parts fun part listed x inside => ?_
    exact right part (mem_split listed (List.ne_nil_of_mem (List.mem_of_mem_tail inside))) x inside
  have front : ∃ rest, token = c :: d :: rest := by
    obtain ⟨labels, shape⟩ := List.head?_eq_some_iff.mp head
    obtain ⟨more, whole⟩ := split_prefix '.' token
    rw [shape, List.cons_append] at whole
    obtain ⟨behind, rfl⟩ := Chars.splitOn_places token |>.1 (c :: d :: rest) (by rw [← whole]; rfl)
    exact ⟨_, rfl⟩
  obtain ⟨rest, rfl⟩ := front
  refine ⟨short, dots, fun pos => stars_of_index stars, fun star => ?_,
    ⟨c, d, rest, rfl, first, second⟩, follows⟩
  -- only the first line can begin with a tilde
  obtain ⟨line, among, begins⟩ := tilde star
  obtain ⟨others, rfl⟩ := List.head?_eq_some_iff.mp begins
  rcases Chars.place_of_mem_splitOn (mem_splitOn_of_mem_lines among) with ⟨behind, whole⟩ | inside
  · rw [← whole]
    rfl
  · have step := (List.isChain_cons_cons.mp ( follows.infix inside)).1
    rcases step with dot | dot | label
    · exact absurd dot (by decide)
    · exact absurd dot (by decide)
    · exact absurd label (by decide)

/-- The checks of the labels do not end the loop. -/
theorem ends_checkLabels {labels : List (List Char)} {looked : Looked}
    (found : checkLabels labels = some looked) : looked.ends = false := by
  have same : ∀ (errors : List Wrong) (taken : Bool),
      some (Looked.mk errors taken false) = some looked → looked.ends = false := by
    rintro errors taken ⟨⟩
    rfl
  unfold checkLabels at found
  dsimp only at found
  split at found
  · split_ifs at found
    · exact same _ _ found
    · split at found
      · cases found
      · split_ifs at found
        exact same _ _ found
      · split_ifs at found
        · exact same _ _ found
        · exact same _ _ found
        · exact same _ _ found
        split at found
        · cases found
        · split_ifs at found
          · exact same _ _ found
          · exact same _ _ found
  · cases found

/-- Tokens without an error have the right shape. -/
theorem shape_of_checkTokens {tokens names : List (List Char)}
    (found : checkTokens tokens = some ([], names)) :
    ∀ token ∈ tokens, token ≠ [] → Shape token := by
  induction tokens generalizing names with
  | nil => exact nofun
  | cons token rest ih =>
      unfold checkTokens at found
      split_ifs at found with empty
      · exact List.forall_mem_cons.mpr ⟨fun some => absurd empty some, ih found⟩
      · cases checked : checkToken token with
        | none =>
            rw [checked] at found
            cases found
        | some looked =>
            rw [checked] at found
            dsimp only at found
            by_cases ends : looked.ends = true
            · rw [if_pos ends] at found
              have fine : looked.errors = [] := congrArg Prod.fst (Option.some.inj found)
              have goes := ends_checkLabels (checkToken_fine checked fine).2.2.2.2
              rw [ends] at goes
              cases goes
            · rw [if_neg ends] at found
              cases later : checkTokens rest with
              | none =>
                  rw [later] at found
                  cases found
              | some result =>
                  obtain ⟨errors, others⟩ := result
                  rw [later] at found
                  have none : looked.errors ++ errors = [] :=
                    congrArg Prod.fst (Option.some.inj found)
                  obtain ⟨fine, rfl⟩ := List.append_eq_nil_iff.mp none
                  exact List.forall_mem_cons.mpr
                    ⟨fun _ => shape_of_checkToken checked fine, ih later⟩

/-! ### What the server reads -/

/-- The front of a host name has the right shape, too, when it has two characters. -/
theorem Shape.front_of_prefix (shape : Shape name) {front : List Char} (before : front <+: name)
    (two : 2 ≤ front.length) : Shape front := by
  obtain ⟨c, d, rest, rfl, first, second⟩ := shape.front
  have length := before.length_le
  match front, before, two with
  | x :: y :: others, before, _ =>
      obtain ⟨rfl, next⟩ := List.cons_prefix_cons.mp before
      obtain ⟨rfl, last⟩ := List.cons_prefix_cons.mp next
      refine ⟨Nat.le_trans length shape.length, fun dots => shape.dots (dots.trans before.isInfix),
        fun pos later star => ?_, fun star => shape.tilde (before.subset star),
        ⟨_, _, others, rfl, first, second⟩, shape.follows.prefix before⟩
      have inside := (List.getElem?_eq_some_iff.mp star).1
      obtain ⟨behind, whole⟩ := before
      have there : (x :: y :: others ++ behind)[pos]? = some '*' :=
        (List.getElem?_append_left inside).trans star
      rw [whole] at there
      have ended := shape.stars pos later there
      omega

/-- What the server reads of a text with host names that are fine are such host names. -/
theorem shape_of_read {resolver : List Char}
    (shapes : ∀ token ∈ split ' ' resolver, token ≠ [] → Shape token) :
    ∀ host ∈ strtok (Configurator.cString (utf8 resolver)).1 32,
      ∃ name, host = utf8 name ∧ Shape name := by
  intro host listed
  have zero : byte '\x00' = 0 := by decide
  have blank : (32 : UInt8) = byte ' ' := by decide
  have read := Chars.takeWhile_utf8 (c := '\x00') (by decide) resolver
  rw [zero] at read
  have cut : (Configurator.cString (utf8 resolver)).1 =
      utf8 (resolver.takeWhile (· ≠ '\x00')) := read
  rw [cut, blank, strtok_utf8 (by decide)] at listed
  obtain ⟨part, among, rfl⟩ := List.mem_map.mp listed
  obtain ⟨among, some⟩ := List.mem_filter.mp among
  have filled : part ≠ [] := of_decide_eq_true some
  have fronts := Chars.splitOn_takeWhile (a := ' ') (p := (· ≠ '\x00')) (by decide) resolver
  obtain ⟨token, whole, rfl⟩ := List.mem_map.mp (fronts.subset among)
  refine ⟨_, rfl, ?_⟩
  have shape : Shape token := by
    refine shapes token (mem_split whole ?_) ?_
    · rintro rfl
      exact filled rfl
    · rintro rfl
      exact filled rfl
  refine shape.front_of_prefix (List.takeWhile_prefix _) ?_
  obtain ⟨c, d, rest, rfl, first, second⟩ := shape.front
  have one : c ≠ '\x00' := ne_of_alnum first (by decide) (by decide)
  have two : d ≠ '\x00' := ne_of_alnum second (by decide) (by decide)
  rw [List.takeWhile_cons, if_pos (decide_eq_true one), List.takeWhile_cons,
    if_pos (decide_eq_true two), List.length_cons, List.length_cons]
  omega

end ApplicationSpecification
