import Mathlib.Algebra.Order.Group.Nat
import Mathlib.Data.List.Pairwise
import Mathlib.Tactic.Cases

/-! # Numbers in the fields of a structure

A memory of bytes, little-endian numbers of some width in it, and the offsets the fields of a
structure have. A number that is stored wider than its field runs over the fields behind it: if it
is small they become zero. A sequence of such stores leaves every field with its own number just
when each field that is run over is stored itself afterwards.
-/

/-- The bytes of an object. -/
abbrev Memory := Nat → UInt8

namespace Memory

/-- The little-endian number in the `size` bytes from `offset` on. -/
def load (memory : Memory) (offset : Nat) : Nat → Nat
  | 0 => 0
  | size + 1 => (memory offset).toNat + 256 * load memory (offset + 1) size

/-- Put the low `size` bytes of a number at an offset. -/
def store (memory : Memory) (offset size value : Nat) : Memory := fun i =>
  if offset ≤ i ∧ i < offset + size then UInt8.ofNat (value / 256 ^ (i - offset)) else memory i

variable {memory : Memory} {offset other size wide value : Nat}

/-- What is loaded from inside of what was stored. -/
theorem load_store_inside (skip : Nat) (inside : skip + size ≤ wide) :
    load (store memory offset wide value) (offset + skip) size =
      value / 256 ^ skip % 256 ^ size := by
  induction size generalizing skip with
  | zero => rw [load, Nat.pow_zero, Nat.mod_one]
  | succ size ih =>
      have byte : (store memory offset wide value (offset + skip)).toNat =
          value / 256 ^ skip % 256 := by
        rw [store, if_pos (by omega), Nat.add_sub_cancel_left]
        exact UInt8.toNat_ofNat'
      have rest := ih (skip + 1) (by omega)
      have width : 256 ^ (size + 1) = 256 * 256 ^ size := Nat.pow_succ'
      rw [load, byte, Nat.add_assoc, rest, width, Nat.mod_mul, Nat.div_div_eq_div_mul,
        Nat.pow_succ]

theorem load_lt (memory : Memory) (offset size : Nat) : load memory offset size < 256 ^ size := by
  induction size generalizing offset with
  | zero => exact Nat.one_pos
  | succ size ih =>
      have byte := (memory offset).toNat_lt
      have rest := ih (offset + 1)
      rw [load, Nat.pow_succ]
      omega

/-- What is loaded from elsewhere. -/
theorem load_store_apart (apart : other + size ≤ offset ∨ offset + wide ≤ other) :
    load (store memory offset wide value) other size = load memory other size := by
  induction size generalizing other with
  | zero => rfl
  | succ size ih =>
      rw [load, load, ih (by omega), store, if_neg (by omega)]

theorem load_store_self (small : value < 256 ^ size) (inside : size ≤ wide) :
    load (store memory offset wide value) offset size = value := by
  have whole := @load_store_inside memory offset size wide value 0 (by omega)
  rw [Nat.pow_zero, Nat.div_one, Nat.mod_eq_of_lt small] at whole
  exact whole

/-- A number consists of the bytes it is loaded from. -/
theorem load_congr {first second : Memory}
    (same : ∀ i, offset ≤ i → i < offset + size → first i = second i) :
    first.load offset size = second.load offset size := by
  induction size generalizing offset with
  | zero => rfl
  | succ size ih =>
      have rest : first.load (offset + 1) size = second.load (offset + 1) size :=
        ih fun i above below => same i (by omega) (by omega)
      rw [load, load, rest, same offset (le_refl _) (by omega)]

/-- Behind a small number there are zeros. -/
theorem load_store_behind {skip : Nat} (small : value < 256 ^ skip)
    (inside : skip + size ≤ wide) :
    load (store memory offset wide value) (offset + skip) size = 0 := by
  rw [load_store_inside skip inside, Nat.div_eq_of_lt small, Nat.zero_mod]

end Memory

/-! ### The layout of a structure -/

/-- The size and the alignment of a type. -/
structure CType where
  size : Nat
  align : Nat

namespace CType

def ushort : CType := ⟨2, 2⟩
def uint : CType := ⟨4, 4⟩
def ulong : CType := ⟨8, 8⟩
def pointer : CType := ⟨8, 8⟩

/-- The next multiple of an alignment. -/
def roundUp (offset align : Nat) : Nat := (offset + align - 1) / align * align

/-- The end of the last of some fields that start at an offset. -/
def extent (start : Nat) : List CType → Nat
  | [] => start
  | field :: rest => extent (roundUp start field.align + field.size) rest

/-- A structure with some fields. -/
def struct (fields : List CType) : CType :=
  let align := fields.foldl (fun align field => max align field.align) 1
  ⟨roundUp (extent 0 fields) align, align⟩

/-- The offset of the field behind some others. -/
def offset (fields : List CType) (index : Nat) : Nat :=
  roundUp (extent 0 (fields.take index)) ((fields[index]?).getD ushort).align

end CType

/-! ### Stores that are wider than their fields -/

namespace Fields

variable {ι : Type} [DecidableEq ι]

/-- A number is put in a field, and zero in each one it runs over. -/
def put (runsOver : ι → ι → Bool) (number : ι → Nat) (field : ι) (value : Nat) : ι → Nat :=
  fun other => if other = field then value else if runsOver field other then 0 else number other

/-- The fields of a list are set, in order, where there is a value for them. -/
def putAll (runsOver : ι → ι → Bool) (values : ι → Option Nat) :
    List ι → (ι → Nat) → ι → Nat
  | [], number => number
  | field :: rest, number =>
      putAll runsOver values rest
        (match values field with
        | none => number
        | some value => put runsOver number field value)

/-- Every field that a value runs over gets one of its own afterwards. -/
def Covered (runsOver : ι → ι → Bool) (values : ι → Option Nat) (order : List ι) : Prop :=
  ∀ before field after, order = before ++ field :: after → (values field).isSome = true →
    ∀ other, runsOver field other = true → other ∈ after ∧ (values other).isSome = true

variable {runsOver : ι → ι → Bool} {values : ι → Option Nat} {order : List ι}
  {number : ι → Nat} {field : ι}

theorem putAll_append (first second : List ι) :
    putAll runsOver values (first ++ second) number =
      putAll runsOver values second (putAll runsOver values first number) := by
  induction first generalizing number with
  | nil => rfl
  | cons field rest ih => exact ih

omit [DecidableEq ι] in
theorem covered_nil : Covered runsOver values [] := by
  intro before field after cut
  cases before with
  | nil => cases cut
  | cons first before => cases cut

omit [DecidableEq ι] in
theorem covered_cons {rest : List ι} :
    Covered runsOver values (field :: rest) ↔
      ((values field).isSome = true → ∀ other, runsOver field other = true →
        other ∈ rest ∧ (values other).isSome = true) ∧ Covered runsOver values rest := by
  refine ⟨fun covered => ⟨covered [] field rest rfl, fun before second after cut =>
    covered (field :: before) second after (congrArg _ cut)⟩, ?_⟩
  rintro ⟨first, behind⟩ before second after cut
  cases before with
  | nil =>
      obtain ⟨rfl, rfl⟩ := List.cons.inj cut
      exact first
  | cons head before =>
      obtain ⟨-, cut⟩ := List.cons.inj cut
      exact behind before second after cut

/-- A field that is zero and not set any more stays zero. -/
theorem putAll_zero (unset : field ∈ order → values field = none) (zero : number field = 0) :
    putAll runsOver values order number field = 0 := by
  induction order generalizing number with
  | nil => exact zero
  | cons first rest ih =>
      rw [putAll]
      apply ih fun behind => unset (List.mem_cons_of_mem _ behind)
      cases given : values first with
      | none => exact zero
      | some value =>
          have differ : field ≠ first := by
            rintro rfl
            exact nomatch given.symm.trans (unset List.mem_cons_self)
          dsimp only
          rw [put, if_neg differ]
          split
          · rfl
          · exact zero

/-- A field that nothing runs over ends with its own value, if it is set. -/
theorem putAll_clear (distinct : order.Nodup)
    (clear : ∀ first ∈ order, runsOver first field = false) :
    putAll runsOver values order number field =
      (if field ∈ order then values field else none).getD (number field) := by
  induction order generalizing number with
  | nil => rfl
  | cons first rest ih =>
      rw [List.nodup_cons] at distinct
      have spills : ¬ runsOver first field = true := by
        rw [clear first List.mem_cons_self]
        exact Bool.noConfusion
      rw [putAll, ih distinct.2 fun other behind => clear other (List.mem_cons_of_mem _ behind)]
      by_cases same : field = first
      · subst same
        rw [if_neg distinct.1, if_pos List.mem_cons_self, Option.getD_none]
        cases values field with
        | none => rfl
        | some value =>
            dsimp only
            rw [put, if_pos rfl, Option.getD_some]
      · have member : field ∈ first :: rest ↔ field ∈ rest :=
          ⟨fun listed => (List.mem_cons.mp listed).resolve_left same, List.mem_cons_of_mem _⟩
        have kept : (match values first with
            | none => number
            | some value => put runsOver number first value) field = number field := by
          cases values first with
          | none => rfl
          | some value =>
              dsimp only
              rw [put, if_neg same, if_neg spills]
        simp only [member, kept]

/-- Where every field run over is set afterwards, each one ends with its own value. -/
theorem putAll_covered (distinct : order.Nodup) (covered : Covered runsOver values order) :
    putAll runsOver values order number field =
      (if field ∈ order then values field else none).getD (number field) := by
  induction order generalizing number with
  | nil => rfl
  | cons first rest ih =>
      rw [List.nodup_cons] at distinct
      obtain ⟨spills, later⟩ := covered_cons.mp covered
      rw [putAll, ih distinct.2 later]
      by_cases behind : field ∈ rest
      · rw [if_pos behind, if_pos (List.mem_cons_of_mem _ behind)]
        cases own : values field with
        | some value => rfl
        | none =>
            cases given : values first with
            | none => rfl
            | some value =>
                have differ : field ≠ first := by
                  rintro rfl
                  exact distinct.1 behind
                have clear : ¬ runsOver first field = true := by
                  intro runs
                  have set := (spills (by rw [given]; rfl) field runs).2
                  rw [own] at set
                  cases set
                dsimp only
                rw [Option.getD_none, Option.getD_none, put, if_neg differ, if_neg clear]
      · rw [if_neg behind, Option.getD_none]
        by_cases same : field = first
        · subst same
          rw [if_pos List.mem_cons_self]
          cases given : values field with
          | none => rfl
          | some value =>
              dsimp only
              rw [put, if_pos rfl, Option.getD_some]
        · have absent : field ∉ first :: rest := fun member =>
            (List.mem_cons.mp member).elim same behind
          rw [if_neg absent, Option.getD_none]
          cases given : values first with
          | none => rfl
          | some value =>
              have clear : ¬ runsOver first field = true := fun runs =>
                behind (spills (by rw [given]; rfl) field runs).1
              dsimp only
              rw [put, if_neg same, if_neg clear]

/-- Each field ends with its own value just when every field run over is set afterwards; a field
that is set before it is run over is not meant to be zero, nor was one that is never set. -/
theorem putAll_iff (distinct : order.Nodup) (other : ∀ field, runsOver field field = false)
    (filled : ∀ first second, runsOver first second = true → number second ≠ 0)
    (early : order.Pairwise fun second first => runsOver first second = true →
      values second ≠ some 0) :
    (∀ field, putAll runsOver values order number field =
      (if field ∈ order then values field else none).getD (number field)) ↔
    Covered runsOver values order := by
  refine ⟨fun kept => ?_, fun covered field => putAll_covered distinct covered⟩
  intro before first after cut given second spills
  by_contra missing
  obtain ⟨value, own⟩ := Option.isSome_iff_exists.mp given
  have differ : second ≠ first := by
    rintro rfl
    exact nomatch spills.symm.trans (other second)
  have unset : second ∈ after → values second = none := by
    intro behind
    cases set : values second with
    | none => rfl
    | some value => exact absurd ⟨behind, by rw [set]; rfl⟩ missing
  -- the second field is zero from then on
  have lost : putAll runsOver values order number second = 0 := by
    rw [cut, putAll_append, putAll, own]
    apply putAll_zero unset
    dsimp only
    rw [put, if_neg differ, if_pos spills]
  rw [kept second] at lost
  split at lost
  · next listed =>
      cases set : values second with
      | none =>
          rw [set, Option.getD_none] at lost
          exact filled first second spills lost
      | some value =>
          rw [set, Option.getD_some] at lost
          rw [cut] at listed early
          rcases List.mem_append.mp listed with front | rest
          · have pairs := (List.pairwise_append.mp early).2.2
            exact pairs second front first List.mem_cons_self spills (lost ▸ set)
          · rcases List.mem_cons.mp rest with same | behind
            · exact differ same
            · exact nomatch set.symm.trans (unset behind)
  · rw [Option.getD_none] at lost
    exact filled first second spills lost

/-! #### Fields in memory -/

/-- A number is stored in `wide` bytes at the first field, and fills `used` of them; the second
field lies in the others. -/
def covers (offset size : ι → Nat) (wide used : Nat) (first second : ι) : Bool :=
  first ≠ second && offset first + used ≤ offset second &&
    offset second + size second ≤ offset first + wide

/-- Any other field is clear of the store, or lies in the bytes that are not used. -/
def Laid (offset size : ι → Nat) (wide used : Nat) : Prop :=
  ∀ first second, used ≤ size first ∧ size first ≤ wide ∧
    (first = second ∨ covers offset size wide used first second = true ∨
      offset second + size second ≤ offset first ∨ offset first + wide ≤ offset second)

/-- A small number that is stored too wide. -/
theorem load_store {offset size : ι → Nat} {wide used value : Nat}
    (laid : Laid offset size wide used) (small : value < 256 ^ used) (memory : Memory)
    (first second : ι) :
    (memory.store (offset first) wide value).load (offset second) (size second) =
      put (covers offset size wide used)
        (fun field => memory.load (offset field) (size field)) first value second := by
  obtain ⟨fits, inside, place⟩ := laid first second
  have own : value < 256 ^ size first := small.trans_le (Nat.pow_le_pow_right (by decide) fits)
  rw [put]
  by_cases same : second = first
  · rw [if_pos same, same]
    exact Memory.load_store_self own inside
  · rw [if_neg same]
    by_cases spills : covers offset size wide used first second = true
    · rw [if_pos spills]
      simp only [covers, Bool.and_eq_true, decide_eq_true_eq] at spills
      obtain ⟨skip, far⟩ := Nat.exists_eq_add_of_le spills.1.2
      have behind := @Memory.load_store_behind memory (offset first) (size second) wide value
        (used + skip)
        (small.trans_le (Nat.pow_le_pow_right (by decide) (Nat.le_add_right used skip)))
        (by omega)
      rw [far, Nat.add_assoc]
      exact behind
    · rw [if_neg spills]
      apply Memory.load_store_apart
      rcases place with equal | hit | apart
      · exact absurd equal.symm same
      · exact absurd hit spills
      · exact apart

/-- Fields that are stored in their own width, each at a place of its own. -/
theorem load_foldl_store {offset size : ι → Nat} {value : ι → Nat}
    (apart : ∀ first second, first ≠ second → offset first + size first ≤ offset second ∨
      offset second + size second ≤ offset first)
    (small : ∀ field, value field < 256 ^ size field) (order : List ι) (memory : Memory)
    (field : ι) :
    (order.foldl (fun memory field => memory.store (offset field) (size field) (value field))
        memory).load (offset field) (size field) =
      if field ∈ order then value field else memory.load (offset field) (size field) := by
  induction order generalizing memory with
  | nil => rfl
  | cons first rest ih =>
      rw [List.foldl_cons, ih]
      by_cases behind : field ∈ rest
      · rw [if_pos behind, if_pos (List.mem_cons_of_mem _ behind)]
      · rw [if_neg behind]
        by_cases same : field = first
        · subst same
          rw [if_pos List.mem_cons_self]
          exact Memory.load_store_self (small field) (Nat.le_refl _)
        · have absent : field ∉ first :: rest := fun listed =>
            (List.mem_cons.mp listed).elim same behind
          rw [if_neg absent]
          exact Memory.load_store_apart (apart field first same)

end Fields
