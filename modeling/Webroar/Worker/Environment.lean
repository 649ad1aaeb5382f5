import Mathlib.Data.List.TakeWhile
import Mathlib.Logic.Function.Basic
import Webroar.Scgi.Parser
import Webroar.Scgi.Rename

/-! # The environment of the application

The application gets the headers of a request as a hash that is filled from the list of the
parsed object. The list is latest first, and a later store under a name replaces an earlier one,
so what stays under a name is the value of its first header.
-/

namespace Scgi

/-- The hash an application gets: the list from its head on, one store for each header. -/
def reqEnv (scgi : Scgi) : List UInt8 → Option (List UInt8) :=
  scgi.headerList.foldl (fun hash header =>
    Function.update hash (scgi.textAt header.fieldOffset)
      (some (scgi.textAt header.valueOffset))) fun _ => none

/-- The value of the first entry of a name. -/
def earliest (items : List Entry) (name : List UInt8) : Option (List UInt8) :=
  (items.find? fun item => item.1 = name).map Prod.snd

/-- Of several stores under a key the last one stays. -/
theorem foldl_update {κ ν : Type} [DecidableEq κ] (stores : List (κ × ν)) (hash : κ → Option ν)
    (key : κ) :
    stores.foldl (fun (hash : κ → Option ν) store =>
        Function.update hash store.1 (some store.2)) hash key =
      ((stores.reverse.find? fun store => store.1 = key).map Prod.snd).or (hash key) := by
  induction stores generalizing hash with
  | nil => rfl
  | cons store rest ih =>
      rw [List.foldl_cons, ih, List.reverse_cons, List.find?_append, Option.map_or, Option.or_assoc]
      congr 1
      by_cases same : store.1 = key
      · subst same
        simp
      · simp [same, Function.update_of_ne (Ne.symm same)]

/-- The name and the value of a header as the texts that are stored. -/
def texts (scgi : Scgi) (header : ScgiHeader) : Entry :=
  (scgi.textAt header.fieldOffset, scgi.textAt header.valueOffset)

/-- The application sees the first header of a name. -/
theorem reqEnv_eq (scgi : Scgi) (name : List UInt8) :
    scgi.reqEnv name = earliest (scgi.headerList.reverse.map scgi.texts) name := by
  have filled := foldl_update (scgi.headerList.map scgi.texts) (fun _ => none) name
  rw [Option.or_none, List.foldl_map, ← List.map_reverse] at filled
  exact filled

/-- What the application sees has no NUL. -/
theorem plain_reqEnv (scgi : Scgi) {name value : List UInt8}
    (seen : scgi.reqEnv name = some value) : (0 : UInt8) ∉ value := by
  rw [reqEnv_eq] at seen
  obtain ⟨item, found, rfl⟩ := Option.map_eq_some_iff.mp seen
  obtain ⟨header, -, rfl⟩ := List.mem_map.mp (List.mem_of_find?_eq_some found)
  intro nul
  have visible := List.mem_takeWhile_imp nul
  exact absurd visible (by decide)

variable {scgi : Scgi} {offset : Nat} {items : List Entry}

/-- When an object holds clean entries the application sees the first entry of a name. -/
theorem Holds.reqEnv (holds : scgi.Holds offset items) (clean : Clean items)
    (name : List UInt8) : scgi.reqEnv name = earliest items name := by
  have same : (slots offset items).map scgi.texts = (slots offset items).map scgi.entry := by
    apply List.map_congr_left
    intro header member
    have item : scgi.entry header ∈ (slots offset items).map scgi.entry :=
      List.mem_map_of_mem member
    rw [holds.read] at item
    obtain ⟨named, plain⟩ := clean _ item
    obtain ⟨field, value⟩ := holds.textAt member
    exact Prod.ext (field named.1) (value plain)
  rw [reqEnv_eq, holds.list, List.reverse_reverse, same, holds.read]

/-! ### The first and the latest entry -/

theorem earliest_append (first second : List Entry) (name : List UInt8) :
    earliest (first ++ second) name = (earliest first name).or (earliest second name) := by
  rw [earliest, earliest, earliest, List.find?_append, Option.map_or]

theorem earliest_of_not_mem {name : List UInt8} (absent : name ∉ items.map Prod.fst) :
    earliest items name = none := by
  rw [earliest, Option.map_eq_none_iff, List.find?_eq_none]
  intro item member same
  exact absent (List.mem_map.mpr ⟨item, member, of_decide_eq_true same⟩)

theorem earliest_of_mem {name : List UInt8} (member : name ∈ items.map Prod.fst) :
    ∃ value, earliest items name = some value := by
  obtain ⟨item, inside, same⟩ := List.mem_map.mp member
  have found : (items.find? fun item => item.1 = name).isSome = true := by
    rw [List.find?_isSome]
    exact ⟨item, inside, decide_eq_true same⟩
  obtain ⟨first, found⟩ := Option.isSome_iff_exists.mp found
  exact ⟨first.2, by rw [earliest, found, Option.map_some]⟩

/-- Around the latest entry of a name: the first entry is before it, or is this one. -/
theorem earliest_of_split (before after : List Entry) (name value : List UInt8) :
    earliest (before ++ (name, value) :: after) name = some ((earliest before name).getD value) := by
  rw [earliest_append]
  cases earliest before name with
  | none => simp [earliest]
  | some first => rfl

/-- A name that comes once has one value. -/
theorem earliest_eq_latest {name : List UInt8} (once : (items.map Prod.fst).count name ≤ 1) :
    earliest items name = latest items name := by
  rcases latest_split name items with absent | ⟨before, value, after, rfl, last⟩
  · rw [earliest_of_not_mem absent, latest_of_not_mem absent]
  · have absent : name ∉ before.map Prod.fst := by
      intro member
      have counted := List.count_pos_iff.mpr member
      rw [List.map_append, List.count_append, List.map_cons, List.count_cons_self] at once
      omega
    rw [earliest_of_split, latest_of_split last, earliest_of_not_mem absent, Option.getD_none]

theorem earliest_of_once {name value : List UInt8} (member : (name, value) ∈ items)
    (once : (items.map Prod.fst).count name ≤ 1) : earliest items name = some value := by
  obtain ⟨before, after, rfl⟩ := List.append_of_mem member
  have absent : name ∉ before.map Prod.fst := by
    intro inside
    have counted := List.count_pos_iff.mpr inside
    rw [List.map_append, List.count_append, List.map_cons, List.count_cons_self] at once
    omega
  rw [earliest_of_split, earliest_of_not_mem absent, Option.getD_none]

/-- An entry of another name makes no difference. -/
theorem earliest_cons_of_ne {name : List UInt8} {item : Entry} (other : item.1 ≠ name)
    (rest : List Entry) :
    earliest (item :: rest) name = earliest rest name ∧
      latest (item :: rest) name = latest rest name := by
  have absent : name ∉ [item].map Prod.fst := fun member => other (List.mem_singleton.mp member).symm
  have split : item :: rest = [item] ++ rest := rfl
  rw [split, earliest_append, latest_append, earliest_of_not_mem absent, latest_of_not_mem absent,
    Option.none_or, Option.or_none]
  exact ⟨rfl, rfl⟩

/-- Renaming an entry makes no difference to other names. -/
theorem earliest_renameLatest {name old new : List UInt8} (notOld : old ≠ name)
    (notNew : new ≠ name) (items : List Entry) :
    earliest (renameLatest old new items) name = earliest items name ∧
      latest (renameLatest old new items) name = latest items name := by
  rcases latest_split old items with absent | ⟨before, value, after, rfl, last⟩
  · rw [renameLatest_of_not_mem absent]
    exact ⟨rfl, rfl⟩
  · obtain ⟨newFirst, newLast⟩ := @earliest_cons_of_ne name (new, value) notNew after
    obtain ⟨oldFirst, oldLast⟩ := @earliest_cons_of_ne name (old, value) notOld after
    rw [renameLatest_of_split last, earliest_append, earliest_append, latest_append, latest_append,
      newFirst, newLast, oldFirst, oldLast]
    exact ⟨rfl, rfl⟩

end Scgi
