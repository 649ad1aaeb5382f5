import Mathlib.Data.List.Basic
import Mathlib.Data.Set.Insert

/-! # Forests of linked cells

A forest is kept by the first child and the next sibling of every node. Its nodes can be listed
from the first on, each with the labels on the way to it; a search that goes down from level to
level finds the first one that is listed. Cells of a memory that point to each other show a forest.
-/

/-- Trees one after the other: what is in the first root, what is below it, and the other trees. -/
inductive Forest (α : Type) where
  | nil
  | node (label : α) (child next : Forest α)
deriving DecidableEq

namespace Forest

variable {α ι : Type}

/-- What is in the first root. -/
def root? : Forest α → Option α
  | nil => none
  | node label _ _ => some label

/-- In front of a forest, trees of which the last one is given first. -/
def graft (forest : Forest α) (trees : List (α × Forest α)) : Forest α :=
  trees.foldl (fun behind tree => node tree.1 tree.2 behind) forest

/-- The nodes from the first on: what is in the nodes on the way to each, and in it. -/
def walk : Forest α → List (List α)
  | nil => []
  | node label child next => [label] :: (child.walk.map (label :: ·) ++ next.walk)

/-- Each label on the way passes the test of its level. -/
def along : List (α → Bool) → List α → Bool
  | [], [] => true
  | test :: tests, label :: labels => test label && along tests labels
  | _, _ => false

/-- The first tree whose root passes the test, with what follows it. -/
def first (test : α → Bool) : Forest α → Forest α
  | nil => nil
  | node label child next => if test label then node label child next else next.first test

/-- What is found first below a root that passes the test. -/
def firstBelow (test : α → Bool) (find : Forest α → Forest α) : Forest α → Forest α
  | nil => nil
  | node label child next =>
      if test label then
        match find child with
        | nil => next.firstBelow test find
        | found => found
      else next.firstBelow test find

/-- What passes the last test, below what passes the tests in front of it. -/
def search : List (α → Bool) → Forest α → Forest α
  | [], _ => nil
  | [test], forest => forest.first test
  | test :: tests, forest => forest.firstBelow test (search tests)

@[simp] theorem root?_eq_none {forest : Forest α} : forest.root? = none ↔ forest = nil := by
  cases forest with
  | nil => simp [root?]
  | node label child next => simp [root?]

@[simp] theorem graft_nil (forest : Forest α) : forest.graft [] = forest := rfl

@[simp] theorem graft_cons (forest : Forest α) (tree : α × Forest α)
    (trees : List (α × Forest α)) :
    forest.graft (tree :: trees) = (node tree.1 tree.2 forest).graft trees := rfl

theorem graft_append (forest : Forest α) (last before : List (α × Forest α)) :
    forest.graft (last ++ before) = (forest.graft last).graft before :=
  List.foldl_append ..

theorem ne_nil_of_mem_walk {forest : Forest α} {labels : List α}
    (member : labels ∈ forest.walk) : labels ≠ [] := by
  induction forest generalizing labels with
  | nil => cases member
  | node label child next _ later =>
      rw [walk, List.mem_cons, List.mem_append, List.mem_map] at member
      obtain own | ⟨below, -, named⟩ | behind := member
      · rw [own]
        exact List.cons_ne_nil _ _
      · rw [← named]
        exact List.cons_ne_nil _ _
      · exact later behind

/-! ### The search finds what is listed first -/

theorem find_below (test : α → Bool) (tests : List (α → Bool)) (label : α)
    (child : Forest α) :
    (child.walk.map (label :: ·)).find? (along (test :: tests)) =
      if test label then (child.walk.find? (along tests)).map (label :: ·) else none := by
  rw [List.find?_map]
  by_cases passes : test label = true
  · rw [if_pos passes]
    congr 2
    funext labels
    simp [along, passes]
  · rw [if_neg passes, Option.map_eq_none_iff, List.find?_eq_none]
    intro labels _
    simp [along, passes]

theorem root_first (test : α → Bool) (forest : Forest α) :
    (forest.first test).root? = (forest.walk.find? (along [test])).bind List.getLast? := by
  induction forest with
  | nil => rfl
  | node label child next _ later =>
      have deep : child.walk.find? (along []) = none := by
        rw [List.find?_eq_none]
        intro labels member
        cases labels with
        | nil => exact absurd rfl (ne_nil_of_mem_walk member)
        | cons label labels => simp [along]
      rw [first, walk, List.find?_cons, List.find?_append, find_below, deep]
      by_cases passes : test label = true
      · simp [along, passes, root?]
      · simp [along, passes, later]

theorem getLast_cons_of_mem {child : Forest α} {label : α} {tests : List (α → Bool)} :
    ((child.walk.find? (along tests)).map (label :: ·)).bind List.getLast? =
      (child.walk.find? (along tests)).bind List.getLast? := by
  cases found : child.walk.find? (along tests) with
  | none => rfl
  | some labels =>
      have filled := ne_nil_of_mem_walk (List.mem_of_find?_eq_some found)
      simp only [Option.map_some, Option.bind_some]
      rw [List.getLast?_cons, List.getLast?_eq_some_getLast filled, Option.getD_some]

theorem root_firstBelow (test : α → Bool) {tests : List (α → Bool)} (filled : tests ≠ [])
    {find : Forest α → Forest α}
    (finds : ∀ forest : Forest α,
      (find forest).root? = (forest.walk.find? (along tests)).bind List.getLast?)
    (forest : Forest α) :
    (forest.firstBelow test find).root? =
      (forest.walk.find? (along (test :: tests))).bind List.getLast? := by
  induction forest with
  | nil => rfl
  | node label child next _ later =>
      have own : along (test :: tests) [label] = false := by
        cases tests with
        | nil => exact absurd rfl filled
        | cons next rest => simp [along]
      rw [firstBelow, walk, List.find?_cons, own, List.find?_append, find_below]
      by_cases passes : test label = true
      · have below := finds child
        rw [if_pos passes, if_pos passes]
        cases found : child.walk.find? (along tests) with
        | none =>
            rw [found, Option.bind_none, root?_eq_none] at below
            rw [below]
            exact later
        | some labels =>
            have last := @getLast_cons_of_mem α child label tests
            rw [found] at below last
            simp only [Option.map_some, Option.some_or] at last ⊢
            rw [last, ← below]
            cases result : find child with
            | nil =>
                have filled := ne_nil_of_mem_walk (List.mem_of_find?_eq_some found)
                rw [result, Option.bind_some, List.getLast?_eq_some_getLast filled] at below
                cases below
            | node label child next => rfl
      · rw [if_neg passes, if_neg passes]
        exact later

/-- The search finds the first node that is listed at the path. -/
theorem root_search {tests : List (α → Bool)} (filled : tests ≠ []) (forest : Forest α) :
    (search tests forest).root? = (forest.walk.find? (along tests)).bind List.getLast? := by
  induction tests generalizing forest with
  | nil => exact absurd rfl filled
  | cons test tests deeper =>
      cases tests with
      | nil => exact root_first test forest
      | cons next rest =>
          have more : next :: rest ≠ [] := List.cons_ne_nil _ _
          exact root_firstBelow test more (deeper more) forest

/-! ### A search with a weaker test for the last label -/

/-- Labels that pass the tests pass them with a weaker one in the last place. -/
theorem along_weaken {above : List (α → Bool)} {strong weak : α → Bool}
    (weaker : ∀ label, strong label = true → weak label = true) {labels : List α}
    (passes : along (above ++ [strong]) labels = true) :
    along (above ++ [weak]) labels = true := by
  induction above generalizing labels with
  | nil =>
      cases labels with
      | nil => cases passes
      | cons label labels =>
          simp only [List.nil_append, along, Bool.and_eq_true] at passes ⊢
          exact ⟨weaker label passes.1, passes.2⟩
  | cons test above ih =>
      cases labels with
      | nil => cases passes
      | cons label labels =>
          simp only [List.cons_append, along, Bool.and_eq_true] at passes ⊢
          exact ⟨passes.1, ih passes.2⟩

/-- What is found with a weak test is found with a strong one, if it passes that. -/
theorem find_of_weaker {l : List α} {strong weak : α → Bool}
    (weaker : ∀ x, strong x = true → weak x = true) {x : α} (found : l.find? weak = some x)
    (passes : strong x = true) : l.find? strong = some x := by
  rw [List.find?_eq_some_iff_append] at found ⊢
  obtain ⟨-, front, behind, split, before⟩ := found
  refine ⟨passes, front, behind, split, fun y member => ?_⟩
  have fails := before y member
  rw [Bool.not_eq_true'] at fails ⊢
  by_contra other
  rw [Bool.not_eq_false] at other
  rw [weaker y other] at fails
  cases fails

/-! ### Cells that show a forest -/

/-- What the cells of a memory hold and point to. -/
structure Cells (ι α : Type) where
  label : ι → α
  child : ι → Option ι
  next : ι → Option ι

/-- From `start` on, cells of `own` show the forest. -/
def Shows (cells : Cells ι α) (own : Set ι) : Option ι → Forest α → Prop
  | start, nil => start = none
  | start, node label child next =>
      ∃ i ∈ own, start = some i ∧ cells.label i = label ∧
        Shows cells own (cells.child i) child ∧ Shows cells own (cells.next i) next

namespace Shows

variable {cells other : Cells ι α} {own more : Set ι} {start : Option ι} {forest : Forest α}

/-- The same cells show the same forest. -/
theorem congr (shows' : Shows cells own start forest) (wider : own ⊆ more)
    (label : ∀ i ∈ own, other.label i = cells.label i)
    (child : ∀ i ∈ own, other.child i = cells.child i)
    (next : ∀ i ∈ own, other.next i = cells.next i) : Shows other more start forest := by
  induction forest generalizing start with
  | nil => exact shows'
  | node name down right below behind =>
      obtain ⟨i, member, begun, named, first, rest⟩ := shows'
      refine ⟨i, wider member, begun, (label i member).trans named, ?_, ?_⟩
      · rw [child i member]
        exact below first
      · rw [next i member]
        exact behind rest

theorem mono (shows' : Shows cells own start forest) (wider : own ⊆ more) :
    Shows cells more start forest :=
  shows'.congr wider (fun _ _ => rfl) (fun _ _ => rfl) (fun _ _ => rfl)

theorem mem {i : ι} (shows' : Shows cells own (some i) forest) : i ∈ own := by
  cases forest with
  | nil => cases shows'
  | node label child next =>
      obtain ⟨j, member, begun, -⟩ := shows'
      cases begun
      exact member

theorem ne_none (shows' : Shows cells own start forest) (filled : forest ≠ nil) :
    start ≠ none := by
  cases forest with
  | nil => exact absurd rfl filled
  | node label child next =>
      obtain ⟨i, -, begun, -⟩ := shows'
      rw [begun]
      exact Option.some_ne_none i

/-- The cells show one forest. -/
theorem unique {second : Forest α} (shows' : Shows cells own start forest)
    (again : Shows cells more start second) : second = forest := by
  induction forest generalizing start second with
  | nil =>
      cases second with
      | nil => rfl
      | node label child next => exact absurd shows' (again.ne_none (by simp))
  | node label child next below behind =>
      cases second with
      | nil => exact absurd again (shows'.ne_none (by simp))
      | node label' child' next' =>
          obtain ⟨i, -, begun, named, down, right⟩ := shows'
          obtain ⟨j, -, begun', named', down', right'⟩ := again
          cases begun.symm.trans begun'
          rw [← named, ← named', below down down', behind right right']

end Shows

end Forest
