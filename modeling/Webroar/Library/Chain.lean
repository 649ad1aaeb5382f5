import Mathlib.Data.List.Nodup

/-! # Linked lists whose nodes are found by key and removed by name

A node of a linked list is known by its address, the key, which no other node has. A cursor is a
key, or nothing behind the last node; it can be followed as long as its node is in the list.
Nodes also have names, not all different, and a removal by name takes out the first node of that
name, whichever node was meant.
-/

namespace Chain

variable {α κ ν : Type} [DecidableEq κ] [DecidableEq ν] (key : α → κ) (name : α → ν)

/-- The node at an address; nothing when it was freed. -/
def node (list : List α) (cursor : κ) : Option α := list.find? fun item => key item = cursor

/-- The address of the first node. -/
def first (list : List α) : Option κ := list.head?.map key

/-- The address behind that of a node of the list. -/
def next : List α → κ → Option κ
  | [], _ => none
  | item :: rest, cursor => if key item = cursor then first key rest else next rest cursor

/-- Take the first node of a name out. -/
def remove (list : List α) (label : ν) : List α := list.eraseP fun item => name item = label

variable {key name}

theorem node_split {before after : List α} {item : α}
    (distinct : ((before ++ item :: after).map key).Nodup) :
    node key (before ++ item :: after) (key item) = some item := by
  rw [node, List.find?_append, List.find?_eq_none.mpr, Option.none_or]
  · exact List.find?_cons_of_pos (decide_eq_true rfl)
  · intro other member
    rw [decide_eq_true_eq]
    intro same
    rw [List.map_append, List.nodup_append] at distinct
    exact distinct.2.2 (key other) (List.mem_map_of_mem member) (key item) List.mem_cons_self same

theorem node_of_mem {list : List α} {item : α} (distinct : (list.map key).Nodup)
    (member : item ∈ list) : node key list (key item) = some item := by
  obtain ⟨before, after, rfl⟩ := List.append_of_mem member
  exact node_split distinct

theorem next_split {before after : List α} {item : α}
    (distinct : ((before ++ item :: after).map key).Nodup) :
    next key (before ++ item :: after) (key item) = first key after := by
  induction before with
  | nil => rw [List.nil_append, next, if_pos rfl]
  | cons other rest ih =>
      rw [List.cons_append, List.map_cons, List.nodup_cons] at distinct
      have apart : ¬ key other = key item := by
        intro same
        apply distinct.1
        rw [same]
        exact List.mem_map_of_mem (List.mem_append_right _ List.mem_cons_self)
      rw [List.cons_append, next, if_neg apart]
      exact ih distinct.2

theorem node_eq_some {list : List α} {cursor : κ} {item : α}
    (found : node key list cursor = some item) : item ∈ list ∧ key item = cursor := by
  have same := List.find?_some found
  rw [decide_eq_true_eq] at same
  exact ⟨List.mem_of_find?_eq_some found, same⟩

theorem remove_sublist (list : List α) (label : ν) : (remove name list label).Sublist list :=
  List.eraseP_sublist

/-- A removal takes out the first node of the name, and nothing else. -/
theorem remove_split (list : List α) {item : α} (member : item ∈ list) :
    ∃ before gone after, list = before ++ gone :: after ∧ name gone = name item ∧
      (∀ other ∈ before, name other ≠ name item) ∧
      remove name list (name item) = before ++ after := by
  obtain ⟨gone, before, after, others, same, cut, removed⟩ :=
    List.exists_of_eraseP member (p := fun other => decide (name other = name item))
      (decide_eq_true rfl)
  exact ⟨before, gone, after, cut, of_decide_eq_true same,
    fun other inside => by simpa using others other inside, removed⟩

/-- The node that is gone after a removal was the first of its name. -/
theorem find_of_removed {list : List α} {label : ν} {item : α} (member : item ∈ list)
    (gone : item ∉ remove name list label) :
    (list.find? fun other => name other = label) = some item := by
  by_cases named : name item = label
  · subst named
    obtain ⟨before, first, after, cut, same, others, removed⟩ := @remove_split _ _ _ name list _ member
    rw [removed] at gone
    rw [cut] at member ⊢
    rcases List.mem_append.mp member with early | late
    · exact absurd (List.mem_append_left _ early) gone
    · rcases List.mem_cons.mp late with rfl | behind
      · rw [List.find?_append, List.find?_eq_none.mpr, Option.none_or]
        · exact List.find?_cons_of_pos (decide_eq_true rfl)
        · intro other inside
          rw [decide_eq_true_eq]
          exact others other inside
      · exact absurd (List.mem_append_right _ behind) gone
  · exact absurd ((List.mem_eraseP_of_neg (by simpa using named)).mpr member) gone

/-- Behind nodes of other names a removal starts looking. -/
theorem remove_append {before after : List α} {label : ν}
    (others : ∀ item ∈ before, name item ≠ label) :
    remove name (before ++ after) label = before ++ remove name after label := by
  rw [remove, List.eraseP_append_right]
  · rfl
  · intro item member
    rw [decide_eq_true_eq]
    exact others item member

/-- A removal for a node ahead leaves those behind it. -/
theorem remove_ahead {before after : List α} {item : α} (member : item ∈ before) :
    remove name (before ++ after) (name item) = remove name before (name item) ++ after := by
  unfold remove
  rw [List.eraseP_append_left (a := item) (decide_eq_true rfl) after member]

theorem remove_cons {rest : List α} {item : α} : remove name (item :: rest) (name item) = rest := by
  unfold remove
  exact List.eraseP_cons_of_pos (decide_eq_true rfl)

/-! ### Walks over the pairs of a list -/

/-- A walk over the pairs is done with the items `before`: each is fine, and so is each together
with any one behind it. -/
structure Checked (Fine : α → Prop) (Pair : α → α → Prop) (before after : List α) : Prop where
  each : ∀ item ∈ before, Fine item
  pairs : before.Pairwise Pair
  behind : ∀ item ∈ before, ∀ later ∈ after, Pair item later

namespace Checked

variable {Fine : α → Prop} {Pair : α → α → Prop} {before after : List α} {item : α}

theorem nil : Checked Fine Pair [] after :=
  ⟨fun _ absent => absurd absent List.not_mem_nil, .nil,
    fun _ absent => absurd absent List.not_mem_nil⟩

/-- One more item is done with. -/
theorem push (done : Checked Fine Pair before (item :: after)) (fine : Fine item)
    (pairs : ∀ later ∈ after, Pair item later) : Checked Fine Pair (before ++ [item]) after where
  each := by
    intro other member
    rcases List.mem_append.mp member with earlier | last
    · exact done.each other earlier
    · rw [List.mem_singleton.mp last]
      exact fine
  pairs := by
    refine List.pairwise_append.mpr ⟨done.pairs, List.pairwise_singleton _ _, ?_⟩
    intro other earlier last member
    rw [List.mem_singleton.mp member]
    exact done.behind other earlier item List.mem_cons_self
  behind := by
    intro other member later follows
    rcases List.mem_append.mp member with earlier | last
    · exact done.behind other earlier later (List.mem_cons_of_mem _ follows)
    · rw [List.mem_singleton.mp last]
      exact pairs later follows

theorem fewer {fewer : List α} (done : Checked Fine Pair before after)
    (inside : ∀ item ∈ fewer, item ∈ after) : Checked Fine Pair before fewer :=
  ⟨done.each, done.pairs,
    fun item listed later member => done.behind item listed later (inside later member)⟩

end Checked

end Chain
