import Webroar.Scgi.Build

/-! # Renaming a recorded header

The name of a recorded header can be changed in place. The layout then has the new name at the
latest entry of the old one, and nothing else moves.
-/

namespace Scgi

/-- Rename the first entry of a name. -/
def renameFirst (name other : List UInt8) : List Entry → List Entry
  | [] => []
  | item :: rest =>
      if item.1 = name then (other, item.2) :: rest else item :: renameFirst name other rest

/-- Rename the latest entry of a name. -/
def renameLatest (name other : List UInt8) (items : List Entry) : List Entry :=
  (renameFirst name other items.reverse).reverse

theorem renameFirst_of_not_mem {name other : List UInt8} {items : List Entry}
    (absent : name ∉ items.map Prod.fst) : renameFirst name other items = items := by
  induction items with
  | nil => rfl
  | cons item rest ih =>
      rw [List.map_cons, List.mem_cons, not_or] at absent
      rw [renameFirst, if_neg fun same => absent.1 same.symm, ih absent.2]

theorem renameFirst_append {name other : List UInt8} {front rest : List Entry}
    (absent : name ∉ front.map Prod.fst) :
    renameFirst name other (front ++ rest) = front ++ renameFirst name other rest := by
  induction front with
  | nil => rfl
  | cons item front ih =>
      rw [List.map_cons, List.mem_cons, not_or] at absent
      rw [List.cons_append, renameFirst, if_neg fun same => absent.1 same.symm, ih absent.2,
        List.cons_append]

theorem renameLatest_of_not_mem {name other : List UInt8} {items : List Entry}
    (absent : name ∉ items.map Prod.fst) : renameLatest name other items = items := by
  rw [renameLatest, renameFirst_of_not_mem, List.reverse_reverse]
  rwa [List.map_reverse, List.mem_reverse]

theorem renameLatest_of_split {name other value : List UInt8} {before after : List Entry}
    (last : name ∉ after.map Prod.fst) :
    renameLatest name other (before ++ (name, value) :: after) =
      before ++ (other, value) :: after := by
  have absent : name ∉ after.reverse.map Prod.fst := by
    rwa [List.map_reverse, List.mem_reverse]
  rw [renameLatest, List.reverse_append, List.reverse_cons, List.append_assoc,
    renameFirst_append absent, List.cons_append, renameFirst, if_pos rfl]
  simp

/-- A list has no entry of a name, or a latest one. -/
theorem latest_split (name : List UInt8) (items : List Entry) :
    name ∉ items.map Prod.fst ∨
      ∃ before value after, items = before ++ (name, value) :: after ∧
        name ∉ after.map Prod.fst := by
  induction items with
  | nil => exact Or.inl List.not_mem_nil
  | cons item rest ih =>
      rcases ih with absent | ⟨before, value, after, rfl, last⟩
      · by_cases same : name = item.1
        · exact Or.inr ⟨[], item.2, rest, by rw [same, List.nil_append], absent⟩
        · refine Or.inl ?_
          rw [List.map_cons, List.mem_cons, not_or]
          exact ⟨same, absent⟩
      · exact Or.inr ⟨item :: before, value, after, rfl, last⟩

theorem latest_of_not_mem {name : List UInt8} {items : List Entry}
    (absent : name ∉ items.map Prod.fst) : latest items name = none := by
  rw [latest, Option.map_eq_none_iff, List.find?_eq_none]
  intro item member same
  exact absent (List.mem_map.mpr ⟨item, List.mem_reverse.mp member, of_decide_eq_true same⟩)

theorem latest_of_split {name value : List UInt8} {before after : List Entry}
    (last : name ∉ after.map Prod.fst) :
    latest (before ++ (name, value) :: after) name = some value := by
  have absent : after.reverse.find? (fun item => item.1 = name) = none := by
    rw [List.find?_eq_none]
    intro item member same
    exact last (List.mem_map.mpr ⟨item, List.mem_reverse.mp member, of_decide_eq_true same⟩)
  rw [latest, List.reverse_append, List.reverse_cons, List.append_assoc, List.find?_append,
    absent, Option.none_or, List.cons_append, List.find?_cons_of_pos (by simp)]
  rfl

/-- Where names do not repeat every entry is found. -/
theorem latest_of_mem {name value : List UInt8} {items : List Entry}
    (distinct : (items.map Prod.fst).Nodup) (member : (name, value) ∈ items) :
    latest items name = some value := by
  obtain ⟨before, after, rfl⟩ := List.append_of_mem member
  rw [List.map_append, List.map_cons] at distinct
  apply latest_of_split
  exact (List.nodup_cons.mp (List.nodup_append.mp distinct).2.1).1

/-- Later entries are looked at first. -/
theorem latest_append (first second : List Entry) (name : List UInt8) :
    latest (first ++ second) name = (latest second name).or (latest first name) := by
  rw [latest, latest, latest, List.reverse_append, List.find?_append, Option.map_or]

@[simp] theorem length_slots (offset : Nat) (items : List Entry) :
    (slots offset items).length = items.length := by
  induction items generalizing offset with
  | nil => rfl
  | cons item rest ih => rw [slots, List.length_cons, ih, List.length_cons]

variable {scgi : Scgi} {front : List UInt8} {items : List Entry} {offset : Nat}

/-- A name without entry is not found. -/
theorem Holds.headerGet_none (holds : scgi.Holds offset items) {name : List UInt8}
    (absent : name ∉ items.map Prod.fst) : scgi.headerGet name = none := by
  have read : (slots offset items).map scgi.entry = items :=
    slots_read scgi.header offset items holds.bytes
  rw [headerGet_eq, holds.list, List.find?_eq_none]
  intro header member same
  refine absent (List.mem_map.mpr ⟨scgi.entry header, ?_, of_decide_eq_true same⟩)
  rw [← read]
  exact List.mem_map_of_mem (List.mem_reverse.mp member)

/-- The header that is found is that of the latest entry. -/
theorem Holds.headerGet_split {name value : List UInt8} {before after : List Entry}
    (holds : scgi.Holds offset (before ++ (name, value) :: after))
    (last : name ∉ after.map Prod.fst) :
    ∃ header, scgi.headerGet name = some header ∧
      header.fieldOffset = offset + (encode before).length := by
  have read : (slots offset (before ++ (name, value) :: after)).map scgi.entry =
      before ++ (name, value) :: after := slots_read scgi.header offset _ holds.bytes
  rw [slots_append, List.map_append] at read
  obtain ⟨-, tail⟩ := List.append_inj read (by simp)
  rw [slots, List.map_cons] at tail
  obtain ⟨found, later⟩ := List.cons_eq_cons.mp tail
  refine ⟨⟨offset + (encode before).length, offset + (encode before).length + name.length + 1,
    name.length, value.length⟩, ?_, rfl⟩
  rw [headerGet_eq, holds.list, slots_append, slots, List.reverse_append, List.reverse_cons,
    List.append_assoc, List.find?_append]
  generalize slots (offset + (encode before).length + (name.length + value.length + 2)) after =
    recorded at later
  have absent : recorded.reverse.find? (fun header => (scgi.entry header).1 = name) = none := by
    rw [List.find?_eq_none]
    intro header member same
    refine last (List.mem_map.mpr ⟨scgi.entry header, ?_, of_decide_eq_true same⟩)
    rw [← later]
    exact List.mem_map_of_mem (List.mem_reverse.mp member)
  rw [absent, Option.none_or, List.cons_append, List.find?_cons_of_pos]
  exact decide_eq_true (congrArg Prod.fst found)

/-- Writing over the first byte of an entry's name renames it. -/
theorem Layout.rename {byte : UInt8} {name value : List UInt8} {before after : List Entry}
    (layout : scgi.Layout front (before ++ (byte :: name, value) :: after) none) (other : UInt8) :
    { scgi with
      header := scgi.header.write (startOffsetInit + (encode before).length) [other] }.Layout
        front (before ++ (other :: name, value) :: after) none := by
  obtain ⟨fits, size, start, place, room, bytes, list⟩ := layout
  have shape (first : UInt8) :
      contents front (before ++ (first :: name, value) :: after) none =
        (front ++ encode before) ++ ([first] ++
          (name ++ 0 :: (value ++ [0]) ++ encode after)) := by
    simp [encode_cons, encodeEntry]
  have slotted : slots startOffsetInit (before ++ (other :: name, value) :: after) =
      slots startOffsetInit (before ++ (byte :: name, value) :: after) := by
    simp [slots_append, slots]
  rw [shape byte] at place bytes
  generalize name ++ 0 :: (value ++ [0]) ++ encode after = rest at shape place bytes
  rw [List.length_append] at bytes
  obtain ⟨first, second⟩ := Block.slice_of_append _ _ bytes rfl
  have split : ([byte] ++ rest).length = 1 + rest.length := by
    rw [List.length_append, List.length_singleton]
  rw [split] at second
  obtain ⟨-, last⟩ := Block.slice_of_append [byte] rest second rfl
  rw [List.length_append, List.length_append, split] at place
  refine ⟨?_, size, start, ?_, room, ?_, ?_⟩
  · rw [Block.wild_write_of_le, fits]
    rw [List.length_singleton]
    omega
  · have other' : ([other] ++ rest).length = 1 + rest.length := by
      rw [List.length_append, List.length_singleton]
    rw [shape other, List.length_append, List.length_append, other']
    exact place
  · have spot : startOffsetInit + (encode before).length =
        scgi.startOffset + (front ++ encode before).length := by
      rw [List.length_append]
      omega
    have total : (front ++ encode before ++ ([other] ++ rest)).length =
        (front ++ encode before).length + ([other].length + rest.length) := by
      simp only [List.length_append]
    rw [shape other, spot, total, Block.slice_add,
      Block.slice_write_of_le _ _ _ _ _ (Nat.le_refl _), first, Block.slice_add,
      Block.slice_write_self, Block.slice_write_of_ge _ _ _ _ _ (Nat.le_refl _)]
    exact congrArg (fun tail => front ++ encode before ++ ([other] ++ tail)) last
  · rw [slotted]
    exact list

end Scgi
