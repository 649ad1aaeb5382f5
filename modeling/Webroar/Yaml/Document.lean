import Webroar.Library.Decimal
import Webroar.Library.Forest

/-! # YAML documents

A document of nested sequences and mappings, what libyaml reports of it, and its entries as a
forest: the keys of a mapping with their values, and the items of a sequence; what is in a nested
collection is below the entry that it belongs to.
-/

namespace Yaml

/-- A scalar, the items of a sequence, or the keys of a mapping with their values. -/
inductive Document where
  | scalar (text : List UInt8)
  | sequence (items : List Document)
  | mapping (entries : List (List UInt8 × Document))

/-- `yaml_event_t`. -/
inductive Event where
  | noEvent
  | streamStart
  | streamEnd
  | documentStart
  | documentEnd
  | aliasEvent
  | scalar (value : List UInt8)
  | sequenceStart
  | sequenceEnd
  | mappingStart
  | mappingEnd
deriving DecidableEq

mutual

/-- What is reported of a part of a document. -/
def Document.events : Document → List Event
  | .scalar text => [.scalar text]
  | .sequence items => .sequenceStart :: (itemEvents items ++ [.sequenceEnd])
  | .mapping entries => .mappingStart :: (entryEvents entries ++ [.mappingEnd])

def itemEvents : List Document → List Event
  | [] => []
  | item :: rest => item.events ++ itemEvents rest

def entryEvents : List (List UInt8 × Document) → List Event
  | [] => []
  | (key, value) :: rest => .scalar key :: (value.events ++ entryEvents rest)

end

/-- What is reported of the stream with this document. -/
def Document.stream (document : Document) : List Event :=
  .streamStart :: .documentStart :: (document.events ++ [.documentEnd, .streamEnd])

/-- The key of an entry and its value, if it is a scalar; a scalar item is a key. -/
structure Label where
  key : Option (List UInt8)
  value : Option (List UInt8)
deriving DecidableEq

mutual

/-- The entries of a collection. -/
def Document.forest : Document → Forest Label
  | .scalar _ => .nil
  | .sequence items => itemForest items
  | .mapping entries => entryForest entries

def itemForest : List Document → Forest Label
  | [] => .nil
  | .scalar text :: rest => .node ⟨some text, none⟩ .nil (itemForest rest)
  | item :: rest => .node ⟨none, none⟩ item.forest (itemForest rest)

def entryForest : List (List UInt8 × Document) → Forest Label
  | [] => .nil
  | (key, .scalar text) :: rest => .node ⟨some key, some text⟩ .nil (entryForest rest)
  | (key, value) :: rest => .node ⟨some key, none⟩ value.forest (entryForest rest)

end

mutual

/-- How deep collections are nested. One with a single scalar is not counted. -/
def Document.depth : Document → Nat
  | .scalar _ => 0
  | .sequence [.scalar _] => 0
  | .mapping [(_, .scalar _)] => 0
  | .sequence items => itemDepth items + 1
  | .mapping entries => entryDepth entries + 1

def itemDepth : List Document → Nat
  | [] => 0
  | item :: rest => max item.depth (itemDepth rest)

def entryDepth : List (List UInt8 × Document) → Nat
  | [] => 0
  | (_, value) :: rest => max value.depth (entryDepth rest)

end

def Document.isScalar : Document → Bool
  | .scalar _ => true
  | _ => false

/-- No collection is empty, and no sequence mixes scalars with collections. -/
inductive Document.Regular : Document → Prop
  | scalar (text : List UInt8) : Regular (.scalar text)
  | scalars {items : List Document} (filled : items ≠ [])
      (plain : ∀ item ∈ items, item.isScalar = true) : Regular (.sequence items)
  | blocks {items : List Document} (filled : items ≠ [])
      (nested : ∀ item ∈ items, item.isScalar = false)
      (regular : ∀ item ∈ items, Regular item) : Regular (.sequence items)
  | mapping {entries : List (List UInt8 × Document)} (filled : entries ≠ [])
      (regular : ∀ entry ∈ entries, Regular entry.2) : Regular (.mapping entries)

theorem Document.eq_scalar {document : Document} (plain : document.isScalar = true) :
    ∃ text, document = .scalar text := by
  cases document with
  | scalar text => exact ⟨text, rfl⟩
  | sequence items => cases plain
  | mapping entries => cases plain

theorem itemForest_block {item : Document} (nested : item.isScalar = false)
    (rest : List Document) :
    itemForest (item :: rest) = .node ⟨none, none⟩ item.forest (itemForest rest) := by
  cases item with
  | scalar text => cases nested
  | sequence items => rfl
  | mapping entries => rfl

theorem entryForest_block {value : Document} (nested : value.isScalar = false)
    (key : List UInt8) (rest : List (List UInt8 × Document)) :
    entryForest ((key, value) :: rest) =
      .node ⟨some key, none⟩ value.forest (entryForest rest) := by
  cases value with
  | scalar text => cases nested
  | sequence items => rfl
  | mapping entries => rfl

theorem Document.Regular.forest_ne_nil {document : Document} (regular : document.Regular)
    (nested : document.isScalar = false) : document.forest ≠ .nil := by
  cases regular with
  | scalar text => cases nested
  | scalars filled plain =>
      obtain ⟨item, rest, rfl⟩ := List.exists_cons_of_ne_nil filled
      obtain ⟨text, rfl⟩ := eq_scalar (plain item (List.mem_cons_self ..))
      simp [Document.forest, itemForest]
  | blocks filled blocks regular =>
      obtain ⟨item, rest, rfl⟩ := List.exists_cons_of_ne_nil filled
      rw [Document.forest, itemForest_block (blocks item (List.mem_cons_self ..))]
      simp
  | mapping filled regular =>
      obtain ⟨⟨key, value⟩, rest, rfl⟩ := List.exists_cons_of_ne_nil filled
      cases value with
      | scalar text => simp [Document.forest, entryForest]
      | sequence items => simp [Document.forest, entryForest]
      | mapping entries => simp [Document.forest, entryForest]

end Yaml
