import Webroar.Yaml.Nesting

/-! # A document is read

The events of a part of a document make the forest of its entries, if all its collections fit; if
one is nested too deep, an entry stays on the stack.
-/

namespace Yaml

/-! ### Nothing is returned once an entry stays on the stack -/

/-- Events that leave the level as it is, and an entry that stays on the stack. -/
def Balanced (events : List Event) : Prop :=
  ∀ parser : Parser, Stuck parser → 0 ≤ parser.level →
    Stuck (parser.run events) ∧ (parser.run events).level = parser.level

namespace Balanced

theorem nil : Balanced [] := fun _ stuck _ => ⟨stuck, rfl⟩

theorem append {first second : List Event} (begins : Balanced first) (ends : Balanced second) :
    Balanced (first ++ second) := by
  intro parser stuck level
  obtain ⟨still, same⟩ := begins parser stuck level
  obtain ⟨last, same'⟩ := ends _ still (by rw [same]; exact level)
  rw [Parser.run_append]
  exact ⟨last, same'.trans same⟩

theorem scalar (text : List UInt8) : Balanced [.scalar text] := by
  intro parser stuck _
  refine ⟨Parser.stuck_scalar stuck text, ?_⟩
  show (parser.scalar text).level = parser.level
  unfold Parser.scalar
  split
  · rfl
  · split
    · rfl
    · split
      · rfl
      · split
        · rfl
        · rfl

/-- What is between the two ends of a collection. -/
theorem block (type : NodeType) {first last : Event} {events : List Event}
    (begins : ∀ parser : Parser, parser.step first = parser.createChildNode type)
    (ends : ∀ parser : Parser, parser.step last = parser.setSiblingNodes)
    (inner : Balanced events) : Balanced (first :: (events ++ [last])) := by
  intro parser stuck level
  have begun : (parser.createChildNode type).level = parser.level + 1 := rfl
  obtain ⟨still, same⟩ := inner _ (Parser.stuck_createChildNode stuck type) (by omega)
  obtain ⟨done, level', -⟩ := Parser.stuck_setSiblingNodes still (by omega)
  rw [Parser.run_cons, Parser.run_append, begins, Parser.run_cons, Parser.run_nil, ends]
  refine ⟨done, ?_⟩
  omega

theorem flatMap {α : Type} {events : α → List Event} (each : ∀ part, Balanced (events part))
    (parts : List α) : Balanced (parts.flatMap events) := by
  induction parts with
  | nil => exact nil
  | cons part parts rest =>
      rw [List.flatMap_cons]
      exact (each part).append rest

end Balanced

mutual

theorem Document.balanced : ∀ document : Document, Balanced document.events
  | .scalar text => Balanced.scalar text
  | .sequence items =>
      Balanced.block .list (fun _ => rfl) (fun _ => rfl) (balanced_items items)
  | .mapping entries =>
      Balanced.block .array (fun _ => rfl) (fun _ => rfl) (balanced_entries entries)

theorem balanced_items : ∀ items : List Document, Balanced (itemEvents items)
  | [] => Balanced.nil
  | item :: rest => item.balanced.append (balanced_items rest)

theorem balanced_entries :
    ∀ entries : List (List UInt8 × Document), Balanced (entryEvents entries)
  | [] => Balanced.nil
  | (key, value) :: rest =>
      (Balanced.scalar key).append (value.balanced.append (balanced_entries rest))

end

/-! ### The depth of a collection -/

/-- In a collection at this level no part is nested too deep. -/
def Document.Fits (level : Int) (document : Document) : Prop :=
  document.depth = 0 ∨ level + document.depth < 2 ^ 15

theorem itemDepth_le (items : List Document) (bound : Nat) :
    itemDepth items ≤ bound ↔ ∀ item ∈ items, item.depth ≤ bound := by
  induction items with
  | nil => simp [itemDepth]
  | cons item rest ih => simp [itemDepth, ih]

theorem entryDepth_le (entries : List (List UInt8 × Document)) (bound : Nat) :
    entryDepth entries ≤ bound ↔ ∀ value ∈ entries.map Prod.snd, value.depth ≤ bound := by
  induction entries with
  | nil => simp [entryDepth]
  | cons entry rest ih => simp [entryDepth, ih]

/-- A collection fits if its level does and each of its parts fits in it. -/
theorem fits_iff {document : Document} {parts : List Document} {inner : Nat} (level : Int)
    (depth : document.depth = inner + 1)
    (deepest : ∀ bound, inner ≤ bound ↔ ∀ part ∈ parts, part.depth ≤ bound) :
    document.Fits level ↔ level + 1 < 2 ^ 15 ∧ ∀ part ∈ parts, part.Fits (level + 1) := by
  rw [Document.Fits, depth]
  constructor
  · intro fits
    have bound : level + (inner + 1) < 2 ^ 15 := by
      obtain zero | bound := fits
      · cases zero
      · exact_mod_cast bound
    refine ⟨by omega, fun part member => .inr ?_⟩
    have small := (deepest inner).mp (le_refl inner) part member
    omega
  · intro ⟨bound, fits⟩
    have small : inner ≤ (2 ^ 15 - 2 - level).toNat := by
      apply (deepest _).mpr
      intro part member
      obtain zero | small := fits part member
      · omega
      · omega
    right
    push_cast
    omega

theorem fits_sequence {level : Int} {items : List Document}
    (several : ∀ text, items ≠ [.scalar text]) :
    (Document.sequence items).Fits level ↔
      level + 1 < 2 ^ 15 ∧ ∀ item ∈ items, item.Fits (level + 1) := by
  refine fits_iff level ?_ (itemDepth_le items)
  unfold Document.depth
  split
  case h_1 same => cases same
  case h_2 text same =>
    injection same with same
    exact absurd same (several text)
  case h_3 same => cases same
  case h_4 same =>
    injection same with same
    rw [same]
  case h_5 same => cases same

theorem fits_mapping {level : Int} {entries : List (List UInt8 × Document)}
    (several : ∀ key text, entries ≠ [(key, .scalar text)]) :
    (Document.mapping entries).Fits level ↔
      level + 1 < 2 ^ 15 ∧ ∀ value ∈ entries.map Prod.snd, value.Fits (level + 1) := by
  refine fits_iff level ?_ (entryDepth_le entries)
  unfold Document.depth
  split
  case h_1 same => cases same
  case h_2 text same => cases same
  case h_3 key text same =>
    injection same with same
    exact absurd same (several key text)
  case h_4 same => cases same
  case h_5 same =>
    injection same with same
    rw [same]

/-! ### The scalars of a collection -/

section Scalars

variable {parser : Parser} {site : Site} {nodes : List Nat} {own : Set Nat}
  {trees : List (Label × Forest Label)} {label : Label} {tree : Forest Label}

/-- What the current node has in it is what has been read last. -/
theorem Row.top {p : Nat} (row : Row site nodes own ((label, tree) :: trees) parser)
    (current : parser.node = some p) :
    (parser.nodes p).key = label.key ∧ (parser.nodes p).value = label.value ∧
      (parser.nodes p).type = site.type ∧ ∃ rest, nodes = p :: rest := by
  obtain ⟨q, rest, rfl⟩ : ∃ q rest, nodes = q :: rest := by
    cases row.held with
    | cons first held => exact ⟨_, _, rfl⟩
  obtain ⟨rfl, -⟩ := row.current current
  obtain ⟨held, -, -⟩ := row.head
  have named : parser.cells.label p = label := held.label
  rw [← named]
  exact ⟨rfl, rfl, held.type, rest, rfl⟩

/-- The key that comes first is that of the node which is there from the start. -/
theorem Row.key (row : Row site nodes own [(⟨none, none⟩, tree)] parser)
    (current : parser.node.isSome = true) (text : List UInt8) :
    Row site nodes own [(⟨some text, none⟩, tree)] (parser.scalar text) ∧
      (parser.scalar text).node.isSome = true := by
  obtain ⟨p, node⟩ := Option.isSome_iff_exists.mp current
  obtain ⟨key, value, -, rest, rfl⟩ := row.top node
  have written : parser.scalar text =
      parser.modify p ({ · with key := some text, keyLen := text.length }) := by
    simp only [Parser.scalar, node, key, if_true]
  rw [written]
  refine ⟨row.relabel node ?_ rfl rfl rfl rfl, current⟩
  rw [value]

/-- A value is that of the key in front of it. -/
theorem Row.value {key : List UInt8}
    (row : Row site nodes own ((⟨some key, none⟩, tree) :: trees) parser)
    (current : parser.node.isSome = true) (array : site.type = .array) (text : List UInt8) :
    Row site nodes own ((⟨some key, some text⟩, tree) :: trees) (parser.scalar text) ∧
      (parser.scalar text).node.isSome = true := by
  obtain ⟨p, node⟩ := Option.isSome_iff_exists.mp current
  obtain ⟨key', value, type, rest, rfl⟩ := row.top node
  have written : parser.scalar text =
      parser.modify p ({ · with value := some text, valueLen := text.length }) := by
    simp [Parser.scalar, node, key', value, type, array]
  rw [written]
  refine ⟨row.relabel node ?_ rfl rfl rfl rfl, current⟩
  rw [key']

/-- Nothing is missing in the last entry. -/
def Complete (site : Site) (parser : Parser) (trees : List (Label × Forest Label)) : Prop :=
  parser.node = none ∨ ∀ tree ∈ trees.head?,
    tree.1.key ≠ none ∧ (site.type = .list ∨ tree.1.value ≠ none)

/-- Behind an entry with nothing missing a scalar is a key. -/
theorem Row.nextKey (row : Row site nodes own trees parser)
    (complete : Complete site parser trees) (text : List UInt8) :
    ∃ more, Row site more own ((⟨some text, none⟩, .nil) :: trees) (parser.scalar text) ∧
      (parser.scalar text).node.isSome = true := by
  obtain ⟨⟨label, tree⟩, before, rfl⟩ : ∃ tree before, trees = tree :: before := by
    cases row.held with
    | nil => cases row.last
    | cons first held => exact ⟨_, _, rfl⟩
  have written : parser.scalar text = parser.createScalarNode text := by
    unfold Parser.scalar
    cases node : parser.node with
    | none => rfl
    | some p =>
        obtain ⟨key, value, type, -⟩ := row.top node
        obtain absent | done := complete
        · rw [node] at absent
          cases absent
        · obtain ⟨named, done⟩ := done _ rfl
          dsimp only at named done ⊢
          rw [key, value, type, if_neg named]
          obtain list | valued := done
          · rw [if_pos list]
          · rw [if_neg valued, ite_self]
  rw [written]
  exact ⟨_, row.createScalarNode text, rfl⟩

end Scalars

/-! ### The parts of a collection one after the other -/

/-- What some parts of a collection lead to: these entries, if the parts fit. -/
structure Outcome (site : Site) (between : Parser → List (Label × Forest Label) → Prop)
    (fits : Prop) (trees : List (Label × Forest Label)) (next : Parser) : Prop where
  row : fits → ∃ nodes own, Row site nodes own trees next ∧ between next trees
  stuck : ¬ fits → Stuck next ∧ next.level = site.level

section Parts

variable {α : Type} {site : Site} {between : Parser → List (Label × Forest Label) → Prop}
  {first : Prop} {trees : List (Label × Forest Label)} {parser : Parser}

/-- One more part. -/
theorem Outcome.next (begun : Outcome site between first trees parser)
    {tree : Label × Forest Label} {events : List Event} {fits : Prop} (balanced : Balanced events)
    (step : ∀ nodes own, Row site nodes own trees parser → between parser trees →
      Outcome site between fits (tree :: trees) (parser.run events)) :
    Outcome site between (first ∧ fits) (tree :: trees) (parser.run events) := by
  have positive := site.positive
  by_cases fit : first
  · obtain ⟨nodes, own, row, done⟩ := begun.row fit
    have outcome := step nodes own row done
    exact ⟨fun all => outcome.row all.2, fun deep => outcome.stuck fun all => deep ⟨fit, all⟩⟩
  · refine ⟨fun all => absurd all.1 fit, fun _ => ?_⟩
    obtain ⟨stuck, level⟩ := begun.stuck fit
    obtain ⟨still, same⟩ := balanced parser stuck (by rw [level]; omega)
    exact ⟨still, same.trans level⟩

/-- What one part leads to, all of them do. -/
theorem Outcome.parts (begun : Outcome site between first trees parser)
    (tree : α → Label × Forest Label) {events : α → List Event} (fits : α → Prop)
    (parts : List α) (balanced : ∀ part, Balanced (events part))
    (step : ∀ part ∈ parts, ∀ nodes own trees parser,
      Row site nodes own trees parser → between parser trees →
        Outcome site between (fits part) (tree part :: trees) (parser.run (events part))) :
    Outcome site between (first ∧ ∀ part ∈ parts, fits part)
      ((parts.map tree).reverse ++ trees) (parser.run (parts.flatMap events)) := by
  induction parts generalizing first trees parser with
  | nil =>
      have all : (first ∧ ∀ part ∈ ([] : List α), fits part) ↔ first := and_iff_left nofun
      rw [all]
      exact begun
  | cons part parts later =>
      have here := begun.next (balanced part) (fun nodes own row done =>
        step part (List.mem_cons_self ..) nodes own trees parser row done)
      have rest := later here (fun other member => step other (List.mem_cons_of_mem _ member))
      rw [List.flatMap_cons, Parser.run_append, List.map_cons, List.reverse_cons,
        List.append_assoc, List.singleton_append, List.forall_mem_cons, ← and_assoc]
      exact rest

end Parts

/-! ### The entries of a collection -/

/-- An item of a sequence as an entry. -/
def Document.item : Document → Label × Forest Label
  | .scalar text => (⟨some text, none⟩, .nil)
  | block => (⟨none, none⟩, block.forest)

/-- A key and its value as an entry. -/
def Document.entry (key : List UInt8) : Document → Label × Forest Label
  | .scalar text => (⟨some key, some text⟩, .nil)
  | block => (⟨some key, none⟩, block.forest)

theorem Document.item_block {document : Document} (nested : document.isScalar = false) :
    document.item = (⟨none, none⟩, document.forest) := by
  cases document with
  | scalar text => cases nested
  | sequence items => rfl
  | mapping entries => rfl

theorem Document.entry_block {document : Document} (nested : document.isScalar = false)
    (key : List UInt8) : document.entry key = (⟨some key, none⟩, document.forest) := by
  cases document with
  | scalar text => cases nested
  | sequence items => rfl
  | mapping entries => rfl

theorem itemForest_eq (items : List Document) :
    itemForest items = Forest.nil.graft (items.map Document.item).reverse := by
  induction items with
  | nil => rfl
  | cons item rest ih =>
      rw [List.map_cons, List.reverse_cons, Forest.graft_append, ← ih]
      cases item with
      | scalar text => rfl
      | sequence items => rfl
      | mapping entries => rfl

theorem entryForest_eq (entries : List (List UInt8 × Document)) :
    entryForest entries =
      Forest.nil.graft (entries.map fun entry => entry.2.entry entry.1).reverse := by
  induction entries with
  | nil => rfl
  | cons entry rest ih =>
      obtain ⟨key, value⟩ := entry
      rw [List.map_cons, List.reverse_cons, Forest.graft_append, ← ih]
      cases value with
      | scalar text => rfl
      | sequence items => rfl
      | mapping entries => rfl

theorem itemEvents_eq (items : List Document) :
    itemEvents items = items.flatMap Document.events := by
  induction items with
  | nil => rfl
  | cons item rest ih => rw [itemEvents, ih, List.flatMap_cons]

/-- What is reported of a key and its value. -/
def entryEvent (entry : List UInt8 × Document) : List Event :=
  .scalar entry.1 :: entry.2.events

theorem entryEvents_eq (entries : List (List UInt8 × Document)) :
    entryEvents entries = entries.flatMap entryEvent := by
  induction entries with
  | nil => rfl
  | cons entry rest ih => rw [entryEvents, ih, List.flatMap_cons, entryEvent, List.cons_append]

/-- What the events of a collection that begins at `before` have led to. -/
structure Reads (document : Document) (before next : Parser) : Prop where
  built : document.Fits before.level →
    ∃ built : Parser, next = built.attach ∧ Built before document.forest built
  stuck : ¬ document.Fits before.level →
    Stuck next ∧ next.level = before.level ∧ next.node = none

/-- A collection is read wherever it begins. -/
def Document.Read (document : Document) : Prop :=
  ∀ before : Parser, before.Ready → Reads document before (before.run document.events)

section Entries

variable {parser : Parser} {site : Site} {nodes : List Nat} {own : Set Nat}
  {trees : List (Label × Forest Label)}

/-- The collection of the current node. -/
theorem Row.block {label : Label} (row : Row site nodes own ((label, .nil) :: trees) parser)
    (current : parser.node.isSome = true) {document : Document} (regular : document.Regular)
    (nested : document.isScalar = false) (read : document.Read) :
    Outcome site (fun next _ => next.node = none) (document.Fits site.level)
      ((label, document.forest) :: trees) (parser.run document.events) := by
  obtain ⟨p, node⟩ := Option.isSome_iff_exists.mp current
  obtain ⟨-, -, -, rest, rfl⟩ := row.top node
  have reads := read parser row.ready
  have filled := regular.forest_ne_nil nested
  constructor
  · intro fits
    rw [← row.level] at fits
    obtain ⟨built, attached, complete⟩ := reads.built fits
    obtain ⟨more, row', done⟩ := row.under node filled complete
    rw [attached]
    exact ⟨_, more, row', done⟩
  · intro deep
    rw [← row.level] at deep
    obtain ⟨stuck, level, -⟩ := reads.stuck deep
    exact ⟨stuck, level.trans row.level⟩

/-- A collection that belongs to no node. -/
theorem Row.blockItem (row : Row site nodes own trees parser) (between : parser.node = none)
    {document : Document} (regular : document.Regular) (nested : document.isScalar = false)
    (read : document.Read) :
    Outcome site (fun next _ => next.node = none) (document.Fits site.level)
      (document.item :: trees) (parser.run document.events) := by
  have reads := read parser row.ready
  rw [Document.item_block nested]
  constructor
  · intro fits
    rw [← row.level] at fits
    obtain ⟨built, attached, complete⟩ := reads.built fits
    obtain ⟨p, more, row', done⟩ :=
      row.item between (regular.forest_ne_nil nested) complete
    rw [attached]
    exact ⟨_, more, row', done⟩
  · intro deep
    rw [← row.level] at deep
    obtain ⟨stuck, level, -⟩ := reads.stuck deep
    exact ⟨stuck, level.trans row.level⟩

/-- The value of the key that has been read last. -/
theorem Row.entryValue {key : List UInt8}
    (row : Row site nodes own ((⟨some key, none⟩, .nil) :: trees) parser)
    (current : parser.node.isSome = true) (array : site.type = .array) {document : Document}
    (regular : document.Regular) (read : document.isScalar = false → document.Read) :
    Outcome site (Complete site) (document.Fits site.level) (document.entry key :: trees)
      (parser.run document.events) := by
  cases nested : document.isScalar with
  | true =>
      obtain ⟨text, rfl⟩ := Document.eq_scalar nested
      obtain ⟨row', -⟩ := row.value current array text
      constructor
      · intro _
        refine ⟨_, _, row', .inr ?_⟩
        intro tree top
        cases top
        exact ⟨Option.some_ne_none key, .inr (Option.some_ne_none text)⟩
      · intro deep
        exact absurd (.inl rfl) deep
  | false =>
      have outcome := row.block current regular nested (read nested)
      rw [Document.entry_block nested]
      constructor
      · intro fits
        obtain ⟨nodes', own', row', done⟩ := outcome.row fits
        exact ⟨nodes', own', row', .inl done⟩
      · exact outcome.stuck

/-- A key with its value. -/
theorem Row.entry (row : Row site nodes own trees parser) (complete : Complete site parser trees)
    (array : site.type = .array) (entry : List UInt8 × Document) (regular : entry.2.Regular)
    (read : entry.2.isScalar = false → entry.2.Read) :
    Outcome site (Complete site) (entry.2.Fits site.level) (entry.2.entry entry.1 :: trees)
      (parser.run (entryEvent entry)) := by
  obtain ⟨more, row', current⟩ := row.nextKey complete entry.1
  exact row'.entryValue current array regular read

/-- A scalar of a sequence. -/
theorem Row.scalarItem (row : Row site nodes own trees parser)
    (complete : Complete site parser trees) (list : site.type = .list) (text : List UInt8) :
    ∃ more, Row site more own ((⟨some text, none⟩, .nil) :: trees) (parser.scalar text) ∧
      Complete site (parser.scalar text) ((⟨some text, none⟩, .nil) :: trees) := by
  obtain ⟨more, row', -⟩ := row.nextKey complete text
  refine ⟨more, row', .inr ?_⟩
  intro tree top
  cases top
  exact ⟨Option.some_ne_none text, .inl list⟩

end Entries

/-! ### The end of a collection -/

section Close

variable {before next : Parser} {document : Document} {type : NodeType}
  {trees : List (Label × Forest Label)}
  {between : Parser → List (Label × Forest Label) → Prop} {fits : Prop}

/-- A single scalar, which is still the current node, is linked to nothing, at any level. -/
theorem Row.closeSingle {nodes : List Nat} {own : Set Nat} {tree : Label × Forest Label}
    (ready : before.Ready) (row : Row (ready.site type) nodes own [tree] next)
    (current : next.node.isSome = true) (depth : document.depth = 0)
    (forest : document.forest = .node tree.1 tree.2 .nil) :
    Reads document before next.setSiblingNodes := by
  obtain ⟨p, node⟩ := Option.isSome_iff_exists.mp current
  constructor
  · intro _
    have single : ∃ q, nodes = [q] ∧ next.node = some q := by
      obtain ⟨label, below⟩ := tree
      obtain ⟨-, -, -, rest, rfl⟩ := row.top node
      cases row.held with
      | cons first held =>
          cases held
          exact ⟨p, rfl, node⟩
    refine ⟨next.linkSiblings next.stack, rfl, ?_⟩
    rw [forest]
    exact row.built ready (.inr single)
  · intro deep
    exact absurd (.inl depth) deep

/-- Other collections have to be at a level that fits. -/
theorem Outcome.close (ready : before.Ready)
    (outcome : Outcome (ready.site type) between fits trees next)
    (fit : document.Fits before.level ↔ before.level + 1 < 2 ^ 15 ∧ fits)
    (forest : document.forest = Forest.nil.graft trees)
    (several : trees.length = 1 → ∀ tree ∈ trees.head?, tree.2 ≠ .nil) :
    Reads document before next.setSiblingNodes := by
  have level : (ready.site type).level = before.level + 1 := rfl
  have positive := ready.level
  constructor
  · intro all
    obtain ⟨bound, parts⟩ := fit.mp all
    obtain ⟨nodes, own, row, -⟩ := outcome.row parts
    refine ⟨next.linkSiblings next.stack, rfl, ?_⟩
    rw [forest]
    exact row.built ready (.inl bound)
  · intro deep
    by_cases parts : fits
    · obtain ⟨nodes, own, row, -⟩ := outcome.row parts
      have large : 2 ^ 15 ≤ (ready.site type).level := by
        by_contra small
        exact deep (fit.mpr ⟨by omega, parts⟩)
      have more : ¬ ∃ p, nodes = [p] ∧ next.node = some p := by
        intro ⟨p, single, current⟩
        have length := row.held.length_eq
        rw [single] at length
        obtain ⟨tree, rfl⟩ := List.length_eq_one_iff.mp length.symm
        have absent := (row.closed tree rfl).mpr (several rfl tree rfl)
        rw [absent] at current
        cases current
      obtain ⟨stuck, same, node⟩ := row.stuck large more
      refine ⟨stuck, ?_, node⟩
      rw [same, row.level, level]
      omega
    · obtain ⟨stuck, same⟩ := outcome.stuck parts
      obtain ⟨stuck, same', node⟩ := Parser.stuck_setSiblingNodes stuck (by omega)
      refine ⟨stuck, ?_, node⟩
      omega

end Close

/-- Between the events of its ends, the parts of a collection are read. -/
theorem run_collection (before : Parser) (type : NodeType) {first last : Event}
    (begins : before.step first = before.createChildNode type)
    (ends : ∀ parser : Parser, parser.step last = parser.setSiblingNodes) (events : List Event) :
    before.run (first :: (events ++ [last])) =
      ((before.createChildNode type).run events).setSiblingNodes := by
  rw [Parser.run_cons, Parser.run_append, begins, Parser.run_cons, Parser.run_nil, ends]

theorem read_scalars {items : List Document} (filled : items ≠ [])
    (plain : ∀ item ∈ items, item.isScalar = true) : (Document.sequence items).Read := by
  intro before ready
  obtain ⟨first, rest, rfl⟩ := List.exists_cons_of_ne_nil filled
  obtain ⟨text, rfl⟩ := Document.eq_scalar (plain first (List.mem_cons_self ..))
  have plain : ∀ item ∈ rest, item.isScalar = true :=
    fun item member => plain item (List.mem_cons_of_mem _ member)
  rw [Document.events, run_collection before .list rfl (fun _ => rfl), itemEvents]
  obtain ⟨row, current⟩ := (ready.opens .list).key rfl text
  rw [Parser.run_append]
  cases rest with
  | nil => exact row.closeSingle ready current rfl rfl
  | cons second rest =>
      have complete : Complete (ready.site .list) ((before.createChildNode .list).scalar text)
          [(⟨some text, none⟩, .nil)] := by
        right
        intro tree top
        cases top
        exact ⟨Option.some_ne_none text, .inl rfl⟩
      have begun : Outcome (ready.site .list) (Complete (ready.site .list)) True
          [(⟨some text, none⟩, .nil)] ((before.createChildNode .list).scalar text) :=
        ⟨fun _ => ⟨_, _, row, complete⟩, fun absurd => (absurd trivial).elim⟩
      have outcome := begun.parts Document.item (Document.Fits (ready.site .list).level)
        (second :: rest) Document.balanced (by
          intro item member nodes own trees parser row complete
          obtain ⟨text, rfl⟩ := Document.eq_scalar (plain item member)
          obtain ⟨more, row', complete'⟩ := row.scalarItem complete rfl text
          exact ⟨fun _ => ⟨more, own, row', complete'⟩, fun deep => absurd (.inl rfl) deep⟩)
      rw [itemEvents_eq]
      apply outcome.close ready
      · rw [fits_sequence (by simp), List.forall_mem_cons]
        exact and_congr_right fun _ => and_congr_left fun _ => iff_of_true (.inl rfl) trivial
      · rw [Document.forest, itemForest_eq, List.map_cons, List.reverse_cons]
        rfl
      · simp

theorem read_blocks {items : List Document} (filled : items ≠ [])
    (nested : ∀ item ∈ items, item.isScalar = false) (regular : ∀ item ∈ items, item.Regular)
    (read : ∀ item ∈ items, item.Read) : (Document.sequence items).Read := by
  intro before ready
  obtain ⟨first, rest, rfl⟩ := List.exists_cons_of_ne_nil filled
  have head := List.mem_cons_self (a := first) (l := rest)
  rw [Document.events, run_collection before .list rfl (fun _ => rfl), itemEvents,
    Parser.run_append, itemEvents_eq]
  have begun := (ready.opens .list).block rfl (regular first head) (nested first head)
    (read first head)
  have outcome := begun.parts Document.item (Document.Fits (ready.site .list).level) rest
    Document.balanced (by
      intro item member nodes own trees parser row between
      have member := List.mem_cons_of_mem first member
      exact row.blockItem between (regular item member) (nested item member) (read item member))
  have entry := Document.item_block (nested first head)
  apply outcome.close ready
  · rw [fits_sequence, List.forall_mem_cons]
    · rfl
    · intro text same
      injection same with same
      rw [same] at nested
      cases nested _ (List.mem_cons_self ..)
  · rw [Document.forest, itemForest_eq, List.map_cons, List.reverse_cons, entry]
  · intro single tree top
    cases rest with
    | nil =>
        cases top
        exact (regular first head).forest_ne_nil (nested first head)
    | cons second rest => simp at single

theorem read_mapping {entries : List (List UInt8 × Document)} (filled : entries ≠ [])
    (regular : ∀ entry ∈ entries, entry.2.Regular)
    (read : ∀ entry ∈ entries, entry.2.isScalar = false → entry.2.Read) :
    (Document.mapping entries).Read := by
  intro before ready
  obtain ⟨⟨key, value⟩, rest, rfl⟩ := List.exists_cons_of_ne_nil filled
  have head := List.mem_cons_self (a := (key, value)) (l := rest)
  rw [Document.events, run_collection before .array rfl (fun _ => rfl), entryEvents_eq,
    List.flatMap_cons, entryEvent, List.cons_append, Parser.run_cons, Parser.run_append]
  obtain ⟨row, current⟩ := (ready.opens .array).key rfl key
  by_cases single : ∃ text, (key, value) :: rest = [(key, .scalar text)]
  · obtain ⟨text, same⟩ := single
    injection same with same empty
    injection same with _ same
    rw [same, empty]
    obtain ⟨row, current⟩ := row.value current rfl text
    exact row.closeSingle ready current rfl rfl
  · have begun := row.entryValue current rfl (regular _ head) (read _ head)
    have outcome := begun.parts (fun entry : List UInt8 × Document => entry.2.entry entry.1)
      (fun entry => entry.2.Fits (ready.site .array).level) rest
      (fun entry => (Balanced.scalar entry.1).append entry.2.balanced) (by
        intro entry member nodes own trees parser row complete
        have member := List.mem_cons_of_mem (key, value) member
        exact row.entry complete rfl entry (regular entry member) (read entry member))
    apply outcome.close ready
    · rw [fits_mapping, List.map_cons, List.forall_mem_cons, List.forall_mem_map]
      · rfl
      · intro key' text same
        injection same with same empty
        injection same with _ same
        exact single ⟨text, by rw [same, empty]⟩
    · rw [Document.forest, entryForest_eq, List.map_cons, List.reverse_cons]
    · intro alone tree top
      cases rest with
      | nil =>
          cases top
          cases nested : value.isScalar with
          | true =>
              obtain ⟨text, rfl⟩ := Document.eq_scalar nested
              exact absurd ⟨text, rfl⟩ single
          | false =>
              rw [Document.entry_block nested]
              exact (regular _ head).forest_ne_nil nested
      | cons second rest => simp at alone

/-- Every collection is read wherever it begins. -/
theorem Document.Regular.read {document : Document} (regular : document.Regular)
    (nested : document.isScalar = false) : document.Read := by
  induction regular with
  | scalar text => cases nested
  | scalars filled plain => exact read_scalars filled plain
  | blocks filled blocks regular ih =>
      exact read_blocks filled blocks regular (fun item member => ih item member (blocks item member))
  | mapping filled regular ih => exact read_mapping filled regular ih

end Yaml
