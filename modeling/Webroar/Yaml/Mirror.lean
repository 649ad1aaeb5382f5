import Webroar.Yaml.Lookup
import Webroar.Yaml.Reading

/-! # The tree of a document

`yaml_parse` makes the forest of the entries of a document, and `yaml_get_value` finds the values
in it. Neither is so without exception: the level of a node is a `short`, and the last key of a path
is compared up to a byte 0.
-/

namespace Yaml

open Forest (Shows)

namespace Parser

/-- Each key is as long as its node says. -/
def Measured (parser : Parser) : Prop :=
  ∀ i, (parser.nodes i).keyLen = ((parser.nodes i).key.map List.length).getD 0

theorem Measured.update {parser next : Parser} (measured : parser.Measured) {i : Nat}
    {node : Node} (nodes : next.nodes = Function.update parser.nodes i node)
    (key : node.keyLen = (node.key.map List.length).getD 0) : next.Measured := by
  intro j
  rw [nodes]
  by_cases same : j = i
  · subst same
    rw [Function.update_self]
    exact key
  · rw [Function.update_of_ne same]
    exact measured j

theorem Measured.createChildNode {parser : Parser} (measured : parser.Measured)
    (type : NodeType) : (parser.createChildNode type).Measured := by
  have made := @Measured.update parser
    (parser.push.alloc { createNode with level := short (parser.level + 1), type }) measured
    parser.fresh _ rfl rfl
  unfold Parser.createChildNode
  cases parser.node with
  | none => exact made
  | some q => exact made.update rfl (made q)

theorem Measured.linkSiblings {parser : Parser} (measured : parser.Measured)
    (stack : List Nat) : (parser.linkSiblings stack).Measured := by
  induction stack generalizing parser with
  | nil => exact measured
  | cons head rest ih =>
      rw [Parser.linkSiblings]
      split
      · apply ih
        exact measured.update (linkHead_nodes parser head) (measured head)
      · exact measured

theorem Measured.setSiblingNodes {parser : Parser} (measured : parser.Measured) :
    parser.setSiblingNodes.Measured := by
  have linked := measured.linkSiblings parser.stack
  unfold Parser.setSiblingNodes Parser.attach
  split
  · exact linked
  · split
    · exact linked
    · exact linked.update (addSibling_nodes _ _) rfl

theorem Measured.createScalarNode {parser : Parser} (measured : parser.Measured)
    (text : List UInt8) : (parser.createScalarNode text).Measured :=
  @Measured.update parser (parser.createScalarNode text) measured parser.fresh _ rfl rfl

theorem Measured.scalar {parser : Parser} (measured : parser.Measured) (text : List UInt8) :
    (parser.scalar text).Measured := by
  unfold Parser.scalar
  split
  · exact measured.createScalarNode text
  · split
    · exact measured.update rfl rfl
    · split
      · exact measured.createScalarNode text
      · split
        · exact measured.update rfl (measured _)
        · exact measured.createScalarNode text

theorem Measured.run {parser : Parser} (measured : parser.Measured) (events : List Event) :
    (parser.run events).Measured := by
  induction events generalizing parser with
  | nil => exact measured
  | cons event events later =>
      rw [run_cons]
      apply later
      cases event with
      | scalar text => exact measured.scalar text
      | sequenceStart => exact measured.createChildNode .list
      | mappingStart => exact measured.createChildNode .array
      | sequenceEnd => exact measured.setSiblingNodes
      | mappingEnd => exact measured.setSiblingNodes
      | noEvent => exact measured
      | streamStart => exact measured
      | streamEnd => exact measured
      | documentStart => exact measured
      | documentEnd => exact measured
      | aliasEvent => exact measured

end Parser

mutual

theorem Document.within : ∀ document : Document, Event.streamEnd ∉ document.events
  | .scalar text => by simp [Document.events]
  | .sequence items => by simp [Document.events, items_within items]
  | .mapping entries => by simp [Document.events, entries_within entries]

theorem items_within : ∀ items : List Document, Event.streamEnd ∉ itemEvents items
  | [] => by simp [itemEvents]
  | item :: rest => by simp [itemEvents, item.within, items_within rest]

theorem entries_within :
    ∀ entries : List (List UInt8 × Document), Event.streamEnd ∉ entryEvents entries
  | [] => by simp [entryEvents]
  | (key, value) :: rest => by simp [entryEvents, value.within, entries_within rest]

end

/-- What `yaml_parse` returns for the stream of a document. -/
theorem yamlParse_stream (document : Document) :
    yamlParse document.stream =
      (Parser.init.run document.events).result.map (Parser.init.run document.events, ·) := by
  have stream : document.stream =
      (.streamStart :: .documentStart :: (document.events ++ [.documentEnd])) ++
        .streamEnd :: [] := by
    simp [Document.stream]
  have within : Event.streamEnd ∉
      Event.streamStart :: .documentStart :: (document.events ++ [.documentEnd]) := by
    simp [document.within]
  have parsed : Parser.init.parse document.stream = some (Parser.init.run document.events) := by
    rw [stream, Parser.parse_append _ within, Parser.run_cons, Parser.run_cons,
      Parser.run_append]
    rfl
  rw [yamlParse, parsed]
  simp only [Option.bind_eq_bind, Option.bind_some]
  cases (Parser.init.run document.events).result with
  | none => rfl
  | some root => rfl

theorem init_ready : Parser.init.Ready := by
  refine ⟨nofun, le_refl _, nofun⟩

/-- The tree that is returned is that of the document if the document fits, and otherwise none is
returned. -/
theorem parses_iff {document : Document} (regular : document.Regular)
    (nested : document.isScalar = false) :
    (∃ parser root, yamlParse document.stream = some (parser, root) ∧ parser.Measured ∧
      Shows parser.cells Set.univ (some root) document.forest) ↔ document.depth < 2 ^ 15 := by
  have reads := regular.read nested Parser.init init_ready
  have measured : (Parser.init.run document.events).Measured := by
    apply Parser.Measured.run
    intro i
    rfl
  have fit : document.Fits Parser.init.level ↔ document.depth < 2 ^ 15 := by
    show document.depth = 0 ∨ (0 : Int) + document.depth < 2 ^ 15 ↔ _
    omega
  rw [← fit, yamlParse_stream]
  constructor
  · intro ⟨parser, root, returned, _⟩
    by_contra deep
    obtain ⟨⟨x, t, jam⟩, -, node⟩ := reads.stuck deep
    obtain ⟨above, below, stack⟩ := jam.stack
    have nothing : (Parser.init.run document.events).result = none := by
      unfold Parser.result
      rw [stack]
      cases above with
      | nil => exact node
      | cons head above =>
          cases above with
          | nil => exact node
          | cons second above => exact node
    rw [nothing] at returned
    cases returned
  · intro fits
    obtain ⟨built, attached, complete⟩ := reads.built fits
    have stack : built.stack = [] := complete.stack
    have done : built.attach = { built with level := built.level - 1 } := by
      unfold Parser.attach
      rw [stack]
    have result : (Parser.init.run document.events).result = some 0 := by
      rw [attached, done]
      unfold Parser.result
      rw [stack]
      exact complete.node
    refine ⟨_, 0, by rw [result]; rfl, measured, ?_⟩
    rw [attached, done]
    exact complete.below.mono (Set.subset_univ _)

/-- The tree that is returned has the entries of the document, and a search in it finds what the
path leads to. -/
def Mirrored (document : Document) (path : Path) : Prop :=
  ∃ parser root tree, yamlParse document.stream = some (parser, root) ∧ parser.Measured ∧
    Shows parser.cells Set.univ (some root) tree ∧ tree = document.forest ∧
    yamlGetValue tree path.text = valueAt document.forest path

/-- The tree mirrors the document exactly if its collections are nested less than 32768 deep, where
one with a single scalar is not counted, and what the path leads to is not masked by a key with a
byte 0 in it. -/
theorem mirrored_iff {document : Document} (regular : document.Regular)
    (nested : document.isScalar = false) (path : Path) :
    Mirrored document path ↔ document.depth < 2 ^ 15 ∧ ¬ Masked document.forest path := by
  rw [← parses_iff regular nested, ← yamlGetValue_iff]
  constructor
  · intro ⟨parser, root, tree, parsed, measured, shown, same, value⟩
    subst same
    exact ⟨⟨parser, root, parsed, measured, shown⟩, value⟩
  · intro ⟨⟨parser, root, parsed, measured, shown⟩, value⟩
    exact ⟨parser, root, document.forest, parsed, measured, shown, rfl, value⟩

/-- Two items that are mappings. -/
def itemList : Document :=
  .mapping [(ascii "List", .sequence
    [.mapping [(ascii "item", .scalar (ascii "keybord"))],
      .mapping [(ascii "item", .scalar (ascii "mouse"))]])]

def itemListPath : Path where
  above := [ascii "List", ascii "*"]
  last := ascii "item"
  part := by decide +kernel

theorem mirrored_iff_itemList : Mirrored itemList itemListPath := by
  have fits : itemList.depth < 2 ^ 15 := by decide +kernel
  have found : (itemList.forest.walk.find? itemListPath.meets).all itemListPath.leads = true := by
    decide +kernel
  refine (mirrored_iff ?_ rfl itemListPath).mpr ⟨fits, ?_⟩
  · apply Document.Regular.mapping (List.cons_ne_nil _ _)
    simp only [List.forall_mem_singleton]
    apply Document.Regular.blocks (List.cons_ne_nil _ _)
    · simp [Document.isScalar]
    · simp only [List.forall_mem_cons, List.not_mem_nil, false_imp_iff, implies_true, and_true]
      exact ⟨.mapping (List.cons_ne_nil _ _) (by simp [Document.Regular.scalar]),
        .mapping (List.cons_ne_nil _ _) (by simp [Document.Regular.scalar])⟩
  · intro ⟨labels, met, other, _⟩
    rw [met, Option.all_some, other] at found
    cases found

/-- A key that begins as the path ends, with a byte 0 behind, is taken for the path's own. -/
theorem not_mirrored : ¬ ∀ (document : Document) (path : Path), document.Regular →
    document.isScalar = false → Mirrored document path := by
  intro all
  have regular : (Document.mapping [([97, 0, 98], .scalar [49])]).Regular :=
    .mapping (List.cons_ne_nil _ _) (by simp [Document.Regular.scalar])
  obtain ⟨_, _, tree, -, -, -, same, value⟩ :=
    all (.mapping [([97, 0, 98], .scalar [49])]) ⟨[], [97], by decide⟩ regular rfl
  rw [same] at value
  have wrong : yamlGetValue (Document.mapping [([97, 0, 98], .scalar [49])]).forest
      (Path.text ⟨[], [97], by decide⟩) = some [49] := by
    decide +kernel
  have missing : valueAt (Document.mapping [([97, 0, 98], .scalar [49])]).forest
      ⟨[], [97], by decide⟩ = none := by
    decide +kernel
  rw [wrong, missing] at value
  cases value

end Yaml
