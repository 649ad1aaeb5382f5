import Mathlib.Data.List.Nodup
import Mathlib.Order.Interval.Set.Basic
import Webroar.Yaml.Parser

/-! # The collections that are being read

While a collection is read, its entries are on top of the stack, the last one first, each with the
forest that is below it. When the collection ends they are linked, and what is below them on the
stack is as it was when it began.
-/

namespace Yaml

open Forest (Shows)

namespace Parser

/-- The nodes whose siblings or children are to come, the current one first. -/
def pending (parser : Parser) : List Nat := parser.node.toList ++ parser.stack

@[simp] theorem push_stack (parser : Parser) : parser.push.stack = parser.pending := rfl

/-- Where a part of the document can begin. -/
structure Ready (parser : Parser) : Prop where
  bounded : ∀ p ∈ parser.pending, p < parser.fresh
  level : 0 ≤ parser.level
  top : ∀ p ∈ parser.pending.head?, (parser.nodes p).level = short parser.level

end Parser

/-- Where a collection is read: the nodes that were there when it began, and its own level. -/
structure Site where
  ground : Nat → Node
  base : Nat
  below : List Nat
  level : Int
  type : NodeType
  bounded : ∀ p ∈ below, p < base
  positive : 1 ≤ level
  other : ∀ p ∈ below.head?, (ground p).level ≠ level

/-- A node and the forest below it are an entry of the collection. -/
structure Held (parser : Parser) (own : Set Nat) (site : Site) (p : Nat)
    (tree : Label × Forest Label) : Prop where
  label : parser.cells.label p = tree.1
  below : Shows parser.cells own (parser.nodes p).child tree.2
  level : (parser.nodes p).level = short site.level
  type : (parser.nodes p).type = site.type

/-- The entries that have been read, the last one first, are held by `nodes`; what is below them
is in `own`. -/
structure Row (site : Site) (nodes : List Nat) (own : Set Nat)
    (trees : List (Label × Forest Label)) (parser : Parser) : Prop where
  pending : parser.pending = nodes ++ site.below
  level : parser.level = site.level
  last : nodes.getLast? = some site.base
  nodup : nodes.Nodup
  range : ∀ p ∈ nodes, site.base ≤ p ∧ p < parser.fresh
  inside : own ⊆ Set.Ico site.base parser.fresh
  apart : ∀ p ∈ nodes, p ∉ own
  held : List.Forall₂ (Held parser own site) nodes trees
  kept : ∀ i < site.base, parser.nodes i = site.ground i
  bare : ∀ p, parser.node = some p → (parser.nodes p).next = none
  closed : ∀ tree ∈ trees.head?, parser.node = none ↔ tree.2 ≠ .nil

/-- What has become of a collection that began at `before`, once its entries are linked. -/
structure Built (before : Parser) (forest : Forest Label) (built : Parser) : Prop where
  stack : built.stack = before.pending
  node : built.node = some before.fresh
  level : built.level = before.level + 1
  fresh : before.fresh < built.fresh
  below : Shows built.cells (Set.Ico before.fresh built.fresh) (some before.fresh) forest
  under : ∀ q, before.node = some q →
    built.nodes q = { before.nodes q with child := some before.fresh }
  kept : ∀ i < before.fresh, before.node ≠ some i → built.nodes i = before.nodes i

theorem short_of_le {level : Int} (positive : 0 ≤ level) (bound : level < 2 ^ 15) :
    short level = level := by
  rw [short, Int.bmod_def]
  split
  · omega
  · omega

theorem short_lt (level : Int) : short level < 2 ^ 15 := by
  rw [short, Int.bmod_def]
  split
  · omega
  · omega

theorem short_ne_add_one {level : Int} (positive : 0 ≤ level) : short level ≠ level + 1 := by
  by_cases bound : level < 2 ^ 15
  · rw [short_of_le positive bound]
    omega
  · have small := short_lt level
    omega

theorem short_ne {level : Int} (large : 2 ^ 15 ≤ level) : short level ≠ level := by
  have small := short_lt level
  omega

/-- The level above is smaller, or nothing has this level. -/
theorem short_sub_one (level : Int) :
    short level ≤ 0 ∨ short (level - 1) < short level := by
  rw [short, short, Int.bmod_def, Int.bmod_def]
  split
  · split
    · omega
    · omega
  · split
    · omega
    · omega

namespace Parser

/-! ### A collection begins -/

section Open

variable {before : Parser}

theorem createChildNode_nodes (ready : before.Ready) (type : NodeType) (i : Nat) :
    (before.createChildNode type).nodes i =
      if i = before.fresh then
        { createNode with level := short (before.level + 1), type }
      else if before.node = some i then { before.nodes i with child := some before.fresh }
      else before.nodes i := by
  unfold createChildNode
  cases current : before.node with
  | none =>
      by_cases new : i = before.fresh
      · subst new
        simp
      · simp [new]
  | some q =>
      have old : q < before.fresh := ready.bounded q (by simp [pending, current])
      by_cases new : i = before.fresh
      · subst new
        have other : before.fresh ≠ q := by omega
        simp [Function.update_of_ne other]
      · by_cases same : q = i
        · subst same
          simp [new]
        · have other : i ≠ q := fun equal => same equal.symm
          simp [new, same, Function.update_of_ne other]

/-- The place of a collection that begins here. -/
def Ready.site (ready : before.Ready) (type : NodeType) : Site where
  ground := (before.createChildNode type).nodes
  base := before.fresh
  below := before.pending
  level := before.level + 1
  type := type
  bounded := ready.bounded
  positive := by
    have positive := ready.level
    omega
  other := by
    intro p top
    have old : p ≠ before.fresh :=
      (ready.bounded p (List.mem_of_mem_head? top)).ne
    have level : ((before.createChildNode type).nodes p).level = (before.nodes p).level := by
      rw [createChildNode_nodes ready, if_neg old]
      split
      · rfl
      · rfl
    rw [level, ready.top p top]
    exact short_ne_add_one ready.level

/-- At first a collection has one node, with nothing in it. -/
theorem Ready.opens (ready : before.Ready) (type : NodeType) :
    Row (ready.site type) [before.fresh] ∅ [(⟨none, none⟩, .nil)]
      (before.createChildNode type) := by
  have made : (before.createChildNode type).nodes before.fresh =
      { createNode with level := short (before.level + 1), type } := by
    rw [createChildNode_nodes ready, if_pos rfl]
  have current : (before.createChildNode type).node = some before.fresh := rfl
  have next : (before.createChildNode type).fresh = before.fresh + 1 := by
    unfold createChildNode
    cases before.node with
    | none => rfl
    | some q => rfl
  have stack : (before.createChildNode type).stack = before.pending := by
    unfold createChildNode
    cases before.node with
    | none => rfl
    | some q => rfl
  exact
    { pending := by
        rw [pending, current, stack]
        rfl
      level := rfl
      last := rfl
      nodup := List.nodup_singleton _
      range := by
        intro p member
        rw [List.mem_singleton.mp member, next]
        exact ⟨le_refl _, Nat.lt_succ_self _⟩
      inside := Set.empty_subset _
      apart := fun p _ => Set.notMem_empty p
      held := by
        refine List.Forall₂.cons ⟨?_, ?_, ?_, ?_⟩ .nil
        · simp only [cells, made, createNode]
        · simp only [made, createNode, Shows]
        · rw [made]
          rfl
        · rw [made]
          rfl
      kept := fun i _ => rfl
      bare := by
        intro p same
        cases current.symm.trans same
        rw [made]
        rfl
      closed := by
        intro tree top
        cases top
        simp [current] }

end Open

end Parser

/-! ### Scalars -/

section Scalars

variable {parser : Parser} {site : Site} {nodes : List Nat} {own : Set Nat}
  {trees : List (Label × Forest Label)}

/-- A node that stays the same is held as before, as long as all below it stays the same. -/
theorem Held.congr {other : Parser} {more : Set Nat} {p : Nat} {tree : Label × Forest Label}
    (held : Held parser own site p tree) (wider : own ⊆ more)
    (same : other.nodes p = parser.nodes p) (kept : ∀ i ∈ own, other.nodes i = parser.nodes i) :
    Held other more site p tree := by
  refine ⟨?_, ?_, ?_, ?_⟩
  · rw [← held.label]
    simp only [Parser.cells, same]
  · rw [same]
    apply held.below.congr wider
    · intro i member
      simp only [Parser.cells, kept i member]
    · intro i member
      simp only [Parser.cells, kept i member]
    · intro i member
      simp only [Parser.cells, kept i member]
  · rw [same]
    exact held.level
  · rw [same]
    exact held.type

/-- All nodes are held as before. -/
theorem held_congr {other : Parser} {more : Set Nat}
    (held : List.Forall₂ (Held parser own site) nodes trees) (wider : own ⊆ more)
    (same : ∀ p ∈ nodes, other.nodes p = parser.nodes p)
    (kept : ∀ i ∈ own, other.nodes i = parser.nodes i) :
    List.Forall₂ (Held other more site) nodes trees := by
  induction held with
  | nil => exact .nil
  | cons first _ rest =>
      refine .cons (first.congr wider (same _ (List.mem_cons_self ..)) kept) (rest ?_)
      intro p member
      exact same p (List.mem_cons_of_mem _ member)

/-- The current node is the last one that was read. -/
theorem Row.current {p q : Nat} (row : Row site (p :: nodes) own trees parser)
    (current : parser.node = some q) : q = p ∧ parser.stack = nodes ++ site.below := by
  have pending := row.pending
  rw [Parser.pending, current, Option.toList_some, List.cons_append, List.nil_append,
    List.cons_append] at pending
  injection pending with same rest
  exact ⟨same, rest⟩

/-- Something is written into the current node that is neither a link nor its level or type. -/
theorem Row.relabel {p : Nat} {old new : Label} {tree : Forest Label} {f : Node → Node}
    (row : Row site (p :: nodes) own ((old, tree) :: trees) parser)
    (current : parser.node = some p)
    (written : (⟨(f (parser.nodes p)).key, (f (parser.nodes p)).value⟩ : Label) = new)
    (child : (f (parser.nodes p)).child = (parser.nodes p).child)
    (next : (f (parser.nodes p)).next = (parser.nodes p).next)
    (level : (f (parser.nodes p)).level = (parser.nodes p).level)
    (type : (f (parser.nodes p)).type = (parser.nodes p).type) :
    Row site (p :: nodes) own ((new, tree) :: trees) (parser.modify p f) := by
  obtain ⟨absent, rest⟩ := List.nodup_cons.mp row.nodup
  have outside := row.apart p (List.mem_cons_self ..)
  have same : (parser.modify p f).nodes p = f (parser.nodes p) := by
    rw [Parser.modify_nodes, Function.update_self]
  have others : ∀ i, i ≠ p → (parser.modify p f).nodes i = parser.nodes i := by
    intro i other
    rw [Parser.modify_nodes, Function.update_of_ne other]
  have kept : ∀ i ∈ own, (parser.modify p f).nodes i = parser.nodes i := by
    intro i member
    apply others
    intro equal
    rw [equal] at member
    exact outside member
  cases row.held with
  | cons first held =>
      exact
        { pending := row.pending
          level := row.level
          last := row.last
          nodup := row.nodup
          range := row.range
          inside := row.inside
          apart := row.apart
          held := by
            refine .cons ⟨?_, ?_, ?_, ?_⟩ (held_congr held (subset_refl own) ?_ kept)
            · simp only [Parser.cells, same]
              exact written
            · rw [same, child]
              apply first.below.congr (subset_refl own)
              · intro i member
                simp only [Parser.cells, kept i member]
              · intro i member
                simp only [Parser.cells, kept i member]
              · intro i member
                simp only [Parser.cells, kept i member]
            · rw [same, level]
              exact first.level
            · rw [same, type]
              exact first.type
            · intro q member
              apply others
              intro equal
              rw [equal] at member
              exact absent member
          kept := by
            intro i inner
            have bound := (row.range p (List.mem_cons_self ..)).1
            rw [others i (by omega)]
            exact row.kept i inner
          bare := by
            intro q same'
            obtain ⟨rfl, -⟩ := row.current same'
            rw [same, next]
            exact row.bare q current
          closed := by
            intro tree' top
            cases top
            exact row.closed (old, tree) rfl }

/-- The entries that have been read are on the stack once the current node is. -/
theorem Row.head {p : Nat} {tree : Label × Forest Label}
    (row : Row site (p :: nodes) own (tree :: trees) parser) :
    Held parser own site p tree ∧ p < parser.fresh ∧ p ∉ own := by
  cases row.held with
  | cons first _ =>
      exact ⟨first, (row.range p (List.mem_cons_self ..)).2, row.apart p (List.mem_cons_self ..)⟩

/-- An entry is added whose node is new, and so is all that is below it. -/
theorem Row.cons {next : Parser} {more : Set Nat} {p : Nat} {tree : Label × Forest Label}
    (row : Row site nodes own trees parser)
    (pending : next.pending = p :: parser.pending) (level : next.level = parser.level)
    (range : parser.fresh ≤ p ∧ p < next.fresh)
    (wider : own ⊆ more) (inside : more ⊆ own ∪ Set.Ico parser.fresh next.fresh)
    (apart : p ∉ more) (held : Held next more site p tree)
    (kept : ∀ i < parser.fresh, next.nodes i = parser.nodes i)
    (bare : ∀ q, next.node = some q → (next.nodes q).next = none)
    (closed : next.node = none ↔ tree.2 ≠ .nil) :
    Row site (p :: nodes) more (tree :: trees) next := by
  have filled : nodes ≠ [] := by
    intro empty
    have last := row.last
    rw [empty] at last
    cases last
  have base : site.base ≤ parser.fresh := by
    have bound := row.range site.base (List.mem_of_mem_getLast? row.last)
    omega
  exact
    { pending := by rw [pending, row.pending, List.cons_append]
      level := level.trans row.level
      last := by
        rw [List.getLast?_cons, row.last, Option.getD_some]
      nodup := by
        refine List.nodup_cons.mpr ⟨?_, row.nodup⟩
        intro member
        have bound := row.range p member
        omega
      range := by
        intro q member
        obtain same | old := List.mem_cons.mp member
        · rw [same]
          omega
        · have bound := row.range q old
          omega
      inside := by
        intro i member
        obtain old | new := inside member
        · have bound := row.inside old
          rw [Set.mem_Ico] at bound ⊢
          omega
        · rw [Set.mem_Ico] at new ⊢
          omega
      apart := by
        intro q member
        obtain same | old := List.mem_cons.mp member
        · rw [same]
          exact apart
        · intro within
          obtain before | new := inside within
          · exact row.apart q old before
          · have bound := row.range q old
            rw [Set.mem_Ico] at new
            omega
      held := by
        refine .cons held (held_congr row.held wider ?_ ?_)
        · intro q member
          exact kept q (row.range q member).2
        · intro i member
          exact kept i (row.inside member).2
      kept := by
        intro i inner
        rw [kept i (by omega)]
        exact row.kept i inner
      bare := bare
      closed := by
        intro tree' top
        cases top
        exact closed }

/-- A scalar gets a node of its own, as the key of an entry. -/
theorem Row.createScalarNode (row : Row site nodes own trees parser) (text : List UInt8) :
    Row site (parser.fresh :: nodes) own ((⟨some text, none⟩, .nil) :: trees)
      (parser.createScalarNode text) := by
  obtain ⟨p, rest, rfl⟩ : ∃ p rest, nodes = p :: rest := by
    apply List.exists_cons_of_ne_nil
    intro empty
    have last := row.last
    rw [empty] at last
    cases last
  have stack : parser.pending = p :: (rest ++ site.below) := row.pending
  have type : (parser.nodes p).type = site.type := by
    cases row.held with
    | cons first _ => exact first.type
  have made : parser.createScalarNode text =
      { parser.push.alloc
          { createNode with
            type := site.type, level := short parser.level, key := some text
            keyLen := text.length } with
        node := some parser.fresh } := by
    simp only [Parser.createScalarNode, Parser.push_stack, stack, Parser.push_nodes, type]
  have new : (parser.createScalarNode text).nodes parser.fresh =
      { createNode with
        type := site.type, level := short parser.level, key := some text
        keyLen := text.length } := by
    rw [made]
    exact Function.update_self ..
  have kept : ∀ i < parser.fresh, (parser.createScalarNode text).nodes i = parser.nodes i := by
    intro i old
    rw [made]
    exact Function.update_of_ne old.ne _ _
  have current : (parser.createScalarNode text).node = some parser.fresh := by rw [made]
  apply row.cons
  · rw [made]
    rfl
  · rw [made]
    rfl
  · rw [made]
    exact ⟨le_refl _, Nat.lt_succ_self _⟩
  · exact subset_refl own
  · exact Set.subset_union_left
  · intro member
    exact (lt_irrefl _ (row.inside member).2)
  · refine ⟨?_, ?_, ?_, ?_⟩
    · simp only [Parser.cells, new, createNode]
    · rw [new]
      rfl
    · rw [new, ← row.level]
    · rw [new]
  · exact kept
  · intro q same
    cases current.symm.trans same
    rw [new]
    rfl
  · simp [current]

end Scalars

/-! ### A collection ends -/

section Link

variable {parser : Parser} {site : Site} {nodes : List Nat} {own : Set Nat}
  {trees : List (Label × Forest Label)}

/-- What the loop over the stack leaves when it links nodes of one level. -/
structure Linked (parser : Parser) (nodes below : List Nat) (own : Set Nat)
    (forest : Forest Label) (linked : Parser) : Prop where
  stack : linked.stack = below
  node : linked.node = nodes.getLast?.or parser.node
  level : linked.level = parser.level
  fresh : linked.fresh = parser.fresh
  shows : Shows linked.cells (own ∪ { i | i ∈ nodes }) linked.node forest
  kept : ∀ i ∉ nodes, linked.nodes i = parser.nodes i

/-- Nodes of the level of the parser are linked in front of what has been linked before. -/
theorem linkSiblings_linked {below : List Nat} {behind : Forest Label}
    (held : List.Forall₂ (Held parser own site) nodes trees)
    (level : nodes ≠ [] → short site.level = parser.level)
    (shows' : Shows parser.cells own parser.node behind) (nodup : nodes.Nodup)
    (apart : ∀ p ∈ nodes, p ∉ own)
    (other : ∀ p ∈ below.head?, p ∉ nodes ∧ (parser.nodes p).level ≠ parser.level) :
    Linked parser nodes below own (behind.graft trees)
      (parser.linkSiblings (nodes ++ below)) := by
  induction nodes generalizing parser own behind trees with
  | nil =>
      cases held
      have same : parser.linkSiblings below = { parser with stack := below } := by
        cases below with
        | nil => rfl
        | cons head rest =>
            rw [Parser.linkSiblings, if_neg (other head rfl).2]
      rw [List.nil_append, same]
      refine ⟨rfl, rfl, rfl, rfl, ?_, fun _ _ => rfl⟩
      exact shows'.mono Set.subset_union_left
  | cons p nodes rest =>
      cases held with
      | @cons _ tree _ trees first held =>
          obtain ⟨absent, nodup⟩ := List.nodup_cons.mp nodup
          have outside := apart p (List.mem_cons_self ..)
          have level := level (List.cons_ne_nil _ _)
          let next := parser.linkHead p
          have turn : parser.linkSiblings (p :: nodes ++ below) =
              next.linkSiblings (nodes ++ below) := by
            rw [List.cons_append, Parser.linkSiblings, if_pos (first.level.trans level)]
          have same : next.nodes p = { parser.nodes p with next := parser.node } :=
            Function.update_self ..
          have others : ∀ i, i ≠ p → next.nodes i = parser.nodes i :=
            fun i differs => Function.update_of_ne differs _ _
          have kept : ∀ i ∈ own, next.nodes i = parser.nodes i := by
            intro i member
            apply others
            intro equal
            rw [equal] at member
            exact outside member
          have cells : ∀ i ∈ own, next.cells.label i = parser.cells.label i ∧
              next.cells.child i = parser.cells.child i ∧
              next.cells.next i = parser.cells.next i := by
            intro i member
            simp only [Parser.cells, kept i member, and_self]
          have wider : own ⊆ insert p own := Set.subset_insert p own
          have linked : Shows next.cells (insert p own) next.node
              (.node tree.1 tree.2 behind) := by
            refine ⟨p, Set.mem_insert p own, rfl, ?_, ?_, ?_⟩
            · rw [← first.label]
              simp only [Parser.cells, same]
            · have down : next.cells.child p = (parser.nodes p).child := by
                simp only [Parser.cells, same]
              rw [down]
              exact first.below.congr wider (fun i member => (cells i member).1)
                (fun i member => (cells i member).2.1) (fun i member => (cells i member).2.2)
            · have right : next.cells.next p = parser.node := by
                simp only [Parser.cells, same]
              rw [right]
              exact shows'.congr wider (fun i member => (cells i member).1)
                (fun i member => (cells i member).2.1) (fun i member => (cells i member).2.2)
          have heldNext : List.Forall₂ (Held next (insert p own) site) nodes trees := by
            apply held_congr held wider
            · intro q member
              apply others
              intro equal
              rw [equal] at member
              exact absent member
            · exact kept
          have result := @rest next (insert p own) trees _ heldNext (fun _ => level) linked nodup
            (by
              intro q member within
              obtain equal | before := within
              · rw [equal] at member
                exact absent member
              · exact apart q (List.mem_cons_of_mem _ member) before)
            (by
              intro q top
              obtain ⟨separate, differs⟩ := other q top
              refine ⟨fun member => separate (List.mem_cons_of_mem _ member), ?_⟩
              have distinct : q ≠ p := by
                intro equal
                rw [equal] at separate
                exact separate (List.mem_cons_self ..)
              rw [others q distinct]
              exact differs)
          rw [turn]
          refine ⟨result.stack, ?_, result.level, result.fresh, ?_, ?_⟩
          · rw [result.node, List.getLast?_cons]
            cases nodes.getLast? with
            | none => rfl
            | some last => rfl
          · have all : insert p own ∪ { i | i ∈ nodes } = own ∪ { i | i ∈ p :: nodes } := by
              ext i
              simp only [Set.mem_union, Set.mem_insert_iff, Set.mem_ofPred_eq, List.mem_cons]
              tauto
            rw [← all]
            exact result.shows
          · intro i absent'
            rw [result.kept i (fun member => absent' (List.mem_cons_of_mem _ member))]
            apply others
            intro equal
            rw [equal] at absent'
            exact absent' (List.mem_cons_self ..)

/-- The entries of a collection are linked when it ends: the current node, which is not on the
stack, stays the last one. -/
theorem Row.linked (row : Row site nodes own trees parser)
    (fits : site.level < 2 ^ 15 ∨ ∃ p, nodes = [p] ∧ parser.node = some p) :
    Linked parser nodes site.below own (Forest.nil.graft trees)
      (parser.linkSiblings parser.stack) := by
  have level : site.level < 2 ^ 15 → short site.level = parser.level := by
    intro bound
    have positive := site.positive
    rw [row.level, short_of_le (by omega) bound]
  have other : ∀ p ∈ site.below.head?, p ∉ nodes ∧ (parser.nodes p).level ≠ parser.level := by
    intro p top
    have old := site.bounded p (List.mem_of_mem_head? top)
    constructor
    · intro member
      have bound := (row.range p member).1
      omega
    · rw [row.kept p old, row.level]
      exact site.other p top
  cases current : parser.node with
  | none =>
      have stack : parser.stack = nodes ++ site.below := by
        have pending := row.pending
        rw [Parser.pending, current, Option.toList_none, List.nil_append] at pending
        exact pending
      rw [stack]
      refine linkSiblings_linked row.held (fun _ => ?_) current row.nodup row.apart other
      obtain bound | ⟨p, -, same⟩ := fits
      · exact level bound
      · rw [current] at same
        cases same
  | some p =>
      obtain ⟨q, rest, rfl⟩ : ∃ q rest, nodes = q :: rest := by
        apply List.exists_cons_of_ne_nil
        intro empty
        have last := row.last
        rw [empty] at last
        cases last
      obtain ⟨rfl, stack⟩ := row.current current
      obtain ⟨absent, nodup⟩ := List.nodup_cons.mp row.nodup
      rw [stack]
      cases row.held with
      | @cons _ tree _ trees first held =>
          have wider : own ⊆ insert p own := Set.subset_insert p own
          have begun : Shows parser.cells (insert p own) parser.node
              (.node tree.1 tree.2 .nil) := by
            refine ⟨p, Set.mem_insert p own, current, first.label, ?_, row.bare p current⟩
            exact first.below.mono wider
          have result := linkSiblings_linked
            (held_congr held wider (fun _ _ => rfl) (fun _ _ => rfl))
            (fun filled => by
              obtain bound | ⟨q, single, -⟩ := fits
              · exact level bound
              · injection single with _ empty
                exact absurd empty filled)
            begun nodup
            (by
              intro q member within
              obtain equal | before := within
              · rw [equal] at member
                exact absent member
              · exact row.apart q (List.mem_cons_of_mem _ member) before)
            (by
              intro q top
              obtain ⟨separate, differs⟩ := other q top
              exact ⟨fun member => separate (List.mem_cons_of_mem _ member), differs⟩)
          refine ⟨result.stack, ?_, result.level, result.fresh, ?_, ?_⟩
          · rw [result.node, current, List.getLast?_cons]
            cases rest.getLast? with
            | none => rfl
            | some last => rfl
          · have all : insert p own ∪ { i | i ∈ rest } = own ∪ { i | i ∈ p :: rest } := by
              ext i
              simp only [Set.mem_union, Set.mem_insert_iff, Set.mem_ofPred_eq, List.mem_cons]
              tauto
            rw [← all]
            exact result.shows
          · intro i outside
            exact result.kept i (fun member => outside (List.mem_cons_of_mem _ member))

/-- When its collection ends, a row of entries becomes the forest that `before` is to have. -/
theorem Row.built {before : Parser} (ready : before.Ready) {type : NodeType}
    (row : Row (ready.site type) nodes own trees parser)
    (fits : before.level + 1 < 2 ^ 15 ∨ ∃ p, nodes = [p] ∧ parser.node = some p) :
    Built before (Forest.nil.graft trees) (parser.linkSiblings parser.stack) := by
  have linked := row.linked fits
  have node : (parser.linkSiblings parser.stack).node = some before.fresh := by
    have last : nodes.getLast? = some before.fresh := row.last
    rw [linked.node, last, Option.some_or]
  have kept : ∀ i < before.fresh, (parser.linkSiblings parser.stack).nodes i =
      (before.createChildNode type).nodes i := by
    intro i old
    rw [linked.kept i]
    · exact row.kept i old
    · intro member
      have bound : before.fresh ≤ i := (row.range i member).1
      omega
  have range : before.fresh < parser.fresh :=
    (row.range before.fresh (List.mem_of_mem_getLast? row.last)).2
  refine ⟨linked.stack, node, ?_, ?_, ?_, ?_, ?_⟩
  · rw [linked.level, row.level]
    rfl
  · rw [linked.fresh]
    exact range
  · rw [← node, linked.fresh]
    apply linked.shows.mono
    intro i member
    obtain within | named := member
    · exact row.inside within
    · exact row.range i named
  · intro q current
    have old : q < before.fresh := ready.bounded q (by simp [Parser.pending, current])
    rw [kept q old, Parser.createChildNode_nodes ready, if_neg old.ne, if_pos current]
  · intro i old other
    rw [kept i old, Parser.createChildNode_nodes ready, if_neg old.ne, if_neg other]

end Link

/-! ### A collection within another one -/

section Nest

variable {parser built : Parser} {site : Site} {nodes : List Nat} {own : Set Nat}
  {trees : List (Label × Forest Label)}

/-- Between two entries, and behind a key, a collection can begin. -/
theorem Row.ready (row : Row site nodes own trees parser) : parser.Ready := by
  have filled : nodes ≠ [] := by
    intro empty
    have last := row.last
    rw [empty] at last
    cases last
  obtain ⟨p, rest, rfl⟩ := List.exists_cons_of_ne_nil filled
  refine ⟨?_, ?_, ?_⟩
  · intro q member
    rw [row.pending] at member
    obtain within | below := List.mem_append.mp member
    · exact (row.range q within).2
    · have bound := row.range site.base (List.mem_of_mem_getLast? row.last)
      have old := site.bounded q below
      omega
  · rw [row.level]
    have positive := site.positive
    omega
  · intro q top
    rw [row.pending] at top
    cases top
    cases row.held with
    | cons first _ =>
        rw [row.level]
        exact first.level

/-- A collection is complete that belongs to the current node: it is below this node. -/
theorem Row.under {p : Nat} {label : Label} {old forest : Forest Label}
    (row : Row site (p :: nodes) own ((label, old) :: trees) parser)
    (current : parser.node = some p) (filled : forest ≠ .nil)
    (complete : Built parser forest built) :
    ∃ more, Row site (p :: nodes) more ((label, forest) :: trees) built.attach ∧
      built.attach.node = none := by
  obtain ⟨absent, nodup⟩ := List.nodup_cons.mp row.nodup
  have outside := row.apart p (List.mem_cons_self ..)
  have bound := row.range p (List.mem_cons_self ..)
  have stack : built.stack = p :: (nodes ++ site.below) := complete.stack.trans row.pending
  have same := complete.under p current
  have attached : built.attach = { built with level := built.level - 1, node := none } := by
    have linked : (built.nodes p).child = built.node := by
      rw [same, complete.node]
    simp only [Parser.attach, stack, linked, if_true]
  have others : ∀ i < parser.fresh, i ≠ p → built.nodes i = parser.nodes i := by
    intro i before differs
    apply complete.kept i before
    intro equal
    rw [current] at equal
    injection equal with equal
    exact differs equal.symm
  have kept : ∀ i ∈ own, built.nodes i = parser.nodes i := by
    intro i member
    apply others i (row.inside member).2
    intro equal
    rw [equal] at member
    exact outside member
  refine ⟨own ∪ Set.Ico parser.fresh built.fresh, ?_, by rw [attached]⟩
  rw [attached]
  cases row.held with
  | cons first held =>
      exact
        { pending := by
            rw [Parser.pending]
            exact stack
          level := by
            have level := complete.level
            have level' := row.level
            show built.level - 1 = site.level
            omega
          last := row.last
          nodup := row.nodup
          range := by
            intro q member
            have range := row.range q member
            exact ⟨range.1, range.2.trans complete.fresh⟩
          inside := by
            intro i member
            obtain before | new := member
            · have range := row.inside before
              exact ⟨range.1, range.2.trans complete.fresh⟩
            · have range := row.range p (List.mem_cons_self ..)
              rw [Set.mem_Ico] at new ⊢
              exact ⟨by omega, new.2⟩
          apart := by
            intro q member within
            obtain before | new := within
            · exact row.apart q member before
            · have range := row.range q member
              rw [Set.mem_Ico] at new
              omega
          held := by
            refine .cons ⟨?_, ?_, ?_, ?_⟩ (held_congr held Set.subset_union_left ?_ kept)
            · rw [← first.label]
              simp only [Parser.cells, same]
            · rw [same]
              exact complete.below.mono Set.subset_union_right
            · rw [same]
              exact first.level
            · rw [same]
              exact first.type
            · intro q member
              apply others q (row.range q (List.mem_cons_of_mem _ member)).2
              intro equal
              rw [equal] at member
              exact absent member
          kept := by
            intro i inner
            have range := row.range p (List.mem_cons_self ..)
            rw [others i (by omega) (by omega)]
            exact row.kept i inner
          bare := nofun
          closed := by
            intro tree top
            cases top
            exact iff_of_true rfl filled }

/-- A collection is complete that belongs to no node: a node is made for it. -/
theorem Row.item {forest : Forest Label} (row : Row site nodes own trees parser)
    (between : parser.node = none) (filled : forest ≠ .nil)
    (complete : Built parser forest built) :
    ∃ p more, Row site (p :: nodes) more ((⟨none, none⟩, forest) :: trees) built.attach ∧
      built.attach.node = none := by
  obtain ⟨p, rest, rfl⟩ : ∃ p rest, nodes = p :: rest := by
    apply List.exists_cons_of_ne_nil
    intro empty
    have last := row.last
    rw [empty] at last
    cases last
  have range := row.range p (List.mem_cons_self ..)
  have stack : built.stack = p :: (rest ++ site.below) := complete.stack.trans row.pending
  have kept : ∀ i < parser.fresh, built.nodes i = parser.nodes i := by
    intro i old
    apply complete.kept i old
    rw [between]
    exact (Option.some_ne_none i).symm
  obtain ⟨tree, others, rfl⟩ : ∃ tree others, trees = tree :: others := by
    cases row.held with
    | cons first held => exact ⟨_, _, rfl⟩
  obtain ⟨first, -, -⟩ := row.head
  -- what is below the top of the stack is older than what has been linked
  have other : (built.nodes p).child ≠ built.node := by
    rw [kept p range.2, complete.node]
    intro same
    have below := first.below
    rw [same] at below
    exact lt_irrefl _ (row.inside below.mem).2
  have attached : built.attach = built.addSibling p := by
    simp only [Parser.attach, stack, if_neg other]
  have new : built.attach.nodes built.fresh =
      { createNode with
        level := short (built.level - 1), type := site.type, child := some parser.fresh } := by
    have type : (built.nodes p).type = site.type := by
      rw [kept p range.2]
      exact first.type
    rw [attached, Parser.addSibling_nodes, Function.update_self, type, complete.node]
  have old : ∀ i < built.fresh, built.attach.nodes i = built.nodes i := by
    intro i before
    rw [attached, Parser.addSibling_nodes, Function.update_of_ne before.ne]
  have grown := complete.fresh
  have next : built.attach.fresh = built.fresh + 1 := by
    rw [attached]
    rfl
  have level : built.level - 1 = parser.level := by
    have level := complete.level
    omega
  have node : built.attach.node = none := by
    rw [attached]
    rfl
  refine ⟨built.fresh, own ∪ Set.Ico parser.fresh built.fresh, ?_, node⟩
  apply row.cons
  · rw [Parser.pending, node, ← complete.stack, attached]
    rfl
  · rw [attached]
    exact level
  · rw [next]
    omega
  · exact Set.subset_union_left
  · intro i member
    refine member.imp_right fun new => ?_
    rw [next]
    rw [Set.mem_Ico] at new ⊢
    omega
  · intro member
    obtain before | new := member
    · have bound := (row.inside before).2
      omega
    · exact lt_irrefl _ new.2
  · refine ⟨?_, ?_, ?_, ?_⟩
    · simp only [Parser.cells, new, createNode]
    · rw [new]
      apply (complete.below.mono Set.subset_union_right).congr (subset_refl _)
      all_goals
        intro i member
        have bound : i < built.fresh := by
          obtain before | new := member
          · have bound := (row.inside before).2
            omega
          · exact new.2
        simp only [Parser.cells, old i bound]
    · rw [new, level, row.level]
    · rw [new]
  · intro i before
    rw [old i (by omega), kept i before]
  · rw [node]
    exact nofun
  · exact iff_of_true node filled

end Nest

end Yaml
