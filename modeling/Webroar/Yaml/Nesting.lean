import Webroar.Yaml.Builder

/-! # Collections that are nested too deep

The level of a node is a `short`. Entries at a level that does not fit are never linked: one of
them stays on the stack, with a node above it that is made anew whenever it is taken away. At the
end of the stream nothing is returned.
-/

namespace Yaml

open Forest (Shows)

/-- The node `t` is never taken from the stack: the one above it, `x`, is not below it, and nothing
ends at the level of `t` before something ends at the level of `x`. -/
structure Jam (parser : Parser) (x t : Nat) : Prop where
  stack : ∃ above below, parser.stack = above ++ x :: t :: below
  upper : x < parser.fresh
  lower : t < parser.fresh
  short : (parser.nodes t).level < 2 ^ 15
  level : (parser.nodes t).level ≤ 0 ∨ (parser.nodes x).level < (parser.nodes t).level
  child : ∀ c, (parser.nodes t).child = some c → c < parser.fresh ∧ c ≠ x
  node : parser.node ≠ some t

/-- Some node is never taken from the stack. -/
def Stuck (parser : Parser) : Prop := ∃ x t, Jam parser x t

/-- The jam is still on a stack that has grown. -/
theorem Jam.grown {parser next : Parser} {x t : Nat} (jam : Jam parser x t) {more : List Nat}
    (stack : next.stack = more ++ parser.stack) :
    ∃ above below, next.stack = above ++ x :: t :: below := by
  obtain ⟨above, below, placed⟩ := jam.stack
  refine ⟨more ++ above, below, ?_⟩
  rw [stack, placed, List.append_assoc]

/-- The jam stays when neither of its nodes is changed. -/
theorem Jam.keep {parser next : Parser} {x t : Nat} (jam : Jam parser x t)
    (stack : ∃ above below, next.stack = above ++ x :: t :: below)
    (fresh : parser.fresh ≤ next.fresh)
    (upper : (next.nodes x).level = (parser.nodes x).level)
    (lower : (next.nodes t).level = (parser.nodes t).level)
    (child : (next.nodes t).child = (parser.nodes t).child) (node : next.node ≠ some t) :
    Jam next x t := by
  refine ⟨stack, jam.upper.trans_le fresh, jam.lower.trans_le fresh, ?_, ?_, ?_, node⟩
  · rw [lower]
    exact jam.short
  · rw [lower, upper]
    exact jam.level
  · intro c linked
    rw [child] at linked
    obtain ⟨old, other⟩ := jam.child c linked
    exact ⟨old.trans_le fresh, other⟩

namespace Parser

/-! ### Events that add to the stack -/

theorem stuck_createChildNode {parser : Parser} (stuck : Stuck parser) (type : NodeType) :
    Stuck (parser.createChildNode type) := by
  obtain ⟨x, t, jam⟩ := stuck
  have new : (parser.createChildNode type).node = some parser.fresh := rfl
  have node : (parser.createChildNode type).node ≠ some t := by
    rw [new]
    intro same
    injection same with same
    exact jam.lower.ne same.symm
  refine ⟨x, t, ?_⟩
  cases current : parser.node with
  | none =>
      have made : (parser.createChildNode type).nodes =
          Function.update parser.nodes parser.fresh
            { createNode with level := Yaml.short (parser.level + 1), type } := by
        simp only [createChildNode, current, alloc_nodes, push_nodes, push_fresh]
      apply jam.keep
      · refine @Jam.grown parser _ x t jam [] ?_
        simp [createChildNode, current, alloc, push]
      · simp [createChildNode, current]
      · rw [made, Function.update_of_ne jam.upper.ne]
      · rw [made, Function.update_of_ne jam.lower.ne]
      · rw [made, Function.update_of_ne jam.lower.ne]
      · exact node
  | some q =>
      have other : t ≠ q := by
        intro same
        rw [same] at jam
        exact jam.node current
      have kept : ∀ i < parser.fresh, ((parser.createChildNode type).nodes i).level =
          (parser.nodes i).level := by
        intro i old
        by_cases same : i = q
        · subst same
          simp [createChildNode, current, old.ne]
        · simp [createChildNode, current, old.ne, same, Function.update_of_ne]
      apply jam.keep
      · refine @Jam.grown parser _ x t jam [q] ?_
        simp [createChildNode, current, alloc, modify, push]
      · simp [createChildNode, current]
      · exact kept x jam.upper
      · exact kept t jam.lower
      · simp [createChildNode, current, jam.lower.ne, other, Function.update_of_ne]
      · exact node

theorem stuck_createScalarNode {parser : Parser} (stuck : Stuck parser) (text : List UInt8) :
    Stuck (parser.createScalarNode text) := by
  obtain ⟨x, t, jam⟩ := stuck
  have kept : ∀ i < parser.fresh,
      (parser.createScalarNode text).nodes i = parser.nodes i := by
    intro i old
    exact Function.update_of_ne old.ne _ _
  refine ⟨x, t, ?_⟩
  apply jam.keep
  · exact @Jam.grown parser _ x t jam parser.node.toList rfl
  · exact Nat.le_succ _
  · rw [kept x jam.upper]
  · rw [kept t jam.lower]
  · rw [kept t jam.lower]
  · intro same
    injection same with same
    exact jam.lower.ne same.symm

/-- A change of the current node that leaves its level alone. -/
theorem stuck_modify {parser : Parser} (stuck : Stuck parser) {q : Nat}
    (current : parser.node = some q) {f : Node → Node}
    (level : (f (parser.nodes q)).level = (parser.nodes q).level) :
    Stuck (parser.modify q f) := by
  obtain ⟨x, t, jam⟩ := stuck
  have other : t ≠ q := by
    intro same
    rw [same] at jam
    exact jam.node current
  refine ⟨x, t, ?_⟩
  apply jam.keep
  · exact jam.stack
  · exact le_refl _
  · by_cases same : x = q
    · subst same
      rw [modify_nodes, Function.update_self]
      exact level
    · rw [modify_nodes, Function.update_of_ne same]
  · rw [modify_nodes, Function.update_of_ne other]
  · rw [modify_nodes, Function.update_of_ne other]
  · exact jam.node

theorem stuck_scalar {parser : Parser} (stuck : Stuck parser) (text : List UInt8) :
    Stuck (parser.scalar text) := by
  unfold scalar
  cases current : parser.node with
  | none => exact stuck_createScalarNode stuck text
  | some q =>
      dsimp only
      split
      · exact stuck_modify stuck current rfl
      · split
        · exact stuck_createScalarNode stuck text
        · split
          · exact stuck_modify stuck current rfl
          · exact stuck_createScalarNode stuck text

/-! ### The end of a collection -/

/-- Linking changes neither levels nor links to children. -/
theorem linkHead_frame (parser : Parser) (head i : Nat) :
    ((parser.linkHead head).nodes i).level = (parser.nodes i).level ∧
      ((parser.linkHead head).nodes i).child = (parser.nodes i).child := by
  rw [linkHead_nodes]
  by_cases same : i = head
  · subst same
    simp
  · simp [Function.update_of_ne same]

theorem linkSiblings_frame (parser : Parser) (stack : List Nat) :
    (parser.linkSiblings stack).fresh = parser.fresh ∧
      (parser.linkSiblings stack).level = parser.level ∧
      ∀ i, ((parser.linkSiblings stack).nodes i).level = (parser.nodes i).level ∧
        ((parser.linkSiblings stack).nodes i).child = (parser.nodes i).child := by
  induction stack generalizing parser with
  | nil => exact ⟨rfl, rfl, fun _ => ⟨rfl, rfl⟩⟩
  | cons head rest ih =>
      rw [linkSiblings]
      split
      · obtain ⟨fresh, level, same⟩ := ih (parser.linkHead head)
        refine ⟨fresh, level, fun i => ?_⟩
        rw [(same i).1, (same i).2]
        exact linkHead_frame parser head i
      · exact ⟨rfl, rfl, fun _ => ⟨rfl, rfl⟩⟩

/-- Where the loop over the stack ends: above the jam, or between its nodes. -/
theorem linkSiblings_jam {parser : Parser} {x t : Nat} {above below : List Nat}
    (other : (parser.nodes x).level = parser.level → (parser.nodes t).level ≠ parser.level) :
    (∃ more, (parser.linkSiblings (above ++ x :: t :: below)).stack =
        more ++ x :: t :: below) ∨
      ((parser.linkSiblings (above ++ x :: t :: below)).stack = t :: below ∧
        (parser.linkSiblings (above ++ x :: t :: below)).node = some x ∧
        (parser.nodes x).level = parser.level) := by
  induction above generalizing parser with
  | nil =>
      rw [List.nil_append, linkSiblings]
      by_cases level : (parser.nodes x).level = parser.level
      · have stays : ((parser.linkHead x).nodes t).level ≠ (parser.linkHead x).level := by
          rw [(linkHead_frame parser x t).1]
          exact other level
        rw [if_pos level, linkSiblings, if_neg stays]
        exact .inr ⟨rfl, rfl, level⟩
      · rw [if_neg level]
        exact .inl ⟨[], rfl⟩
  | cons head above ih =>
      rw [List.cons_append, linkSiblings]
      by_cases level : (parser.nodes head).level = parser.level
      · have result := @ih (parser.linkHead head) (by
          rw [(linkHead_frame parser head x).1, (linkHead_frame parser head t).1]
          exact other)
        rw [(linkHead_frame parser head x).1] at result
        rw [if_pos level]
        exact result
      · rw [if_neg level]
        exact .inl ⟨head :: above, rfl⟩

/-- What has been linked is put below the top of the stack, or below a new node. -/
theorem attach_cases {parser : Parser} {head : Nat} {rest : List Nat}
    (stack : parser.stack = head :: rest) :
    ((parser.nodes head).child = parser.node ∧
        parser.attach = { parser with level := parser.level - 1, node := none }) ∨
      ((parser.nodes head).child ≠ parser.node ∧ parser.attach = parser.addSibling head) := by
  by_cases linked : (parser.nodes head).child = parser.node
  · refine .inl ⟨linked, ?_⟩
    simp only [attach, stack, if_pos linked]
  · refine .inr ⟨linked, ?_⟩
    simp only [attach, stack, if_neg linked]

/-- A node stays on the stack when a new one is put above it that is at a smaller level. -/
theorem jam_addSibling {parser : Parser} {t : Nat} {rest : List Nat}
    (stack : parser.stack = t :: rest) (old : t < parser.fresh)
    (small : (parser.nodes t).level < 2 ^ 15)
    (level : (parser.nodes t).level ≤ 0 ∨
      Yaml.short (parser.level - 1) < (parser.nodes t).level)
    (child : ∀ c, (parser.nodes t).child = some c → c < parser.fresh) :
    Jam (parser.addSibling t) parser.fresh t := by
  have lower : (parser.addSibling t).nodes t = parser.nodes t := by
    rw [addSibling_nodes, Function.update_of_ne old.ne]
  have upper : ((parser.addSibling t).nodes parser.fresh).level =
      Yaml.short (parser.level - 1) := by
    rw [addSibling_nodes, Function.update_self]
  constructor
  · refine ⟨[], rest, ?_⟩
    rw [← stack]
    rfl
  · exact Nat.lt_succ_self _
  · exact Nat.lt_succ_of_lt old
  · rw [lower]
    exact small
  · rw [lower, upper]
    exact level
  · intro c linked
    rw [lower] at linked
    exact ⟨Nat.lt_succ_of_lt (child c linked), (child c linked).ne⟩
  · exact nofun

theorem stuck_setSiblingNodes {parser : Parser} (stuck : Stuck parser)
    (positive : 1 ≤ parser.level) :
    Stuck parser.setSiblingNodes ∧ parser.setSiblingNodes.level = parser.level - 1 ∧
      parser.setSiblingNodes.node = none := by
  obtain ⟨x, t, jam⟩ := stuck
  obtain ⟨above, below, stack⟩ := jam.stack
  have other : (parser.nodes x).level = parser.level →
      (parser.nodes t).level ≠ parser.level := by
    intro same equal
    obtain small | less := jam.level
    · omega
    · omega
  have placed := @linkSiblings_jam parser x t above below other
  rw [← stack] at placed
  unfold setSiblingNodes
  generalize linked : parser.linkSiblings parser.stack = done at placed ⊢
  obtain ⟨fresh, level, same⟩ := linkSiblings_frame parser parser.stack
  rw [linked] at fresh level same
  obtain ⟨more, still⟩ | ⟨between, node, reached⟩ := placed
  · obtain ⟨head, rest, top⟩ : ∃ head rest, done.stack = head :: rest := by
      apply List.exists_cons_of_ne_nil
      rw [still]
      simp
    obtain ⟨-, attached⟩ | ⟨-, attached⟩ := attach_cases top
    · rw [attached]
      refine ⟨⟨x, t, ?_⟩, by rw [← level], rfl⟩
      apply jam.keep
      · exact ⟨more, below, still⟩
      · exact fresh.ge
      · exact (same x).1
      · exact (same t).1
      · exact (same t).2
      · exact nofun
    · have old : ∀ i < parser.fresh, (done.addSibling head).nodes i = done.nodes i := by
        intro i before
        rw [addSibling_nodes, fresh, Function.update_of_ne before.ne]
      rw [attached]
      refine ⟨⟨x, t, ?_⟩, by rw [← level]; rfl, rfl⟩
      apply jam.keep
      · refine ⟨done.fresh :: more, below, ?_⟩
        rw [List.cons_append, ← still]
        rfl
      · exact fresh.ge.trans (Nat.le_succ _)
      · rw [old x jam.upper]
        exact (same x).1
      · rw [old t jam.lower]
        exact (same t).1
      · rw [old t jam.lower]
        exact (same t).2
      · exact nofun
  · -- the node above `t` is gone; it is put below a new one
    have separate : (done.nodes t).child ≠ done.node := by
      rw [(same t).2, node]
      intro linked
      exact (jam.child x linked).2 rfl
    obtain ⟨linked, -⟩ | ⟨-, attached⟩ := attach_cases between
    · exact absurd linked separate
    · rw [attached]
      refine ⟨⟨done.fresh, t, ?_⟩, by rw [← level]; rfl, rfl⟩
      apply jam_addSibling between
      · rw [fresh]
        exact jam.lower
      · rw [(same t).1]
        exact jam.short
      · rw [(same t).1, level]
        refine jam.level.imp_right fun less => ?_
        have small := jam.short
        rw [short_of_le (by omega) (by omega)]
        omega
      · intro c linked
        rw [(same t).2] at linked
        rw [fresh]
        exact (jam.child c linked).1

end Parser

section Deep

variable {parser : Parser} {site : Site} {nodes : List Nat} {own : Set Nat}
  {trees : List (Label × Forest Label)}

/-- At a level that does not fit, the end of a collection leaves an entry on the stack. -/
theorem Row.stuck (row : Row site nodes own trees parser) (deep : 2 ^ 15 ≤ site.level)
    (several : ¬ ∃ p, nodes = [p] ∧ parser.node = some p) :
    Stuck parser.setSiblingNodes ∧ parser.setSiblingNodes.level = parser.level - 1 ∧
      parser.setSiblingNodes.node = none := by
  obtain ⟨t, below, tree, stack, held, old, other⟩ : ∃ t below tree,
      parser.stack = t :: below ∧ Held parser own site t tree ∧ t < parser.fresh ∧
        (parser.nodes t).child ≠ parser.node := by
    obtain ⟨p, rest, rfl⟩ : ∃ p rest, nodes = p :: rest := by
      apply List.exists_cons_of_ne_nil
      intro empty
      have last := row.last
      rw [empty] at last
      cases last
    obtain ⟨tree, trees, rfl⟩ : ∃ tree others, trees = tree :: others := by
      cases row.held with
      | cons first held => exact ⟨_, _, rfl⟩
    cases current : parser.node with
    | none =>
        obtain ⟨first, old, -⟩ := row.head
        have stack : parser.stack = p :: (rest ++ site.below) := by
          have pending := row.pending
          rw [Parser.pending, current, Option.toList_none, List.nil_append] at pending
          exact pending
        have filled := (row.closed tree rfl).mp current
        exact ⟨p, _, tree, stack, first, old, first.below.ne_none filled⟩
    | some q =>
        obtain ⟨rfl, stack⟩ := row.current current
        obtain ⟨t, rest, rfl⟩ : ∃ t more, rest = t :: more := by
          apply List.exists_cons_of_ne_nil
          intro empty
          rw [empty] at several
          exact several ⟨q, rfl, current⟩
        have member : t ∈ q :: t :: rest := List.mem_cons_of_mem _ (List.mem_cons_self ..)
        cases row.held with
        | cons _ held =>
            cases held with
            | cons second _ =>
                refine ⟨t, _, _, stack, second, (row.range t member).2, ?_⟩
                intro linked
                have below := second.below
                rw [linked] at below
                exact row.apart q (List.mem_cons_self ..) below.mem
  have level : (parser.nodes t).level ≠ parser.level := by
    rw [held.level, row.level]
    exact short_ne deep
  have stays : parser.linkSiblings parser.stack = parser := by
    rw [stack, Parser.linkSiblings, if_neg level, ← stack]
  unfold Parser.setSiblingNodes
  rw [stays]
  obtain ⟨linked, -⟩ | ⟨-, attached⟩ := Parser.attach_cases stack
  · exact absurd linked other
  · rw [attached]
    refine ⟨⟨parser.fresh, t, ?_⟩, rfl, rfl⟩
    apply Parser.jam_addSibling stack old
    · rw [held.level]
      exact short_lt _
    · rw [held.level, row.level]
      exact short_sub_one _
    · intro c linked
      have below := held.below
      rw [linked] at below
      exact (row.inside below.mem).2

end Deep

end Yaml
