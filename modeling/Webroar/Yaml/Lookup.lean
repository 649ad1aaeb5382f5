import Webroar.Library.Chars
import Webroar.Yaml.Document

/-! # Values of a YAML document

`yaml_get_node` goes down from level to level along a path of keys. The levels above the last one
are compared with the length of the key, the last one only as C strings; a key that has a byte 0 in
it is taken for what stands in front of that byte.
-/

namespace Yaml

/-- The C string at the beginning of some bytes. -/
def cText (bytes : List UInt8) : List UInt8 := bytes.takeWhile (· ≠ 0)

/-- `key_len`. -/
def Label.keyLen (label : Label) : Nat := (label.key.map List.length).getD 0

/-- The comparison of a part of the path with the key of a node, by `strncmp`. -/
def keyIs (part : List UInt8) (label : Label) : Bool :=
  label.keyLen = part.length && cText (label.key.getD []) = cText part

/-- `yaml_get_node`, for the parts of the path. -/
def getNode : List (List UInt8) → Forest Label → Forest Label
  | [], _ => .nil
  | [xpath], node =>
      if xpath = ascii "*" then node
      else node.first fun label => label.key.any fun key => cText key = cText xpath
  | part :: rest, node =>
      if part = ascii "*" then node.firstBelow (fun _ => true) (getNode rest)
      else node.firstBelow (keyIs part) (getNode rest)

/-- `yaml_get_node`. -/
def yamlGetNode (root : Forest Label) (xpath : List UInt8) : Forest Label :=
  getNode (xpath.splitOn 47) root

/-- `yaml_get_value`. -/
def yamlGetValue (root : Forest Label) (xpath : List UInt8) : Option (List UInt8) :=
  (yamlGetNode root xpath).root?.bind Label.value

/-! ### What a path leads to -/

/-- Keys, or `*`, from the root of the document on. -/
structure Path where
  above : List (List UInt8)
  last : List UInt8
  part : ∀ part ∈ above ++ [last], part ≠ [] ∧ 47 ∉ part ∧ 0 ∉ part

namespace Path

def parts (path : Path) : List (List UInt8) := path.above ++ [path.last]

/-- The parts with slashes between them. -/
def text (path : Path) : List UInt8 := [47].intercalate path.parts

end Path

/-- A part of a path stands for this label. -/
def Label.named (part : List UInt8) (label : Label) : Bool :=
  part = ascii "*" || label.key = some part

/-- A part of a path stands for this label, or for the beginning of its key up to a byte 0. -/
def Label.reads (part : List UInt8) (label : Label) : Bool :=
  part = ascii "*" || label.key.map cText = some part

/-- The path leads to the node with these labels on the way to it and in it. -/
def Path.leads (path : Path) : List Label → Bool :=
  Forest.along (path.above.map Label.named ++ [Label.named path.last])

/-- The path leads to the node if its key is read up to a byte 0. -/
def Path.meets (path : Path) : List Label → Bool :=
  Forest.along (path.above.map Label.named ++ [Label.reads path.last])

/-- The value in the first node of the document to which the path leads. -/
def valueAt (forest : Forest Label) (path : Path) : Option (List UInt8) :=
  ((forest.walk.find? path.leads).bind List.getLast?).bind Label.value

/-- Before any node to which the path leads there is one of which the key only begins as the path
ends, with a byte 0 behind, and that has another value. -/
def Masked (forest : Forest Label) (path : Path) : Prop :=
  ∃ labels, forest.walk.find? path.meets = some labels ∧ path.leads labels = false ∧
    labels.getLast?.bind Label.value ≠ valueAt forest path

theorem cText_of_not_mem {bytes : List UInt8} (plain : (0 : UInt8) ∉ bytes) :
    cText bytes = bytes := by
  apply List.takeWhile_eq_self_iff.mpr
  intro b member
  simp only [decide_eq_true_eq]
  intro zero
  rw [zero] at member
  exact plain member

/-- A key of the same length that is the same C string is the same. -/
theorem keyIs_eq {part : List UInt8} (filled : part ≠ []) (plain : (0 : UInt8) ∉ part)
    (label : Label) : keyIs part label = decide (label.key = some part) := by
  rw [Bool.eq_iff_iff, decide_eq_true_eq, keyIs, Bool.and_eq_true, decide_eq_true_eq,
    decide_eq_true_eq, cText_of_not_mem plain, Label.keyLen]
  cases label.key with
  | none =>
      constructor
      · intro ⟨length, _⟩
        exact absurd (List.length_eq_zero_iff.mp length.symm) filled
      · nofun
  | some key =>
      constructor
      · intro ⟨length, same⟩
        have shorter : cText key <+: key := List.takeWhile_prefix _
        rw [Option.getD_some] at same
        rw [same] at shorter
        rw [shorter.eq_of_length length.symm]
      · intro same
        injection same with same
        rw [same]
        exact ⟨rfl, cText_of_not_mem plain⟩

/-- The parts in front of the last one are compared with the whole key. -/
theorem getNode_eq (above : List (List UInt8)) (last : List UInt8)
    (part : ∀ part ∈ above ++ [last], part ≠ [] ∧ 47 ∉ part ∧ (0 : UInt8) ∉ part)
    (forest : Forest Label) :
    getNode (above ++ [last]) forest =
      Forest.search (above.map Label.named ++ [Label.reads last]) forest := by
  induction above generalizing forest with
  | nil =>
      rw [List.nil_append, List.map_nil, List.nil_append, getNode, Forest.search]
      by_cases star : last = ascii "*"
      · have all : Label.reads last = fun _ => true := by
          funext label
          simp only [Label.reads, star, decide_true, Bool.true_or]
        rw [if_pos star, all]
        cases forest with
        | nil => rfl
        | node label child next => rfl
      · rw [if_neg star]
        congr 1
        funext label
        have plain := (part last (List.mem_append_right _ (List.mem_singleton_self _))).2.2
        rw [Label.reads, decide_eq_false star, Bool.false_or, cText_of_not_mem plain]
        cases label.key with
        | none => rfl
        | some key => simp
  | cons first above ih =>
      have rest : getNode (above ++ [last]) =
          Forest.search (above.map Label.named ++ [Label.reads last]) := by
        funext forest
        exact ih (fun other member => part other (List.mem_cons_of_mem _ member)) forest
      have go : getNode (first :: above ++ [last]) forest =
          if first = ascii "*" then forest.firstBelow (fun _ => true) (getNode (above ++ [last]))
          else forest.firstBelow (keyIs first) (getNode (above ++ [last])) := by
        cases above with
        | nil => rfl
        | cons second above => rfl
      have down : Forest.search ((first :: above).map Label.named ++ [Label.reads last]) forest =
          forest.firstBelow (Label.named first)
            (Forest.search (above.map Label.named ++ [Label.reads last])) := by
        cases above with
        | nil => rfl
        | cons second above => rfl
      rw [go, down, rest]
      by_cases star : first = ascii "*"
      · have all : Label.named first = fun _ => true := by
          funext label
          simp only [Label.named, star, decide_true, Bool.true_or]
        rw [if_pos star, all]
      · obtain ⟨filled, -, plain⟩ := part first (List.mem_cons_self ..)
        rw [if_neg star]
        congr 1
        funext label
        rw [keyIs_eq filled plain, Label.named, decide_eq_false star, Bool.false_or]

/-- The value that is returned is that of the first node which the path meets. -/
theorem yamlGetValue_eq (forest : Forest Label) (path : Path) :
    yamlGetValue forest path.text =
      ((forest.walk.find? path.meets).bind List.getLast?).bind Label.value := by
  have split : path.text.splitOn 47 = path.parts := by
    apply List.splitOn_intercalate
    · intro part member
      exact (path.part part member).2.1
    · simp [Path.parts]
  rw [yamlGetValue, yamlGetNode, split, Path.parts, getNode_eq _ _ path.part,
    Forest.root_search (by simp)]
  rfl

/-- It is the value to which the path leads, unless that is masked. -/
theorem yamlGetValue_iff (forest : Forest Label) (path : Path) :
    yamlGetValue forest path.text = valueAt forest path ↔ ¬ Masked forest path := by
  have weaker : ∀ labels, path.leads labels = true → path.meets labels = true := by
    intro labels
    apply Forest.along_weaken
    intro label named
    simp only [Label.named, Label.reads, Bool.or_eq_true, decide_eq_true_eq] at named ⊢
    refine named.imp_right fun same => ?_
    have plain := (path.part path.last (List.mem_append_right _ (List.mem_singleton_self _))).2.2
    rw [same, Option.map_some, cText_of_not_mem plain]
  rw [yamlGetValue_eq]
  cases found : forest.walk.find? path.meets with
  | none =>
      have nowhere : forest.walk.find? path.leads = none := by
        rw [List.find?_eq_none] at found ⊢
        intro labels member passes
        exact found labels member (weaker labels passes)
      rw [valueAt, nowhere]
      refine iff_of_true rfl ?_
      rintro ⟨labels, met, -⟩
      rw [found] at met
      cases met
  | some labels =>
      rw [Option.bind_some]
      cases leads : path.leads labels with
      | true =>
          rw [valueAt, Forest.find_of_weaker weaker found leads, Option.bind_some]
          refine iff_of_true rfl ?_
          intro ⟨others, met, other, _⟩
          rw [found] at met
          injection met with same
          rw [← same, leads] at other
          cases other
      | false =>
          constructor
          · intro same ⟨others, met, _, differs⟩
            rw [found] at met
            injection met with equal
            rw [← equal] at differs
            exact differs same
          · intro clear
            by_contra differs
            exact clear ⟨labels, found, leads, differs⟩

end Yaml
