import Webroar.Library.Decimal

/-! # The head of a response

A status line and fields, one on each line. A text is the head of at most one of them when no part
has a carriage return in it and no name a colon.
-/

/-- A status and the fields of a response. -/
structure HttpHead where
  status : List UInt8
  fields : List (List UInt8 × List UInt8)

namespace HttpHead

def crlf : List UInt8 := [13, 10]

/-- What is between a name and its value. -/
def colon : List UInt8 := [58, 32]

/-- The line of a field. -/
def line (name value : List UInt8) : List UInt8 := name ++ (colon ++ (value ++ crlf))

/-- The lines of some fields. -/
def lines (fields : List (List UInt8 × List UInt8)) : List UInt8 :=
  fields.flatMap fun field => line field.1 field.2

/-- The text of a head. -/
def render (head : HttpHead) : List UInt8 :=
  ascii "HTTP/1.1 " ++ (head.status ++ (crlf ++ (lines head.fields ++ crlf)))

/-- Each part of the head can be told from its text. -/
structure Plain (head : HttpHead) : Prop where
  status : (13 : UInt8) ∉ head.status
  name : ∀ field ∈ head.fields, (58 : UInt8) ∉ field.1 ∧ (13 : UInt8) ∉ field.1
  value : ∀ field ∈ head.fields, (13 : UInt8) ∉ field.2

@[simp] theorem lines_nil : lines [] = [] := rfl

@[simp] theorem lines_cons (field : List UInt8 × List UInt8)
    (fields : List (List UInt8 × List UInt8)) :
    lines (field :: fields) = line field.1 field.2 ++ lines fields := by
  rw [lines, List.flatMap_cons, lines]

theorem length_line (name value : List UInt8) :
    (line name value).length = name.length + value.length + 4 := by
  simp only [line, colon, crlf, List.length_append, List.length_cons, List.length_nil]
  omega

theorem lines_append (first second : List (List UInt8 × List UInt8)) :
    lines (first ++ second) = lines first ++ lines second := by
  rw [lines, List.flatMap_append, lines, lines]

/-- The text of a head has the version, two line ends, and its lines. -/
theorem length_render (head : HttpHead) :
    head.render.length = 13 + head.status.length + (lines head.fields).length := by
  have version : (ascii "HTTP/1.1 ").length = 9 := by decide +kernel
  simp only [render, crlf, List.length_append, List.length_cons, List.length_nil, version]
  omega

/-- What is behind the first place of a byte is one thing. -/
theorem cut_inj {a : UInt8} {first second before after : List UInt8} (absent : a ∉ first)
    (other : a ∉ second) (same : first ++ a :: before = second ++ a :: after) :
    first = second ∧ before = after := by
  rcases List.append_eq_append_iff.mp same with ⟨middle, rfl, rest⟩ | ⟨middle, rfl, rest⟩
  · cases middle with
    | nil => exact ⟨(List.append_nil _).symm, (List.cons.inj rest).2⟩
    | cons c middle =>
        exact absurd (List.mem_append_right _ ((List.cons.inj rest).1 ▸ List.mem_cons_self)) other
  · cases middle with
    | nil => exact ⟨List.append_nil _, (List.cons.inj rest).2.symm⟩
    | cons c middle =>
        exact absurd (List.mem_append_right _ ((List.cons.inj rest).1 ▸ List.mem_cons_self)) absent

/-- A line that is empty is not the line of a field. -/
theorem crlf_ne_line {name value rest more : List UInt8} (plain : (13 : UInt8) ∉ name) :
    crlf ++ more ≠ line name value ++ rest := by
  intro same
  cases name with
  | nil => cases same
  | cons c name =>
      have first : (13 : UInt8) = c := (List.cons.inj same).1
      exact plain (first ▸ List.mem_cons_self)

theorem lines_inj {first second : List (List UInt8 × List UInt8)}
    (plain : ∀ field ∈ first, ((58 : UInt8) ∉ field.1 ∧ (13 : UInt8) ∉ field.1) ∧
      (13 : UInt8) ∉ field.2)
    (other : ∀ field ∈ second, ((58 : UInt8) ∉ field.1 ∧ (13 : UInt8) ∉ field.1) ∧
      (13 : UInt8) ∉ field.2)
    (same : lines first ++ crlf = lines second ++ crlf) : first = second := by
  induction first generalizing second with
  | nil =>
      cases second with
      | nil => rfl
      | cons field second =>
          have name := (other field List.mem_cons_self).1.2
          rw [lines_nil, List.nil_append, lines_cons, List.append_assoc] at same
          exact absurd ((List.append_nil crlf).trans same) (crlf_ne_line name)
  | cons field first ih =>
      cases second with
      | nil =>
          have name := (plain field List.mem_cons_self).1.2
          rw [lines_nil, List.nil_append, lines_cons, List.append_assoc] at same
          exact absurd ((List.append_nil crlf).trans same.symm) (crlf_ne_line name)
      | cons next second =>
          obtain ⟨⟨name, -⟩, value⟩ := plain field List.mem_cons_self
          obtain ⟨⟨name', -⟩, value'⟩ := other next List.mem_cons_self
          simp only [lines_cons, line, colon, crlf, List.append_assoc, List.cons_append,
            List.nil_append] at same
          obtain ⟨names, behind⟩ := cut_inj name name' same
          obtain ⟨values, rest⟩ := cut_inj value value' (List.cons.inj behind).2
          have tails : first = second := ih
            (fun field member => plain field (List.mem_cons_of_mem _ member))
            (fun field member => other field (List.mem_cons_of_mem _ member))
            (List.cons.inj rest).2
          rw [tails, Prod.ext names values]

/-- Two heads with the same text are the same. -/
theorem Plain.render_inj {first second : HttpHead} (plain : first.Plain) (other : second.Plain)
    (same : first.render = second.render) : first = second := by
  have behind := List.append_cancel_left same
  obtain ⟨status, rest⟩ := cut_inj plain.status other.status behind
  have fields := lines_inj (fun field member => ⟨plain.name field member, plain.value field member⟩)
    (fun field member => ⟨other.name field member, other.value field member⟩)
    (List.cons.inj rest).2
  obtain ⟨status', fields'⟩ := first
  exact congrArg₂ HttpHead.mk status fields

end HttpHead
