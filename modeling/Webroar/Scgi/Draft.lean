import Webroar.Scgi.Build

/-! # Builder calls and what they write down

A builder object is driven by calls: whole headers, pieces of a client header's name and value,
and body bytes. What the calls say is kept in a draft: the finished entries and the client
header that is being taken down. A draft accepts a call only where the caller may make it. The
object simulates the draft: from related states, an accepted call leads to related states.
-/

namespace Scgi

/-- A call on a builder object. -/
inductive Call where
  | headerAdd (field value : List UInt8)
  | headerFieldAdd (field : List UInt8) (index : Int)
  | headerValueAdd (value : List UInt8) (index : Int)
  | bodyAdd (body : List UInt8)

/-- A call that returns -1 leaves the object as it was. -/
def call (scgi : Scgi) : Call → Scgi
  | .headerAdd field value => scgi.headerAdd field value
  | .headerFieldAdd field index => (scgi.headerFieldAdd field index).getD scgi
  | .headerValueAdd value index => (scgi.headerValueAdd value index).getD scgi
  | .bodyAdd body => scgi.bodyAdd body

/-- Calls one after the other. -/
def run (scgi : Scgi) (calls : List Call) : Scgi := calls.foldl call scgi

namespace Call

/-- Whether a call adds to the headers. -/
def isHeader : Call → Bool
  | headerAdd _ _ | headerFieldAdd _ _ | headerValueAdd _ _ => true
  | bodyAdd _ => false

/-- The body bytes a call adds. -/
def body : Call → List UInt8
  | headerAdd _ _ | headerFieldAdd _ _ | headerValueAdd _ _ => []
  | bodyAdd body => body

end Call

/-- The client header that is being taken down. -/
inductive Current where
  | none
  | name (name : List UInt8)
  | entry (name value : List UInt8)

/-- What some calls have written down. -/
structure Draft where
  items : List Entry
  current : Current
  index : Int

namespace Draft

/-- The entries so far. -/
def all (draft : Draft) : List Entry :=
  match draft.current with
  | .entry name value => draft.items ++ [(name, value)]
  | _ => draft.items

/-- The name that has no value yet. -/
def opened (draft : Draft) : Option (List UInt8) :=
  match draft.current with
  | .name name => some name
  | _ => none

/-- Write a call down, where the caller may make it. -/
def step (draft : Draft) : Call → Option Draft
  | .headerAdd field value =>
      match draft.current with
      | .name _ => none
      | _ => some { draft with items := draft.all ++ [(field, value)], current := .none }
  | .headerFieldAdd field index =>
      match draft.current with
      | .name name =>
          if index = draft.index then
            some { draft with current := .name (name ++ field.map envByte) }
          else
            none
      | _ =>
          if draft.index < index then
            some { items := draft.all, current := .name (field.map envByte), index := index }
          else
            none
  | .headerValueAdd value index =>
      if index = draft.index then
        match draft.current with
        | .none => none
        | .name name => some { draft with current := .entry name value }
        | .entry name text => some { draft with current := .entry name (text ++ value) }
      else
        none
  | .bodyAdd _ => some draft

/-- Write calls down one after the other. -/
def run (draft : Draft) : List Call → Option Draft
  | [] => some draft
  | next :: rest => (draft.step next).bind fun draft => draft.run rest

theorem run_append (draft : Draft) (first second : List Call) :
    draft.run (first ++ second) = (draft.run first).bind fun draft => draft.run second := by
  induction first generalizing draft with
  | nil => rfl
  | cons next rest ih =>
      rw [List.cons_append, run, run, Option.bind_assoc]
      congr 1
      funext after
      exact ih after

/-- Body bytes are not written down. -/
theorem run_filter (draft : Draft) (calls : List Call) :
    draft.run (calls.filter Call.isHeader) = draft.run calls := by
  induction calls generalizing draft with
  | nil => rfl
  | cons next rest ih =>
      cases next with
      | bodyAdd body => exact ih draft
      | headerAdd field value =>
          change (draft.step _).bind _ = (draft.step _).bind _
          congr 1
          funext after
          exact ih after
      | headerFieldAdd field index =>
          change (draft.step _).bind _ = (draft.step _).bind _
          congr 1
          funext after
          exact ih after
      | headerValueAdd value index =>
          change (draft.step _).bind _ = (draft.step _).bind _
          congr 1
          funext after
          exact ih after

end Draft

/-- An object shows a draft behind the bytes `front`. -/
structure Shows (scgi : Scgi) (front : List UInt8) (draft : Draft) : Prop where
  layout : scgi.Layout front draft.all draft.opened
  index : scgi.index = draft.index

variable {scgi : Scgi} {front : List UInt8} {draft after : Draft}

theorem Shows.new (junk : Nat → UInt8) :
    (Scgi.new junk).Shows [] ⟨[(ascii "SCGI", ascii "1")], .none, -1⟩ :=
  ⟨Layout.new junk, index_new junk⟩

/-- An accepted call keeps the object and the draft together. -/
theorem Shows.call (shown : scgi.Shows front draft) (next : Call)
    (accepted : draft.step next = some after) : (scgi.call next).Shows front after := by
  obtain ⟨layout, numbered⟩ := shown
  obtain ⟨items, current, number⟩ := draft
  have same : scgi.index = number := numbered
  subst same
  cases next with
  | headerAdd field value =>
      cases current with
      | name name => cases accepted
      | none =>
          obtain rfl := Option.some.inj accepted
          exact ⟨layout.headerAdd field value, index_headerAdd ..⟩
      | entry name text =>
          obtain rfl := Option.some.inj accepted
          exact ⟨layout.headerAdd field value, index_headerAdd ..⟩
  | headerFieldAdd field index =>
      cases current with
      | name name =>
          simp only [Draft.step, Option.ite_none_right_eq_some, Option.some.injEq] at accepted
          obtain ⟨rfl, rfl⟩ := accepted
          obtain ⟨made, added, kept, written⟩ := Layout.headerFieldAdd_more layout field
          rw [Scgi.call, added]
          exact ⟨written, kept⟩
      | none =>
          simp only [Draft.step, Option.ite_none_right_eq_some, Option.some.injEq] at accepted
          obtain ⟨later, rfl⟩ := accepted
          obtain ⟨made, added, moved, written⟩ := Layout.headerFieldAdd_first layout field later
          rw [Scgi.call, added]
          exact ⟨written, moved⟩
      | entry name text =>
          simp only [Draft.step, Option.ite_none_right_eq_some, Option.some.injEq] at accepted
          obtain ⟨later, rfl⟩ := accepted
          obtain ⟨made, added, moved, written⟩ := Layout.headerFieldAdd_first layout field later
          rw [Scgi.call, added]
          exact ⟨written, moved⟩
  | headerValueAdd value index =>
      cases current with
      | none => simp [Draft.step] at accepted
      | name name =>
          simp only [Draft.step, Option.ite_none_right_eq_some, Option.some.injEq] at accepted
          obtain ⟨rfl, rfl⟩ := accepted
          obtain ⟨made, added, kept, written⟩ := Layout.headerValueAdd_first layout value
          rw [Scgi.call, added]
          exact ⟨written, kept⟩
      | entry name text =>
          simp only [Draft.step, Option.ite_none_right_eq_some, Option.some.injEq] at accepted
          obtain ⟨rfl, rfl⟩ := accepted
          obtain ⟨made, added, kept, written⟩ := Layout.headerValueAdd_more layout value
          rw [Scgi.call, added]
          exact ⟨written, kept⟩
  | bodyAdd body =>
      obtain rfl := Option.some.inj accepted
      exact ⟨layout.bodyAdd body, rfl⟩

/-- Accepted calls keep the object and the draft together. -/
theorem Shows.run (shown : scgi.Shows front draft) (calls : List Call)
    (accepted : draft.run calls = some after) : (scgi.run calls).Shows front after := by
  induction calls generalizing scgi draft with
  | nil =>
      obtain rfl := Option.some.inj accepted
      exact shown
  | cons next rest ih =>
      obtain ⟨middle, first, last⟩ := Option.bind_eq_some_iff.mp accepted
      exact ih (shown.call next first) last

/-- A call appends its body bytes and nothing else to the body. -/
theorem body_call (scgi : Scgi) (next : Call) :
    (scgi.call next).body.getD [] = scgi.body.getD [] ++ next.body := by
  cases next with
  | headerAdd field value =>
      obtain ⟨header, headerSize, checked, -⟩ :=
        memoryCheck_spec scgi (scgi.headerOffset + field.length + value.length + 2)
      rw [call, Scgi.headerAdd, checked, Call.body, List.append_nil]
  | headerFieldAdd field index =>
      obtain ⟨header, headerSize, checked, -⟩ :=
        memoryCheck_spec scgi (scgi.headerOffset + field.length)
      obtain ⟨header', headerSize', checked', -⟩ :=
        memoryCheck_spec { scgi with index := index } (scgi.headerOffset + field.length + 1)
      rw [call, headerFieldAdd, checked, checked', Call.body, List.append_nil]
      split
      · rfl
      · split
        · split
          · rfl
          · split
            · rfl
            · rfl
        · rfl
  | headerValueAdd value index =>
      obtain ⟨header, headerSize, checked, -⟩ :=
        memoryCheck_spec scgi (scgi.headerOffset + value.length)
      obtain ⟨header', headerSize', checked', -⟩ :=
        memoryCheck_spec scgi (scgi.headerOffset + value.length + 1)
      rw [call, headerValueAdd, checked, checked', Call.body, List.append_nil]
      split
      · rfl
      · split
        · rfl
        · split
          · rfl
          · rfl
  | bodyAdd body => rfl

/-- A call sends nothing. -/
theorem bytesSent_call (scgi : Scgi) (next : Call) :
    (scgi.call next).bytesSent = scgi.bytesSent := by
  cases next with
  | headerAdd field value =>
      obtain ⟨header, headerSize, checked, -⟩ :=
        memoryCheck_spec scgi (scgi.headerOffset + field.length + value.length + 2)
      rw [call, Scgi.headerAdd, checked]
  | headerFieldAdd field index =>
      obtain ⟨header, headerSize, checked, -⟩ :=
        memoryCheck_spec scgi (scgi.headerOffset + field.length)
      obtain ⟨header', headerSize', checked', -⟩ :=
        memoryCheck_spec { scgi with index := index } (scgi.headerOffset + field.length + 1)
      rw [call, headerFieldAdd, checked, checked']
      split
      · rfl
      · split
        · split
          · rfl
          · split
            · rfl
            · rfl
        · rfl
  | headerValueAdd value index =>
      obtain ⟨header, headerSize, checked, -⟩ :=
        memoryCheck_spec scgi (scgi.headerOffset + value.length)
      obtain ⟨header', headerSize', checked', -⟩ :=
        memoryCheck_spec scgi (scgi.headerOffset + value.length + 1)
      rw [call, headerValueAdd, checked, checked']
      split
      · rfl
      · split
        · rfl
        · split
          · rfl
          · rfl
  | bodyAdd body => rfl

theorem bytesSent_run (scgi : Scgi) (calls : List Call) :
    (scgi.run calls).bytesSent = scgi.bytesSent := by
  induction calls generalizing scgi with
  | nil => rfl
  | cons next rest ih => exact (ih _).trans (bytesSent_call scgi next)

/-- The body bytes of a list of calls. -/
def bodyOf (calls : List Call) : List UInt8 := calls.flatMap Call.body

theorem body_run (scgi : Scgi) (calls : List Call) :
    (scgi.run calls).body.getD [] = scgi.body.getD [] ++ bodyOf calls := by
  induction calls generalizing scgi with
  | nil => simp [run, bodyOf]
  | cons next rest ih =>
      change ((scgi.call next).run rest).body.getD [] = _
      rw [ih, body_call, bodyOf, bodyOf, List.flatMap_cons, List.append_assoc]

end Scgi
