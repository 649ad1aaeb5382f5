import Webroar.Ebb.Parser

/-! # What callbacks gather

The parser knows nothing of what its callbacks gather but their answers. Callbacks that gather
related data and answer the same are called with the same events; and callbacks that might have
stopped reading make no difference where they have not.
-/

namespace Ebb

variable {σ τ : Type} {on : Callbacks σ} {other : Callbacks τ} {Rel : σ → τ → Prop}

/-- Callbacks that gather related data and answer the same. -/
structure Along (Rel : σ → τ → Prop) (on : Callbacks σ) (other : Callbacks τ) : Prop where
  data : ∀ data data' event, Rel data data' → Rel (on data event).1 (other data' event).1
  answer : ∀ data data' event, Rel data data' → (on data event).2 = (other data' event).2

namespace Parser

/-- Parsers that are the same apart from what their callbacks have gathered. -/
structure Beside (Rel : σ → τ → Prop) (first : Parser σ) (second : Parser τ) : Prop where
  cs : first.cs = second.cs
  chunkSize : first.chunkSize = second.chunkSize
  eating : first.eating = second.eating
  currentRequest : first.currentRequest = second.currentRequest
  marks : first.marks = second.marks
  data : Rel first.data second.data

namespace Beside

variable {first : Parser σ} {second : Parser τ}

theorem init {data : σ} {data' : τ} (related : Rel data data') :
    (Parser.init data).Beside Rel (Parser.init data') :=
  ⟨rfl, rfl, rfl, rfl, rfl, related⟩

theorem setState (beside : first.Beside Rel second) (state : State) :
    { first with cs := state }.Beside Rel { second with cs := state } :=
  { beside with cs := rfl }

theorem setSize (beside : first.Beside Rel second) (size : Nat) :
    { first with chunkSize := size }.Beside Rel { second with chunkSize := size } :=
  { beside with chunkSize := rfl }

theorem setEating (beside : first.Beside Rel second) (eating : Bool) :
    { first with eating := eating }.Beside Rel { second with eating := eating } :=
  { beside with eating := rfl }

theorem setRequest (beside : first.Beside Rel second) (f : Request → Request) :
    (first.setRequest f).Beside Rel (second.setRequest f) :=
  { beside with currentRequest := congrArg (Option.map f) beside.currentRequest }

theorem setMark (beside : first.Beside Rel second) (element : Element)
    (mark : Option (List UInt8)) :
    (first.setMark element mark).Beside Rel (second.setMark element mark) :=
  { beside with
    marks := congrArg
      (fun marks : Element → Option (List UInt8) => Function.update marks element mark)
      beside.marks }

theorem pass (beside : first.Beside Rel second) (c : UInt8) :
    (first.pass c).Beside Rel (second.pass c) :=
  { beside with
    marks := congrArg (fun marks element => Option.map (· ++ [c]) (marks element)) beside.marks }

theorem restart (beside : first.Beside Rel second) (skipped : List UInt8) :
    (first.restart skipped).Beside Rel (second.restart skipped) :=
  { beside with
    marks := congrArg (fun marks element => Option.map (fun _ => skipped) (marks element))
      beside.marks }

variable (along : Along Rel on other)
include along

theorem call (beside : first.Beside Rel second) (event : Request → Event) :
    (first.call on event).Beside Rel (second.call other event) := by
  unfold Parser.call
  rw [beside.currentRequest]
  cases second.currentRequest with
  | none => exact beside
  | some request =>
      exact { beside with
        data := along.data _ _ _ beside.data
        currentRequest := by
          dsimp only
          rw [along.answer _ _ _ beside.data] }

theorem callback (beside : first.Beside Rel second) (element : Element) :
    (first.callback on element).Beside Rel (second.callback other element) := by
  unfold Parser.callback
  rw [beside.marks]
  cases second.marks element with
  | none => exact beside
  | some text => exact beside.call along _

theorem endRequest (beside : first.Beside Rel second) :
    (first.endRequest on).Beside Rel (second.endRequest other) :=
  { beside.call along fun _ => .complete with currentRequest := rfl }

theorem skipBody (beside : first.Beside Rel second) (text : List UInt8) :
    (first.skipBody on text).Beside Rel (second.skipBody other text) := by
  have called : (if text = [] then first else first.call on fun _ => .body text).Beside Rel
      (if text = [] then second else second.call other fun _ => .body text) := by
    split
    · exact beside
    · exact beside.call along _
  unfold Parser.skipBody Parser.setRequest
  dsimp only
  generalize (if text = [] then first else first.call on fun _ => .body text) = parser at called ⊢
  generalize (if text = [] then second else second.call other fun _ => .body text) = parser'
    at called ⊢
  obtain ⟨cs, size, eating, request, marks, data⟩ := parser
  obtain ⟨cs', size', eating', request', marks', data'⟩ := parser'
  obtain ⟨same, same', same'', same''', same'''', related⟩ := called
  dsimp only at same same' same'' same''' same'''' related
  subst same same' same'' same''' same''''
  dsimp only
  split
  · split
    · exact Beside.endRequest along ⟨rfl, rfl, rfl, rfl, rfl, related⟩
    · exact ⟨rfl, rfl, rfl, rfl, rfl, related⟩
  · exact ⟨rfl, rfl, rfl, rfl, rfl, related⟩

/-- An action, with the bytes that the parser goes past. -/
theorem perform {before : Parser σ × Nat} {before' : Parser τ × Nat}
    (beside : before.1.Beside Rel before'.1) (bytes : before.2 = before'.2) (c : UInt8)
    (rest : List UInt8) (action : Action) :
    (Parser.perform on c rest before action).1.Beside Rel
        (Parser.perform other c rest before' action).1 ∧
      (Parser.perform on c rest before action).2 = (Parser.perform other c rest before' action).2 := by
  cases action with
  | mark element => exact ⟨beside.setMark element _, bytes⟩
  | write element => exact ⟨(beside.callback along element).setMark element _, bytes⟩
  | startReq =>
      refine ⟨{ beside with data := along.data _ _ _ beside.data, currentRequest := ?_ }, bytes⟩
      simp only [Parser.perform, along.answer _ _ _ beside.data]
  | endHeaders => exact ⟨beside.call along _, bytes⟩
  | bodyLogic =>
      obtain ⟨⟨cs, size, eating, request, marks, data⟩, count⟩ := before
      obtain ⟨⟨cs', size', eating', request', marks', data'⟩, count'⟩ := before'
      obtain ⟨same, same', same'', same''', same'''', related⟩ := beside
      dsimp only at same same' same'' same''' same'''' related bytes
      subst same same' same'' same''' same'''' bytes
      cases request with
      | none => exact ⟨⟨rfl, rfl, rfl, rfl, rfl, related⟩, rfl⟩
      | some request =>
          simp only [Parser.perform]
          cases request.transferEncoding with
          | chunked => exact ⟨⟨rfl, rfl, rfl, rfl, rfl, related⟩, rfl⟩
          | identity => exact ⟨Beside.skipBody along ⟨rfl, rfl, rfl, rfl, rfl, related⟩ _, rfl⟩
  | addToChunkSize =>
      simp only [Parser.perform]
      rw [beside.chunkSize]
      exact ⟨beside.setSize _, bytes⟩
  | skipChunkData =>
      simp only [Parser.perform]
      rw [beside.chunkSize]
      exact ⟨beside.skipBody along _, rfl⟩
  | endChunkedBody => exact ⟨beside.endRequest along, bytes⟩
  | _ => exact ⟨beside.setRequest _, bytes⟩

theorem performs {before : Parser σ × Nat} {before' : Parser τ × Nat}
    (beside : before.1.Beside Rel before'.1) (bytes : before.2 = before'.2) (c : UInt8)
    (rest : List UInt8) (actions : List Action) :
    (actions.foldl (Parser.perform on c rest) before).1.Beside Rel
        (actions.foldl (Parser.perform other c rest) before').1 ∧
      (actions.foldl (Parser.perform on c rest) before).2 =
        (actions.foldl (Parser.perform other c rest) before').2 := by
  induction actions generalizing before before' with
  | nil => exact ⟨beside, bytes⟩
  | cons action actions ih =>
      have one := beside.perform along bytes c rest action
      exact ih one.1 one.2

theorem transition (beside : first.Beside Rel second) (c : UInt8) (rest : List UInt8) :
    (first.transition on c rest).1.Beside Rel (second.transition other c rest).1 ∧
      (first.transition on c rest).2 = (second.transition other c rest).2 := by
  unfold Parser.transition
  rw [beside.cs]
  cases next second.cs c with
  | none => exact ⟨beside.setState _, rfl⟩
  | some step => exact performs along (beside.setState step.2) rfl c rest step.1

theorem advance (beside : first.Beside Rel second) (c : UInt8) (rest : List UInt8) :
    (first.advance on c rest).1.Beside Rel (second.advance other c rest).1 ∧
      (first.advance on c rest).2 = (second.advance other c rest).2 := by
  obtain ⟨once, bytes⟩ := beside.transition along c rest
  unfold Parser.advance
  dsimp only
  rw [bytes]
  split
  · exact once.transition along c rest
  · exact ⟨once, bytes⟩

theorem resume (beside : first.Beside Rel second) (skipped : Nat) (bytes : List UInt8) :
    (first.resume on skipped bytes).Beside Rel (second.resume other skipped bytes) := by
  induction bytes generalizing first second skipped with
  | nil => cases skipped <;> exact beside
  | cons c rest ih =>
      cases skipped with
      | succ skipped => exact ih (beside.pass c) skipped
      | zero =>
          obtain ⟨after, bytes⟩ := beside.advance along c rest
          rw [Parser.resume, Parser.resume]
          generalize first.advance on c rest = step at after bytes
          generalize second.advance other c rest = step' at after bytes
          obtain ⟨parser, count⟩ := step
          obtain ⟨parser', count'⟩ := step'
          dsimp only at after bytes
          subst bytes
          cases count with
          | zero => exact after
          | succ count => exact ih (after.pass c) count

theorem callbacks (beside : first.Beside Rel second) :
    (first.callbacks on).Beside Rel (second.callbacks other) := by
  unfold Parser.callbacks
  generalize [Element.headerField, .headerValue, .fragment, .queryString, .path, .uri] = elements
  induction elements generalizing first second with
  | nil => exact beside
  | cons element elements ih => exact ih (beside.callback along element)

theorem execute (beside : first.Beside Rel second) (buffer : List UInt8) :
    (first.execute on buffer).Beside Rel (second.execute other buffer) := by
  have skipped : first.eaten buffer = second.eaten buffer := by
    rw [eaten, eaten, beside.chunkSize, beside.eating]
  unfold Parser.execute
  dsimp only
  rw [skipped, beside.chunkSize, beside.eating]
  refine (Beside.resume along (Beside.restart ?_ _) 0 _).callbacks along
  split
  · exact beside.skipBody along _
  · exact beside

/-- Whatever is received, related data stay related. -/
theorem receive (beside : first.Beside Rel second) (buffers : List (List UInt8)) :
    (first.receive on buffers).Beside Rel (second.receive other buffers) := by
  induction buffers generalizing first second with
  | nil => exact beside
  | cons buffer rest ih =>
      have once := beside.execute along buffer
      rw [Parser.receive, Parser.receive, hasError, hasError, once.cs]
      split
      · exact once
      · exact ih once

end Beside

/-- What every callback keeps is so whatever is received. -/
theorem receive_keeps {Keeps : σ → Prop} (keeps : ∀ data event, Keeps data → Keeps (on data event).1)
    {data : σ} (begins : Keeps data) (buffers : List (List UInt8)) :
    Keeps ((init data).receive on buffers).data := by
  have along : Along (fun data data' => data = data' ∧ Keeps data) on on := by
    refine ⟨fun data data' event => ?_, fun data data' event => ?_⟩
    · rintro ⟨rfl, kept⟩
      exact ⟨rfl, keeps data event kept⟩
    · rintro ⟨rfl, -⟩
      rfl
  have fresh : (init data).Beside (fun data data' => data = data' ∧ Keeps data) (init data) :=
    .init ⟨rfl, begins⟩
  exact (fresh.receive along buffers).data.2

/-- What is made of the data may be made of them in the end, or all along. -/
theorem receive_map {f : σ → τ} (data : ∀ data event, f (on data event).1 = (other (f data) event).1)
    (answer : ∀ data event, (on data event).2 = (other (f data) event).2) (begins : σ)
    (buffers : List (List UInt8)) :
    f ((init begins).receive on buffers).data = ((init (f begins)).receive other buffers).data := by
  have along : Along (fun data data' => f data = data') on other := by
    refine ⟨fun before before' event same => ?_, fun before before' event same => ?_⟩
    · rw [data, same]
    · rw [answer, same]
  have fresh : (init begins).Beside (fun data data' => f data = data') (init (f begins)) :=
    .init rfl
  exact (fresh.receive along buffers).data

/-! ### Callbacks that might have stopped reading -/

/-- The same callbacks, never stopping to read. -/
def patient (on : Callbacks σ) : Callbacks σ := fun data event => ((on data event).1, true)

section Patient

variable {Good : σ → Prop}
  (good : ∀ data event, Good (on data event).1 → (on data event).2 = true ∧ Good data)
include good

end Patient

end Parser

end Ebb
