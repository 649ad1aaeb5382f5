import Webroar.Ebb.Settled

/-! # Requests do not depend on how they are received

The bytes of a connection may be received in any buffers: callbacks that put the pieces of a text
together are in the same state after them, and so is the parser.
-/

namespace Ebb

variable {σ : Type} {on : Callbacks σ}

/-! ### Texts -/

/-- An action that only notes something in the request. -/
inductive Notes : Action → Prop where
  | contentLength : Notes .contentLength
  | useChunkedEncoding : Notes .useChunkedEncoding
  | useIdentityEncoding : Notes .useIdentityEncoding
  | setKeepAlive : Notes .setKeepAlive
  | setNotKeepAlive : Notes .setNotKeepAlive

/-- Actions that pass on the first of the texts or note something in the request. -/
inductive Plain : List Element → List Action → List Element → Prop where
  | done (texts : List Element) : Plain texts [] texts
  | write {texts after : List Element} {actions : List Action} (element : Element)
      (rest : Plain texts actions after) : Plain (element :: texts) (.write element :: actions) after
  | note {texts after : List Element} {actions : List Action} {action : Action}
      (notes : Notes action) (rest : Plain texts actions after) :
      Plain texts (action :: actions) after

theorem Value.reads_plain (value : Value) (texts : List Element) :
    Plain texts value.reads texts := by
  cases value with
  | digits => exact .note .contentLength (.done texts)
  | _ => exact .done texts

theorem Value.ends_plain (value : Value) {actions : List Action} {texts after : List Element}
    (rest : Plain texts actions after) : Plain texts (value.ends ++ actions) after := by
  cases value with
  | option seen =>
      rw [Value.ends]
      split
      · exact .note .setKeepAlive rest
      · split
        · exact .note .setNotKeepAlive rest
        · exact rest
  | coding seen =>
      rw [Value.ends]
      split
      · exact .note .useIdentityEncoding rest
      · exact rest
  | _ => exact rest

theorem uriEnd_plain {actions : List Action} {c : UInt8} {found : List Action × State}
    {texts : List Element} (plain : Plain texts (actions ++ [.write .uri]) [])
    (reads : uriEnd actions c = some found) : Plain texts found.1 found.2.texts := by
  unfold uriEnd at reads
  split at reads
  · cases reads
    exact plain
  · split at reads
    · cases reads
      exact plain
    · cases reads

theorem escaped_plain {state : Escape → State} {accepts : UInt8 → Bool} {others : Transition}
    {c : UInt8} {escape : Escape} {found : List Action × State} {texts : List Element}
    (reads : escaped state accepts others c escape = some found)
    (same : ∀ escape, (state escape).texts = texts)
    (other : others = some found → Plain texts found.1 found.2.texts) :
    Plain texts found.1 found.2.texts := by
  have stays : ∀ escape, goto (state escape) = some found → Plain texts found.1 found.2.texts := by
    intro escape equal
    cases equal
    rw [same escape]
    exact .done texts
  cases escape with
  | plain =>
      simp only [escaped] at reads
      split at reads
      · exact stays .percent reads
      · split at reads
        · exact stays .plain reads
        · exact other reads
  | percent =>
      simp only [escaped] at reads
      split at reads
      · exact stays .digit reads
      · cases reads
  | digit =>
      simp only [escaped] at reads
      split at reads
      · exact stays .plain reads
      · cases reads

/-- The query string begins behind the path, while the URI goes on. -/
inductive BeginsQuery : List Action → List Element → Prop where
  | marked : BeginsQuery [.mark .queryString] [.queryString, .uri]
  | empty : BeginsQuery [.mark .queryString, .write .queryString, .write .uri] []

theorem goto_plain {state : State} {found : List Action × State} {texts : List Element}
    (reads : goto state = some found) (same : state.texts = texts) :
    Plain texts found.1 found.2.texts := by
  cases reads
  rw [same]
  exact .done texts

/-- What a transition does with the texts that are marked, if there are any. -/
theorem next_texts {state : State} {c : UInt8} {found : List Action × State}
    (reads : next state c = some found) (some : state.texts ≠ []) :
    Plain state.texts found.1 found.2.texts ∨
      state.texts = [.uri] ∧ BeginsQuery found.1 found.2.texts := by
  have uri : Plain [.uri] ([] ++ [Action.write .uri]) [] := .write .uri (.done [])
  cases state with
  | asterisk =>
      left
      exact uriEnd_plain uri reads
  | scheme =>
      left
      simp only [next] at reads
      split at reads
      · exact goto_plain reads rfl
      · split at reads
        · exact goto_plain reads rfl
        · cases reads
  | absolute escape =>
      left
      simp only [next] at reads
      exact escaped_plain reads (fun _ => rfl) (uriEnd_plain uri)
  | path escape =>
      left
      simp only [next] at reads
      refine escaped_plain reads (fun _ => rfl) (fun other => ?_)
      split at other
      · cases other
        exact .write .path (.done _)
      · have both : Plain [.path, .uri] ([.write .path] ++ [Action.write .uri]) [] :=
          .write .path uri
        exact uriEnd_plain both other
  | queryStart =>
      right
      refine ⟨rfl, ?_⟩
      simp only [next, uriEnd] at reads
      split at reads
      · cases reads
        exact .marked
      · split at reads
        · cases reads
          exact .marked
        · split at reads
          · cases reads
            exact .empty
          · split at reads
            · cases reads
              exact .empty
            · cases reads
  | query escape =>
      left
      have both : Plain [.queryString, .uri] ([.write .queryString] ++ [Action.write .uri]) [] :=
        .write .queryString uri
      simp only [next] at reads
      exact escaped_plain reads (fun _ => rfl) (uriEnd_plain both)
  | fragment escape =>
      left
      simp only [next] at reads
      refine escaped_plain reads (fun _ => rfl) (fun other => ?_)
      split at other
      · cases other
        exact .write .fragment (.done _)
      · cases other
  | field name =>
      left
      simp only [next] at reads
      split at reads
      · cases reads
        split
        · exact .note .useChunkedEncoding (.write .headerField (.done []))
        · exact .write .headerField (.done [])
      · split at reads
        · exact goto_plain reads rfl
        · cases reads
  | value value =>
      left
      simp only [next] at reads
      split at reads
      · cases reads
        exact value.ends_plain (.write .headerValue (.done []))
      · cases reads
        exact (value.next c).reads_plain _
  | _ => exact absurd rfl some

namespace Parser

@[simp] theorem call_marks (event : Request → Event) (parser : Parser σ) :
    (parser.call on event).marks = parser.marks := by
  unfold call
  split
  · rfl
  · rfl

@[simp] theorem callback_marks (element : Element) (parser : Parser σ) :
    (parser.callback on element).marks = parser.marks := by
  unfold callback
  split
  · rfl
  · exact call_marks _ parser

/-- An action that notes something leaves the number of headers and the method alone. -/
theorem perform_notes {action : Action} (notes : Notes action) (c : UInt8) :
    ∃ f : Request → Request,
      (∀ request, (f request).numberOfHeaders = request.numberOfHeaders ∧
        (f request).method = request.method) ∧
      ∀ (rest : List UInt8) (before : Parser σ × Nat),
        perform on c rest before action = (before.1.setRequest f, before.2) := by
  cases notes with
  | contentLength =>
      exact ⟨fun request => { request with contentLength := addDigit 64 c request.contentLength },
        fun _ => ⟨rfl, rfl⟩, fun _ _ => rfl⟩
  | useChunkedEncoding =>
      exact ⟨fun request => { request with transferEncoding := .chunked },
        fun _ => ⟨rfl, rfl⟩, fun _ _ => rfl⟩
  | useIdentityEncoding =>
      exact ⟨fun request => { request with transferEncoding := .identity },
        fun _ => ⟨rfl, rfl⟩, fun _ _ => rfl⟩
  | setKeepAlive =>
      exact ⟨fun request => { request with keepAlive := some true },
        fun _ => ⟨rfl, rfl⟩, fun _ _ => rfl⟩
  | setNotKeepAlive =>
      exact ⟨fun request => { request with keepAlive := some false },
        fun _ => ⟨rfl, rfl⟩, fun _ _ => rfl⟩

@[simp] theorem call_cs (event : Request → Event) (parser : Parser σ) :
    (parser.call on event).cs = parser.cs := by
  unfold call
  split
  · rfl
  · rfl

@[simp] theorem callback_cs (element : Element) (parser : Parser σ) :
    (parser.callback on element).cs = parser.cs := by
  unfold callback
  split
  · rfl
  · exact call_cs _ parser

/-- A text that begins while the URI goes on. -/
theorem settled_mark (seamless : Seamless on) {parser : Parser σ}
    (marked : Marked parser.marks [.uri]) :
    (parser.setMark .queryString (some [])).settled on =
      ((parser.settled on).setMark .queryString (some [])).callback on .queryString := by
  obtain ⟨cs, chunkSize, eating, currentRequest, marks, data⟩ := parser
  obtain ⟨uri, rfl⟩ := marked.eq_one
  rw [settled_eq seamless, settled_eq seamless, callback_eq seamless]
  have marks : (fun other => (Function.update
      (fun other => if other = Element.uri then some uri else none) Element.queryString (some [])
      other).map fun _ => ([] : List UInt8)) =
      Function.update (fun other => (if other = Element.uri then some uri else none).map
        fun _ => ([] : List UInt8)) Element.queryString (some []) := by
    funext other
    rw [Function.update_apply, Function.update_apply]
    split
    · rfl
    · rfl
  dsimp only [setMark]
  rw [marks]
  cases currentRequest with
  | none => rfl
  | some request =>
      simp [delivered, Function.update_apply, seamless.swap]

/-- Two parsers that differ in what has been passed on already. -/
structure Alike (on : Callbacks σ) (texts : List Element) (first second : Parser σ) : Prop where
  settled : first.settled on = second.settled on
  marked : Marked first.marks texts
  marked' : Marked second.marks texts

namespace Alike

variable {texts after : List Element} {first second : Parser σ}

/-- Parsers that have nothing to pass on are the same. -/
theorem eq (seamless : Seamless on) (alike : Alike on [] first second) : first = second := by
  have equal := alike.settled
  rw [settled_of_none seamless alike.marked, settled_of_none seamless alike.marked'] at equal
  exact equal

theorem cs (seamless : Seamless on) (alike : Alike on texts first second) :
    first.cs = second.cs := by
  have equal := alike.settled
  rw [settled_eq seamless, settled_eq seamless] at equal
  have same := congrArg Parser.cs equal
  exact same

theorem setState (seamless : Seamless on) (alike : Alike on texts first second) (state : State) :
    Alike on texts { first with cs := state } { second with cs := state } := by
  refine ⟨?_, alike.marked, alike.marked'⟩
  have equal := alike.settled
  rw [settled_eq seamless, settled_eq seamless] at equal ⊢
  exact congrArg (fun parser => { parser with cs := state }) equal

theorem pass (seamless : Seamless on) (together : Together texts)
    (alike : Alike on texts first second) (c : UInt8) :
    Alike on texts (first.pass c) (second.pass c) := by
  refine ⟨?_, marked_pass alike.marked c, marked_pass alike.marked' c⟩
  rw [← settled_pass seamless together alike.marked, alike.settled,
    settled_pass seamless together alike.marked']

/-- Plain actions keep them so. -/
theorem plain (seamless : Seamless on) {actions : List Action}
    (plain : Plain texts actions after) {first second : Parser σ} (together : Together texts)
    (alike : Alike on texts first second) (c : UInt8) (rest : List UInt8) (n : Nat) :
    ∃ next next', actions.foldl (perform on c rest) (first, n) = (next, n) ∧
      actions.foldl (perform on c rest) (second, n) = (next', n) ∧
      next.cs = first.cs ∧ Alike on after next next' ∧ Together after := by
  induction plain generalizing first second with
  | done => exact ⟨first, second, rfl, rfl, rfl, alike, together⟩
  | @write others _ _ element _ ih =>
      have alike : Alike on others ((first.callback on element).setMark element none)
          ((second.callback on element).setMark element none) := by
        refine ⟨?_, ?_, ?_⟩
        · rw [settled_write seamless together alike.marked,
            settled_write seamless together alike.marked', alike.settled]
        · rw [setMark, callback_marks]
          exact alike.marked.tail together
        · rw [setMark, callback_marks]
          exact alike.marked'.tail together
      obtain ⟨next, next', performs, performs', same, alike, together⟩ :=
        ih together.tail alike
      exact ⟨next, next', performs, performs', same.trans (callback_cs element first), alike,
        together⟩
  | @note others _ _ _ notes _ ih =>
      obtain ⟨f, same, performed⟩ := perform_notes notes c
      rw [List.foldl_cons, List.foldl_cons, performed, performed]
      have alike : Alike on others (first.setRequest f) (second.setRequest f) := by
        have number := fun request => (same request).1
        refine ⟨?_, alike.marked, alike.marked'⟩
        rw [settled_setRequest seamless number, settled_setRequest seamless number, alike.settled]
      exact ih together alike

/-- The query string begins. -/
theorem mark (seamless : Seamless on) (alike : Alike on [.uri] first second) :
    Alike on [.queryString, .uri] (first.setMark .queryString (some []))
      (second.setMark .queryString (some [])) := by
  refine ⟨?_, alike.marked.mark .queryString [], alike.marked'.mark .queryString []⟩
  rw [settled_mark seamless alike.marked, settled_mark seamless alike.marked', alike.settled]

/-- A byte within the texts that are marked. -/
theorem transition (seamless : Seamless on) (alike : Alike on first.cs.texts first second)
    (some : first.cs.texts ≠ []) {c : UInt8} {found : List Action × State}
    (reads : Ebb.next first.cs c = .some found) (rest : List UInt8) :
    ∃ next next', first.transition on c rest = (next, 1) ∧
      second.transition on c rest = (next', 1) ∧ next.cs = found.2 ∧
      Alike on next.cs.texts next next' := by
  obtain ⟨actions, state⟩ := found
  have alike' := alike.setState seamless state
  rw [Parser.transition, Parser.transition, ← alike.cs seamless, reads]
  dsimp only
  obtain plain | ⟨uri, begins⟩ := next_texts reads some
  · obtain ⟨next, next', performs, performs', same, alike, _⟩ :=
      alike'.plain seamless plain first.cs.together c rest 1
    refine ⟨next, next', performs, performs', same, ?_⟩
    rw [same]
    exact alike
  · rw [uri] at alike'
    have marks := alike'.mark seamless
    generalize texts : state.texts = texts at begins
    cases begins with
    | marked =>
        refine ⟨_, _, rfl, rfl, rfl, ?_⟩
        rw [setMark, texts]
        exact marks
    | empty =>
        obtain ⟨next, next', performs, performs', same, alike, _⟩ :=
          marks.plain seamless (.write .queryString (.write .uri (.done [])))
            (.two .queryString (.inr rfl)) c rest 1
        refine ⟨next, next', performs, performs', same, ?_⟩
        rw [same, setMark, texts]
        exact alike

end Alike

/-! ### Reading on -/

variable {parser : Parser σ} {c : UInt8} {rest : List UInt8}

theorem transition_none (reads : Ebb.next parser.cs c = none) (rest : List UInt8) :
    parser.transition on c rest = ({ parser with cs := .error }, 0) := by
  rw [transition, reads]

theorem resume_none (reads : Ebb.next parser.cs c = none) (rest : List UInt8) :
    parser.resume on 0 (c :: rest) = { parser with cs := .error } := by
  have stays : ({ parser with cs := .error } : Parser σ).transition on c rest =
      ({ parser with cs := .error }, 0) := transition_none rfl rest
  rw [resume, advance, transition_none reads rest]
  simp only [↓reduceIte, stays]

theorem resume_error (error : parser.cs = .error) (buffer : List UInt8) :
    parser.resume on 0 buffer = parser := by
  cases buffer with
  | nil => rfl
  | cons c rest =>
      rw [resume_none (by rw [error]; rfl) rest, ← error]

theorem resume_some {after : Parser σ} {n : Nat}
    (reads : parser.transition on c rest = (after, n + 1)) :
    parser.resume on 0 (c :: rest) = (after.pass c).resume on n rest := by
  rw [resume, advance, reads]
  simp only [Nat.add_eq_zero_iff, one_ne_zero, and_false, ↓reduceIte]

/-- Parsers that differ in what has been passed on already are the same behind the buffer. -/
theorem Alike.resume (seamless : Seamless on) (buffer : List UInt8) {texts : List Element}
    {first second : Parser σ} (together : Together texts)
    (states : first.cs = .error ∨ texts = first.cs.texts) (alike : Alike on texts first second) :
    (first.resume on 0 buffer).settled on = (second.resume on 0 buffer).settled on := by
  induction buffer generalizing texts first second with
  | nil => exact alike.settled
  | cons c rest ih =>
      obtain error | same := states
      · rw [resume_error error, resume_error ((alike.cs seamless).symm.trans error)]
        exact alike.settled
      subst same
      by_cases nothing : first.cs.texts = []
      · rw [nothing] at alike
        rw [alike.eq seamless]
      cases reads : Ebb.next first.cs c with
      | none =>
          rw [resume_none reads, resume_none (by rwa [← alike.cs seamless])]
          exact (alike.setState seamless .error).settled
      | some found =>
          obtain ⟨next, next', transition, transition', -, alike⟩ :=
            alike.transition seamless nothing reads rest
          rw [resume_some transition, resume_some transition']
          exact ih next.cs.together (.inr rfl) (alike.pass seamless next.cs.together c)

end Parser

end Ebb
