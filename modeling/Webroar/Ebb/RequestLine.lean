import Webroar.Ebb.Buffers
import Webroar.Ebb.Message

/-! # Reading request lines

A parser that reads a request line as it is sent makes the callbacks for it, in one piece each.
-/

namespace Ebb

variable {σ : Type} {on : Callbacks σ}

/-- Callbacks that never stop reading and refuse no request. -/
def Accepting (on : Callbacks σ) : Prop := ∀ data event, (on data event).2 = true

/-- What the callbacks gather from some events. -/
def gather (on : Callbacks σ) (data : σ) (events : List Event) : σ :=
  events.foldl (fun data event => (on data event).1) data

theorem gather_append (data : σ) (first second : List Event) :
    gather on data (first ++ second) = gather on (gather on data first) second :=
  List.foldl_append

/-! ### Runs without actions -/

/-- The state behind some bytes, as long as there are no actions. -/
def walk (state : State) : List UInt8 → Option State
  | [] => some state
  | c :: rest =>
      match next state c with
      | some ([], after) => walk after rest
      | _ => none

theorem walk_cons {state after : State} {c : UInt8} (reads : next state c = goto after)
    (rest : List UInt8) : walk state (c :: rest) = walk after rest := by
  rw [walk, reads]
  rfl

theorem walk_append {state after : State} {text : List UInt8} (walks : walk state text = some after)
    (rest : List UInt8) : walk state (text ++ rest) = walk after rest := by
  induction text generalizing state with
  | nil =>
      cases walks
      rfl
  | cons c text ih =>
      rw [walk] at walks
      split at walks
      · rename_i between reads
        rw [List.cons_append, walk_cons reads]
        exact ih walks
      · cases walks

/-- A text with escapes. -/
theorem walk_escaped {state : Escape → State} {accepts : UInt8 → Bool} {others : UInt8 → Transition}
    (reads : ∀ escape c, next (state escape) c = escaped state accepts (others c) c escape)
    {text : List UInt8} (sound : isEscaped accepts text = true) :
    walk (state .plain) text = some (state .plain) := by
  fun_induction isEscaped accepts text with
  | case1 => rfl
  | case2 first second rest ih =>
      rw [Bool.and_eq_true, Bool.and_eq_true] at sound
      obtain ⟨⟨hex, hex'⟩, sound⟩ := sound
      have percent : next (state .plain) 37 = goto (state .percent) := by
        rw [reads]
        rfl
      have digit : next (state .percent) first = goto (state .digit) := by
        rw [reads]
        exact if_pos hex
      have plain : next (state .digit) second = goto (state .plain) := by
        rw [reads]
        exact if_pos hex'
      rw [walk_cons percent, walk_cons digit, walk_cons plain]
      exact ih sound
  | case3 => cases sound
  | case4 c rest other ih =>
      rw [Bool.and_eq_true] at sound
      have stays : next (state .plain) c = goto (state .plain) := by
        rw [reads, escaped, if_neg other, if_pos sound.1]
      rw [walk_cons stays]
      exact ih sound.2

/-- The parser goes past some bytes. -/
def Parser.passes (text : List UInt8) (parser : Parser σ) : Parser σ :=
  { parser with marks := fun element => (parser.marks element).map (· ++ text) }

namespace Parser

variable {parser : Parser σ} {rest : List UInt8}

theorem passes_nil (parser : Parser σ) : parser.passes [] = parser := by
  simp only [passes, List.append_nil, Option.map_id']

theorem passes_passes (first second : List UInt8) (parser : Parser σ) :
    (parser.passes first).passes second = parser.passes (first ++ second) := by
  simp only [passes, Option.map_map, Function.comp_def, List.append_assoc]

theorem resume_walk {text : List UInt8} {after : State}
    (walks : walk parser.cs text = some after) (rest : List UInt8) :
    parser.resume on 0 (text ++ rest) =
      ({ parser with cs := after }.passes text).resume on 0 rest := by
  induction text generalizing parser with
  | nil =>
      cases walks
      rw [passes_nil]
      rfl
  | cons c text ih =>
      rw [walk] at walks
      split at walks
      · rename_i between reads
        have goes : parser.transition on c (text ++ rest) = ({ parser with cs := between }, 0 + 1) := by
          rw [transition, reads]
          rfl
        rw [List.cons_append, resume_some goes, ih walks]
        exact congrArg (resume on · 0 rest) (passes_passes [c] text { parser with cs := after })
      · cases walks

/-- A byte with actions that skip no body. -/
theorem resume_actions {c : UInt8} {actions : List Action} {state : State} {after : Parser σ}
    (reads : next parser.cs c = some (actions, state))
    (performs : actions.foldl (perform on c rest) ({ parser with cs := state }, 1) = (after, 1)) :
    parser.resume on 0 (c :: rest) = (after.pass c).resume on 0 rest := by
  apply resume_some
  rw [transition, reads]
  exact performs

/-! ### Where a parser is -/

/-- Nothing is marked. -/
def noMarks : Element → Option (List UInt8) := fun _ => none

/-- A parser in the middle of a request, but not of a body. -/
def reading (cs : State) (request : Request) (marks : Element → Option (List UInt8)) (data : σ) :
    Parser σ := ⟨cs, 0, false, some request, marks, data⟩

/-- The marked texts go on. -/
def extend (text : List UInt8) (marks : Element → Option (List UInt8)) :
    Element → Option (List UInt8) := fun element => (marks element).map (· ++ text)

@[simp] theorem extend_noMarks (text : List UInt8) : extend text noMarks = noMarks := rfl

@[simp] theorem extend_update (text : List UInt8) (marks : Element → Option (List UInt8))
    (element : Element) (mark : List UInt8) :
    extend text (Function.update marks element (some mark)) =
      Function.update (extend text marks) element (some (mark ++ text)) := by
  funext other
  simp only [extend, Function.update_apply]
  split
  · rfl
  · rfl

@[simp] theorem update_noMarks (element : Element) :
    Function.update noMarks element none = noMarks := Function.update_eq_self element noMarks

section

variable {cs : State} {request : Request} {marks : Element → Option (List UInt8)} {data : σ}
  {c : UInt8}

theorem pass_reading (c : UInt8) :
    (reading cs request marks data).pass c = reading cs request (extend [c] marks) data := rfl

theorem walk_reading {text : List UInt8} {after : State} (walks : walk cs text = some after)
    (rest : List UInt8) :
    (reading cs request marks data).resume on 0 (text ++ rest) =
      (reading after request (extend text marks) data).resume on 0 rest := by
  have there : walk (reading cs request marks data).cs text = some after := walks
  rw [resume_walk there]
  rfl

theorem call_reading (accepting : Accepting on) (event : Request → Event) :
    (reading cs request marks data).call on event =
      reading cs request marks (on data (event request)).1 := by
  simp only [call, reading, accepting _ _, ↓reduceIte]

theorem callback_reading (accepting : Accepting on) {element : Element} {text : List UInt8}
    (present : marks element = some text) :
    (reading cs request marks data).callback on element =
      reading cs request marks (on data (.piece element text request.numberOfHeaders)).1 := by
  have marked : (reading cs request marks data).marks element = some text := present
  rw [callback, marked]
  exact call_reading accepting _

/-- A text is passed on at its end. -/
theorem write_reading (accepting : Accepting on) {element : Element} {text : List UInt8}
    (present : marks element = some text) (c : UInt8) (rest : List UInt8) (n : Nat) :
    perform on c rest (reading cs request marks data, n) (.write element) =
      (reading cs request (Function.update marks element none)
        (on data (.piece element text request.numberOfHeaders)).1, n) := by
  rw [perform, callback_reading accepting present]
  rfl

theorem reads_reading {actions : List Action} {state : State} {after : Parser σ}
    {rest : List UInt8} (reads : next cs c = some (actions, state))
    (performs : actions.foldl (perform on c rest) (reading state request marks data, 1) =
      (after, 1)) :
    (reading cs request marks data).resume on 0 (c :: rest) = (after.pass c).resume on 0 rest :=
  resume_actions reads performs

end

/-! ### The request line -/

theorem word_walks (method : Method) : ∃ c rest, word method = c :: rest ∧
    next .ready c = some ([.startReq], .method [c]) ∧
    walk (.method [c]) rest = some (.method (word method)) ∧
    next (.method (word method)) 32 = some ([.method method], .uri) := by
  cases method
  all_goals exact ⟨_, _, rfl, rfl, rfl, rfl⟩

theorem resume_method (accepting : Accepting on) (method : Method) (data : σ)
    (rest : List UInt8) :
    (init data).resume on 0 (word method ++ 32 :: rest) =
      (reading .uri { Request.init with method := some method } noMarks
        (on data .newRequest).1).resume on 0 rest := by
  obtain ⟨c, text, same, first, walks, last⟩ := word_walks method
  rw [same] at walks last ⊢
  have starts : [Action.startReq].foldl (perform on c (text ++ 32 :: rest))
      ({ init data with cs := .method [c] }, 1) =
      (reading (.method [c]) Request.init noMarks (on data .newRequest).1, 1) := by
    simp only [List.foldl_cons, List.foldl_nil, perform, accepting _ _, ↓reduceIte]
    rfl
  rw [List.cons_append, resume_actions first starts, pass_reading, extend_noMarks,
    walk_reading walks, extend_noMarks, reads_reading last rfl]
  rfl

/-- What a URI ends with: a space, or the mark of a fragment. -/
inductive EndsUri : UInt8 → State → Prop where
  | space : EndsUri 32 (.http 0)
  | mark : EndsUri 35 .fragmentStart

theorem EndsUri.uriEnd {c : UInt8} {state : State} (ends : EndsUri c state)
    (actions : List Action) :
    uriEnd actions c = some (actions ++ [.write .uri], state) := by
  cases ends with
  | space => rfl
  | mark => rfl

theorem EndsUri.isUriByte {c : UInt8} {state : State} (ends : EndsUri c state) :
    isUriByte c = false := by
  cases ends with
  | space => rfl
  | mark => rfl

/-- A text with escapes from its first byte on, which has an action. -/
theorem walk_tail {state : Escape → State} {accepts : UInt8 → Bool} {others : UInt8 → Transition}
    (reads : ∀ escape c, next (state escape) c = escaped state accepts (others c) c escape)
    {c : UInt8} {rest : List UInt8} (sound : isEscaped accepts (c :: rest) = true) :
    walk (if c = 37 then state .percent else state .plain) rest = some (state .plain) := by
  have whole := walk_escaped reads sound
  by_cases percent : c = 37
  · have goes : next (state .plain) c = goto (state .percent) := by
      rw [reads, escaped, if_pos percent]
    rw [walk_cons goes] at whole
    rw [if_pos percent]
    exact whole
  · unfold isEscaped at sound
    rw [if_neg percent, Bool.and_eq_true] at sound
    rw [if_neg percent]
    exact walk_escaped reads sound.2

section

variable {request : Request} {data : σ} {c : UInt8} {state : State}

/-- The end of a URI without a path. -/
theorem resume_uriEnd (accepting : Accepting on) (ends : EndsUri c state) {cs : State}
    (reads : next cs c = uriEnd [] c) (uri rest : List UInt8) :
    (reading cs request (Function.update noMarks .uri (some uri)) data).resume on 0 (c :: rest) =
      (reading state request noMarks
        (on data (.piece .uri uri request.numberOfHeaders)).1).resume on 0 rest := by
  rw [ends.uriEnd] at reads
  have performs : [Action.write .uri].foldl (perform on c rest)
      (reading state request (Function.update noMarks .uri (some uri)) data, 1) =
      (reading state request noMarks (on data (.piece .uri uri request.numberOfHeaders)).1, 1) := by
    rw [List.foldl_cons, write_reading accepting (Function.update_self ..), List.foldl_nil,
      Function.update_idem, update_noMarks]
  rw [reads_reading reads performs, pass_reading, extend_noMarks]

/-- The end of a URI with a path or query string behind which it ends, too. -/
theorem resume_bothEnd (accepting : Accepting on) (ends : EndsUri c state) {cs : State}
    {element : Element} (reads : next cs c = uriEnd [.write element] c) (other : element ≠ .uri)
    (text uri rest : List UInt8) :
    (reading cs request (Function.update (Function.update noMarks .uri (some uri)) element
        (some text)) data).resume on 0 (c :: rest) =
      (reading state request noMarks (gather on data
        [.piece element text request.numberOfHeaders,
          .piece .uri uri request.numberOfHeaders])).resume on 0 rest := by
  rw [ends.uriEnd] at reads
  have performs : ([Action.write element] ++ [Action.write .uri]).foldl (perform on c rest)
      (reading state request (Function.update (Function.update noMarks .uri (some uri)) element
        (some text)) data, 1) =
      (reading state request noMarks (gather on data
        [.piece element text request.numberOfHeaders,
          .piece .uri uri request.numberOfHeaders]), 1) := by
    rw [List.singleton_append, List.foldl_cons, write_reading accepting (Function.update_self ..),
      Function.update_idem, Function.update_comm other.symm, update_noMarks, List.foldl_cons,
      write_reading accepting (Function.update_self ..), List.foldl_nil, Function.update_idem,
      update_noMarks]
    rfl
  rw [reads_reading reads performs, pass_reading, extend_noMarks]

/-- The first byte of a text. -/
theorem resume_mark {cs after : State} {element : Element}
    (reads : next cs c = some ([.mark element], after))
    {marks : Element → Option (List UInt8)} (rest : List UInt8) :
    (reading cs request marks data).resume on 0 (c :: rest) =
      (reading after request (Function.update (extend [c] marks) element (some [c]))
        data).resume on 0 rest := by
  have performs : [Action.mark element].foldl (perform on c rest)
      (reading after request marks data, 1) =
      (reading after request (Function.update marks element (some [])) data, 1) := rfl
  rw [reads_reading reads performs, pass_reading, extend_update, List.nil_append]

theorem EndsUri.absolute (ends : EndsUri c state) :
    next (.absolute .plain) c = Ebb.uriEnd [] c := by
  have percent : c ≠ 37 := by
    intro same
    rw [same] at ends
    cases ends
  rw [next, escaped, if_neg percent, ends.isUriByte, if_neg Bool.false_ne_true]

theorem walk_scheme {text : List UInt8} (sound : text.all isSchemeByte = true) :
    walk .scheme text = some .scheme := by
  induction text with
  | nil => rfl
  | cons c text ih =>
      rw [List.all_cons, Bool.and_eq_true] at sound
      have other : c ≠ 58 := by
        intro same
        rw [same] at sound
        exact absurd sound.1 (by decide)
      have stays : next .scheme c = goto .scheme := by
        rw [next, if_neg other, if_pos sound.1]
      rw [walk_cons stays]
      exact ih sound.2

/-- The colon behind a scheme, which may be empty. -/
theorem resume_scheme (scheme : { text : List UInt8 // text.all isSchemeByte = true })
    (rest : List UInt8) :
    (reading .uri request noMarks data).resume on 0 (scheme.1 ++ 58 :: rest) =
      (reading (.absolute .plain) request
        (Function.update noMarks .uri (some (scheme.1 ++ [58]))) data).resume on 0 rest := by
  obtain ⟨text, sound⟩ := scheme
  cases text with
  | nil =>
      have first : next .uri 58 = some ([.mark .uri], .absolute .plain) := rfl
      rw [List.nil_append, resume_mark first, extend_noMarks]
      rfl
  | cons c text =>
      rw [List.all_cons, Bool.and_eq_true] at sound
      have first : next .uri c = some ([.mark .uri], .scheme) := by
        have others : c ≠ 42 ∧ c ≠ 47 ∧ c ≠ 58 := by
          refine ⟨?_, ?_, ?_⟩
          all_goals
            intro same
            rw [same] at sound
            exact absurd sound.1 (by decide)
        rw [next, if_neg others.1, if_neg others.2.1, if_neg others.2.2, if_pos sound.1]
      have colon : next .scheme 58 = goto (.absolute .plain) := rfl
      have walks : walk .scheme (text ++ [58]) = some (.absolute .plain) := by
        rw [walk_append (walk_scheme sound.2), walk_cons colon]
        rfl
      have parts : text ++ 58 :: rest = (text ++ [58]) ++ rest := by
        rw [List.append_assoc, List.singleton_append]
      rw [List.cons_append, resume_mark first, extend_noMarks, parts, walk_reading walks,
        extend_update, extend_noMarks]
      rfl

theorem resume_asterisk (accepting : Accepting on) (ends : EndsUri c state) (rest : List UInt8) :
    (reading .uri request noMarks data).resume on 0 (42 :: c :: rest) =
      (reading state request noMarks
        (on data (.piece .uri [42] request.numberOfHeaders)).1).resume on 0 rest := by
  have first : next .uri 42 = some ([.mark .uri], .asterisk) := rfl
  have last : next .asterisk c = uriEnd [] c := rfl
  rw [resume_mark first]
  exact resume_uriEnd accepting ends last [42] rest

theorem resume_absolute (accepting : Accepting on) (ends : EndsUri c state)
    (scheme : { text : List UInt8 // text.all isSchemeByte = true })
    (text : EscapedText isUriByte) (rest : List UInt8) :
    (reading .uri request noMarks data).resume on 0
        ((Target.absolute scheme text).uri ++ c :: rest) =
      (reading state request noMarks (on data
        (.piece .uri (Target.absolute scheme text).uri request.numberOfHeaders)).1).resume on 0
          rest := by
  have reads : ∀ escape c, next (.absolute escape) c =
      escaped .absolute isUriByte (Ebb.uriEnd [] c) c escape := fun _ _ => rfl
  rw [Target.uri, List.append_assoc, List.cons_append, resume_scheme,
    walk_reading (walk_escaped reads text.2), extend_update, extend_noMarks,
    resume_uriEnd accepting ends ends.absolute, List.append_assoc, List.singleton_append]

theorem EndsUri.path (ends : EndsUri c state) :
    next (.path .plain) c = Ebb.uriEnd [.write .path] c := by
  cases ends with
  | space => rfl
  | mark => rfl

theorem EndsUri.query (ends : EndsUri c state) :
    next (.query .plain) c = Ebb.uriEnd [.write .queryString] c := by
  cases ends with
  | space => rfl
  | mark => rfl

/-- The first byte of a text with escapes. -/
theorem isUriByte_of_isEscaped {b : UInt8} {text : List UInt8}
    (sound : isEscaped isUriByte (b :: text) = true) (plain : b ≠ 37) : isUriByte b = true := by
  unfold isEscaped at sound
  rw [if_neg plain, Bool.and_eq_true] at sound
  exact sound.1

/-- A query string, with which the URI ends. -/
theorem resume_query (accepting : Accepting on) (ends : EndsUri c state)
    (query : EscapedText isUriByte) (uri rest : List UInt8) :
    (reading .queryStart request (Function.update noMarks .uri (some uri)) data).resume on 0
        (query.1 ++ c :: rest) =
      (reading state request noMarks (gather on data
        [.piece .queryString query.1 request.numberOfHeaders,
          .piece .uri (uri ++ query.1) request.numberOfHeaders])).resume on 0 rest := by
  obtain ⟨text, sound⟩ := query
  have reads : ∀ escape c, next (.query escape) c =
      escaped .query isUriByte (Ebb.uriEnd [.write .queryString] c) c escape := fun _ _ => rfl
  cases text with
  | nil =>
      have last : next .queryStart c =
          some ([.mark .queryString, .write .queryString] ++ [.write .uri], state) := by
        cases ends with
        | space => rfl
        | mark => rfl
      have performs : ([Action.mark .queryString, .write .queryString] ++
          [Action.write .uri]).foldl
          (perform on c rest)
          (reading state request (Function.update noMarks .uri (some uri)) data, 1) =
          (reading state request noMarks (gather on data
            [.piece .queryString [] request.numberOfHeaders,
              .piece .uri uri request.numberOfHeaders]), 1) := by
        have marks : perform on c rest
            (reading state request (Function.update noMarks .uri (some uri)) data, 1)
            (.mark .queryString) = (reading state request (Function.update
              (Function.update noMarks .uri (some uri)) .queryString (some [])) data, 1) := rfl
        rw [List.cons_append, List.singleton_append, List.foldl_cons, marks, List.foldl_cons,
          write_reading accepting (Function.update_self ..), Function.update_idem,
          Function.update_comm (show Element.uri ≠ .queryString by rintro ⟨⟩), update_noMarks,
          List.foldl_cons, write_reading accepting (Function.update_self ..), List.foldl_nil,
          Function.update_idem, update_noMarks]
        rfl
      rw [List.nil_append, reads_reading last performs, pass_reading, extend_noMarks,
        List.append_nil]
  | cons b text =>
      have first : next .queryStart b = some ([.mark .queryString],
          if b = 37 then .query .percent else .query .plain) := by
        by_cases percent : b = 37
        · rw [next, if_pos percent, if_pos percent]
        · rw [next, if_neg percent, if_neg percent,
            if_pos (isUriByte_of_isEscaped sound percent)]
      rw [List.cons_append, resume_mark first, walk_reading (walk_tail reads sound), extend_update,
        extend_update, extend_noMarks, extend_update, extend_noMarks,
        resume_bothEnd accepting ends ends.query (by rintro ⟨⟩), List.append_assoc]
      rfl

theorem resume_origin (accepting : Accepting on) (ends : EndsUri c state)
    (path : EscapedText isPathByte) (query : Option (EscapedText isUriByte)) (rest : List UInt8)
    (fresh : request.numberOfHeaders = 0) :
    (reading .uri request noMarks data).resume on 0 ((Target.origin path query).uri ++ c :: rest) =
      (reading state request noMarks
        (gather on data (Target.origin path query).events)).resume on 0 rest := by
  have reads : ∀ escape c, next (.path escape) c = escaped .path isPathByte
      (if c = 63 then some ([.write .path], .queryStart) else Ebb.uriEnd [.write .path] c) c escape :=
    fun _ _ => rfl
  have slash : next .uri 47 = some ([.mark .uri, .mark .path], .path .plain) := rfl
  have begins : ∀ tail, (reading .uri request noMarks data).resume on 0
      (Target.path path ++ tail) = (reading (.path .plain) request
        (Function.update (Function.update noMarks .uri (some (Target.path path))) .path
          (some (Target.path path))) data).resume on 0 tail := by
    intro tail
    have performs : [Action.mark .uri, .mark .path].foldl (perform on 47 (path.1 ++ tail))
        (reading (.path .plain) request noMarks data, 1) =
        (reading (.path .plain) request (Function.update (Function.update noMarks .uri (some []))
          .path (some [])) data, 1) := rfl
    rw [Target.path, List.cons_append, reads_reading slash performs, pass_reading, extend_update,
      extend_update, extend_noMarks, walk_reading (walk_escaped reads path.2), extend_update,
      extend_update, extend_noMarks]
    rfl
  cases query with
  | none =>
      rw [Target.uri, begins, resume_bothEnd accepting ends ends.path (by rintro ⟨⟩), fresh]
      rfl
  | some query =>
      have mark : next (.path .plain) 63 = some ([.write .path], .queryStart) := rfl
      have performs : [Action.write .path].foldl (perform on 63 (query.1 ++ c :: rest))
          (reading .queryStart request (Function.update (Function.update noMarks .uri
            (some (Target.path path))) .path (some (Target.path path))) data, 1) =
          (reading .queryStart request (Function.update noMarks .uri (some (Target.path path)))
            (on data (.piece .path (Target.path path) request.numberOfHeaders)).1, 1) := by
        rw [List.foldl_cons, write_reading accepting (Function.update_self ..), List.foldl_nil,
          Function.update_idem, Function.update_comm (show Element.uri ≠ .path by rintro ⟨⟩),
          update_noMarks]
      rw [Target.uri, List.append_assoc, List.cons_append, begins, reads_reading mark performs,
        pass_reading, extend_update, extend_noMarks, resume_query accepting ends query, fresh,
        List.append_assoc, List.singleton_append]
      rfl

/-- The URI. -/
theorem resume_target (accepting : Accepting on) (ends : EndsUri c state) (target : Target)
    (rest : List UInt8) (fresh : request.numberOfHeaders = 0) :
    (reading .uri request noMarks data).resume on 0 (target.uri ++ c :: rest) =
      (reading state request noMarks (gather on data target.events)).resume on 0 rest := by
  cases target with
  | asterisk =>
      rw [Target.uri, List.singleton_append, resume_asterisk accepting ends, fresh]
      rfl
  | origin path query => exact resume_origin accepting ends path query rest fresh
  | absolute scheme text =>
      rw [resume_absolute accepting ends, fresh]
      rfl

theorem resume_fragment (accepting : Accepting on) (fragment : EscapedText isUriByte)
    (rest : List UInt8) :
    (reading .fragmentStart request noMarks data).resume on 0 (fragment.1 ++ 32 :: rest) =
      (reading (.http 0) request noMarks
        (on data (.piece .fragment fragment.1 request.numberOfHeaders)).1).resume on 0 rest := by
  obtain ⟨text, sound⟩ := fragment
  have reads : ∀ escape c, next (.fragment escape) c = escaped .fragment isUriByte
      (if c = 32 then some ([.write .fragment], .http 0) else none) c escape := fun _ _ => rfl
  cases text with
  | nil =>
      have last : next .fragmentStart 32 = some ([.mark .fragment, .write .fragment], .http 0) := rfl
      have performs : [Action.mark .fragment, .write .fragment].foldl (perform on 32 rest)
          (reading (.http 0) request noMarks data, 1) = (reading (.http 0) request noMarks
            (on data (.piece .fragment [] request.numberOfHeaders)).1, 1) := by
        have marks : perform on 32 rest (reading (.http 0) request noMarks data, 1)
            (.mark .fragment) = (reading (.http 0) request
              (Function.update noMarks .fragment (some [])) data, 1) := rfl
        rw [List.foldl_cons, marks, List.foldl_cons,
          write_reading accepting (Function.update_self ..), List.foldl_nil, Function.update_idem,
          update_noMarks]
      rw [List.nil_append, reads_reading last performs, pass_reading, extend_noMarks]
  | cons b text =>
      have first : next .fragmentStart b = some ([.mark .fragment],
          if b = 37 then .fragment .percent else .fragment .plain) := by
        by_cases percent : b = 37
        · rw [next, if_pos percent, if_pos percent]
        · rw [next, if_neg percent, if_neg percent,
            if_pos (isUriByte_of_isEscaped sound percent)]
      have last : next (.fragment .plain) 32 = some ([.write .fragment], .http 0) := rfl
      have performs : [Action.write .fragment].foldl (perform on 32 rest)
          (reading (.http 0) request (Function.update noMarks .fragment (some (b :: text))) data,
            1) = (reading (.http 0) request noMarks
              (on data (.piece .fragment (b :: text) request.numberOfHeaders)).1, 1) := by
        rw [List.foldl_cons, write_reading accepting (Function.update_self ..), List.foldl_nil,
          Function.update_idem, update_noMarks]
      rw [List.cons_append, resume_mark first, walk_reading (walk_tail reads sound), extend_update,
        extend_noMarks, extend_noMarks, List.singleton_append, reads_reading last performs,
        pass_reading, extend_noMarks]

/-- The digits of a number. -/
theorem resume_digits {cs : State} {action : Action} {f : UInt8 → Request → Request}
    (reads : ∀ c, isDigit c = true → next cs c = some ([action], cs))
    (performs : ∀ c (rest : List UInt8) (before : Parser σ × Nat),
      perform on c rest before action = (before.1.setRequest (f c), before.2))
    {digits : List UInt8} (sound : digits.all isDigit = true) (rest : List UInt8) :
    (reading cs request noMarks data).resume on 0 (digits ++ rest) =
      (reading cs (digits.foldl (fun request c => f c request) request) noMarks data).resume on 0
        rest := by
  induction digits generalizing request with
  | nil => rfl
  | cons c digits ih =>
      rw [List.all_cons, Bool.and_eq_true] at sound
      have performed : [action].foldl (perform on c (digits ++ rest))
          (reading cs request noMarks data, 1) = (reading cs (f c request) noMarks data, 1) := by
        rw [List.foldl_cons, performs, List.foldl_nil]
        rfl
      rw [List.cons_append, reads_reading (reads c sound.1) performed, pass_reading,
        extend_noMarks, ih sound.2]
      rfl

/-- A number, the first digit of which is read in a state of its own. -/
theorem resume_number {start cs : State} {action : Action} {f : UInt8 → Request → Request}
    (starts : ∀ c, isDigit c = true → next start c = some ([action], cs))
    (reads : ∀ c, isDigit c = true → next cs c = some ([action], cs))
    (performs : ∀ c (rest : List UInt8) (before : Parser σ × Nat),
      perform on c rest before action = (before.1.setRequest (f c), before.2))
    (digits : Digits) (rest : List UInt8) :
    (reading start request noMarks data).resume on 0 (digits.1 ++ rest) =
      (reading cs (digits.1.foldl (fun request c => f c request) request) noMarks data).resume on 0
        rest := by
  obtain ⟨text, some, sound⟩ := digits
  cases text with
  | nil => exact absurd rfl some
  | cons c text =>
      rw [List.all_cons, Bool.and_eq_true] at sound
      have performed : [action].foldl (perform on c (text ++ rest))
          (reading cs request noMarks data, 1) = (reading cs (f c request) noMarks data, 1) := by
        rw [List.foldl_cons, performs, List.foldl_nil]
        rfl
      rw [List.cons_append, reads_reading (starts c sound.1) performed, pass_reading,
        extend_noMarks, resume_digits reads performs sound.2]
      rfl

theorem foldl_versionMajor (digits : List UInt8) (request : Request) :
    digits.foldl (fun request c =>
        { request with versionMajor := addDigit 32 c request.versionMajor }) request =
      { request with
        versionMajor := digits.foldl (fun number c => addDigit 32 c number)
          request.versionMajor } := by
  induction digits generalizing request with
  | nil => rfl
  | cons c digits ih => rw [List.foldl_cons, ih, List.foldl_cons]

theorem foldl_versionMinor (digits : List UInt8) (request : Request) :
    digits.foldl (fun request c =>
        { request with versionMinor := addDigit 32 c request.versionMinor }) request =
      { request with
        versionMinor := digits.foldl (fun number c => addDigit 32 c number)
          request.versionMinor } := by
  induction digits generalizing request with
  | nil => rfl
  | cons c digits ih => rw [List.foldl_cons, ih, List.foldl_cons]

/-- The rest of the request line. -/
theorem resume_version (major minor : Digits) (rest : List UInt8) :
    (reading (.http 0) request noMarks data).resume on 0
        (Message.httpText ++ (major.1 ++ 46 :: (minor.1 ++ (Header.crlf ++ rest)))) =
      (reading .headers { request with
        versionMajor := major.1.foldl (fun number c => addDigit 32 c number) request.versionMajor
        versionMinor := minor.1.foldl (fun number c => addDigit 32 c number) request.versionMinor }
        noMarks data).resume on 0 rest := by
  have http : walk (.http 0) Message.httpText = some .majorStart := rfl
  have dot : walk .major [46] = some .minorStart := rfl
  have line : walk .minor Header.crlf = some .headers := rfl
  have digit : ∀ c, isDigit c = true → c ≠ 46 ∧ c ≠ 13 := by
    intro c digit
    constructor
    all_goals
      intro same
      rw [same] at digit
      exact absurd digit (by decide)
  rw [walk_reading http, extend_noMarks,
    @resume_number σ on _ _ .majorStart .major .versionMajor
      (fun c request => { request with versionMajor := addDigit 32 c request.versionMajor })
      (fun c digit => if_pos digit)
      (fun c sound => by rw [next, if_neg (digit c sound).1, if_pos sound])
      (fun _ _ _ => rfl) major,
    foldl_versionMajor]
  rw [show 46 :: (minor.1 ++ (Header.crlf ++ rest)) = [46] ++ (minor.1 ++ (Header.crlf ++ rest))
    from rfl, walk_reading dot, extend_noMarks,
    @resume_number σ on _ _ .minorStart .minor .versionMinor
      (fun c request => { request with versionMinor := addDigit 32 c request.versionMinor })
      (fun c digit => if_pos digit)
      (fun c sound => by rw [next, if_neg (digit c sound).2, if_pos sound])
      (fun _ _ _ => rfl) minor,
    foldl_versionMinor, walk_reading line, extend_noMarks]

end

end Parser

end Ebb
