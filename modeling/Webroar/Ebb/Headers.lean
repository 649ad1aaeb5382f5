import Webroar.Ebb.RequestLine

/-! # Reading headers

A parser that reads headers as they are sent passes them on with their numbers, and takes note of
those that it knows.
-/

namespace Ebb

variable {σ : Type} {on : Callbacks σ}

/-! ### Names -/

theorem isPrefixOf_of_append {text more word : List UInt8}
    (begins : (text ++ more).isPrefixOf word = true) : text.isPrefixOf word = true := by
  rw [List.isPrefixOf_iff_prefix] at begins ⊢
  exact (List.prefix_append text more).trans begins

theorem known_append {text more : List UInt8} (unknown : known text = none) :
    known (text ++ more) = none := by
  unfold known at unknown ⊢
  split at unknown
  · cases unknown
  · rename_i none
    apply if_neg
    intro some
    apply none
    simp only [Bool.or_eq_true] at some ⊢
    obtain (first | second) | third := some
    · exact .inl (.inl (isPrefixOf_of_append first))
    · exact .inl (.inr (isPrefixOf_of_append second))
    · exact .inr (isPrefixOf_of_append third)

/-- A name with its next byte. -/
theorem known_bind (text : List UInt8) (c : UInt8) :
    ((known text).bind fun name => known (name ++ [c])) = known (text ++ [c]) := by
  cases found : known text with
  | none => exact (known_append found).symm
  | some name =>
      have same : text = name := by
        unfold known at found
        split at found
        · exact Option.some.inj found
        · cases found
      rw [same]
      rfl

theorem token_ne_colon {c : UInt8} (token : isToken c = true) : c ≠ 58 ∧ c ≠ 13 := by
  constructor
  all_goals
    intro same
    rw [same] at token
    exact absurd token (by decide)

theorem walk_field {text : List UInt8} (tokens : ∀ c ∈ text, isToken c = true)
    (before : List UInt8) :
    walk (.field (known before)) text = some (.field (known (before ++ text.map lower))) := by
  induction text generalizing before with
  | nil => rw [List.map_nil, List.append_nil, walk]
  | cons c text ih =>
      have token := tokens c (List.mem_cons_self ..)
      have stays : next (.field (known before)) c =
          goto (.field (known (before ++ [lower c]))) := by
        rw [next, if_neg (token_ne_colon token).1, if_pos token, known_bind]
      rw [walk_cons stays, ih fun other member => tokens other (List.mem_cons_of_mem _ member),
        List.append_assoc, List.singleton_append, List.map_cons]

/-- Where a header begins, and what happens to the request there. -/
inductive StartsHeader : State → List Action → (Request → Request) → Prop where
  | first : StartsHeader .headers [] id
  | later : StartsHeader .nextHeader [.endHeaderLine] fun request =>
      { request with numberOfHeaders := request.numberOfHeaders + 1 }

theorem StartsHeader.reads {cs : State} {actions : List Action} {f : Request → Request}
    (starts : StartsHeader cs actions f) (c : UInt8) : next cs c = headerStart actions c := by
  cases starts with
  | first => rfl
  | later => rfl

/-- What the name of a header says. -/
def nameNote (kind : HeaderKind) (request : Request) : Request :=
  if kind = .transferEncoding then { request with transferEncoding := .chunked } else request

/-! ### Values -/

/-- What a byte of a value says. -/
def Value.note (c : UInt8) (request : Request) : Value → Request
  | .digits => { request with contentLength := Parser.addDigit 64 c request.contentLength }
  | _ => request

/-- What bytes of a value say. -/
def Value.notes (request : Request) (value : Value) : List UInt8 → Value × Request
  | [] => (value, request)
  | c :: text => (value.next c).notes ((value.next c).note c request) text

/-- What the end of a value says. -/
def Value.endNote (request : Request) : Value → Request
  | .option seen =>
      if seen = keepAliveText then { request with keepAlive := some true }
      else if seen = closeText then { request with keepAlive := some false } else request
  | .coding seen =>
      if seen = identityText then { request with transferEncoding := .identity } else request
  | _ => request

/-- What a value says. -/
def valueNote (kind : HeaderKind) (request : Request) : List UInt8 → Request
  | [] => request
  | c :: text =>
      let (value, request) := (firstOf kind c).notes ((firstOf kind c).note c request) text
      value.endNote request

theorem Value.note_numberOfHeaders (value : Value) (c : UInt8) (request : Request) :
    (value.note c request).numberOfHeaders = request.numberOfHeaders := by
  cases value with
  | _ => rfl

theorem Value.notes_numberOfHeaders (text : List UInt8) (value : Value) (request : Request) :
    (value.notes request text).2.numberOfHeaders = request.numberOfHeaders := by
  induction text generalizing value request with
  | nil => rfl
  | cons c text ih =>
      rw [Value.notes]
      exact (ih _ _).trans (Value.note_numberOfHeaders _ c request)

theorem Value.endNote_numberOfHeaders (value : Value) (request : Request) :
    (value.endNote request).numberOfHeaders = request.numberOfHeaders := by
  unfold Value.endNote
  repeat' split
  all_goals rfl

/-- Values that say nothing. -/
theorem Value.notes_other (text : List UInt8) (request : Request) :
    Value.other.notes request text = (.other, request) := by
  induction text with
  | nil => rfl
  | cons c text ih => exact ih

theorem Value.notes_digits (text : List UInt8) (request : Request) :
    (Value.digits.notes request text).2 =
        { request with
          contentLength := (text.takeWhile isDigit).foldl
            (fun number c => Parser.addDigit 64 c number) request.contentLength } ∧
      ((Value.digits.notes request text).1 = .digits ∨
        (Value.digits.notes request text).1 = .other) := by
  induction text generalizing request with
  | nil => exact ⟨rfl, .inl rfl⟩
  | cons c text ih =>
      by_cases digit : isDigit c = true
      · have stays : Value.digits.next c = .digits := if_pos digit
        rw [Value.notes, stays, List.takeWhile_cons_of_pos digit]
        exact ih _
      · have leaves : Value.digits.next c = .other := if_neg digit
        have rest := Value.notes_other text request
        rw [Value.notes, leaves, List.takeWhile_cons_of_neg digit]
        exact ⟨congrArg Prod.snd rest, .inr (congrArg Prod.fst rest)⟩

/-- A value of a header that the parser compares, in the form in which it does so. -/
theorem optionOf_next (text : List UInt8) (c : UInt8) :
    (optionOf text).next c = optionOf (text ++ [lower c]) := by
  unfold optionOf
  split
  · rfl
  · rename_i none
    refine (if_neg fun some => none ?_).symm
    simp only [Bool.or_eq_true] at some ⊢
    obtain first | second := some
    · exact .inl (isPrefixOf_of_append first)
    · exact .inr (isPrefixOf_of_append second)

theorem codingOf_next (text : List UInt8) (c : UInt8) :
    (codingOf text).next c = codingOf (text ++ [c]) := by
  unfold codingOf
  split
  · rfl
  · rename_i none
    exact (if_neg fun some => none (isPrefixOf_of_append some)).symm

theorem note_optionOf (text : List UInt8) (c : UInt8) (request : Request) :
    (optionOf text).note c request = request := by
  unfold optionOf
  split
  · rfl
  · rfl

theorem note_codingOf (text : List UInt8) (c : UInt8) (request : Request) :
    (codingOf text).note c request = request := by
  unfold codingOf
  split
  · rfl
  · rfl

theorem notes_optionOf (text before : List UInt8) (request : Request) :
    (optionOf before).notes request text = (optionOf (before ++ text.map lower), request) := by
  induction text generalizing before with
  | nil => rw [Value.notes, List.map_nil, List.append_nil]
  | cons c text ih =>
      rw [Value.notes, optionOf_next, note_optionOf, ih, List.append_assoc,
        List.singleton_append, List.map_cons]

theorem notes_codingOf (text before : List UInt8) (request : Request) :
    (codingOf before).notes request text = (codingOf (before ++ text), request) := by
  induction text generalizing before with
  | nil => rw [Value.notes, List.append_nil]
  | cons c text ih =>
      rw [Value.notes, codingOf_next, note_codingOf, ih, List.append_assoc, List.singleton_append]

theorem endNote_optionOf (text : List UInt8) (request : Request) :
    (optionOf text).endNote request =
      if text = keepAliveText then { request with keepAlive := some true }
      else if text = closeText then { request with keepAlive := some false } else request := by
  unfold optionOf
  split
  · rfl
  · rename_i none
    have other : text ≠ keepAliveText ∧ text ≠ closeText := by
      constructor
      all_goals
        intro same
        rw [same] at none
        exact none (by decide)
    rw [if_neg other.1, if_neg other.2]
    rfl

theorem endNote_codingOf (text : List UInt8) (request : Request) :
    (codingOf text).endNote request =
      if text = identityText then { request with transferEncoding := .identity } else request := by
  unfold codingOf
  split
  · rfl
  · rename_i none
    have other : text ≠ identityText := by
      intro same
      rw [same] at none
      exact none (by decide)
    rw [if_neg other]
    rfl

/-- The parser takes note of a header as the header says. -/
theorem valueNote_eq (header : Header) (request : Request) :
    valueNote header.kind (nameNote header.kind request) header.value.1 = header.note request := by
  unfold Header.note
  cases kind : header.kind with
  | contentLength =>
      have same : nameNote .contentLength request = request := rfl
      cases header.value.1 with
      | nil => rfl
      | cons c text =>
          rw [same, valueNote, firstOf]
          dsimp only
          by_cases digit : isDigit c = true
          · obtain ⟨length, value⟩ := Value.notes_digits text (Value.digits.note c request)
            rw [if_pos digit, List.takeWhile_cons_of_pos digit]
            generalize Value.digits.notes (Value.digits.note c request) text = found at length value ⊢
            obtain ⟨value', request'⟩ := found
            dsimp only at length value
            subst length
            obtain rfl | rfl := value
            · rfl
            · rfl
          · rw [if_neg digit, List.takeWhile_cons_of_neg digit]
            have rest := Value.notes_other text request
            exact congrArg (fun found => found.1.endNote found.2) rest
  | connection =>
      cases header.value.1 with
      | nil => rfl
      | cons c text =>
          rw [valueNote, firstOf]
          dsimp only
          rw [note_optionOf, notes_optionOf]
          dsimp only
          rw [endNote_optionOf, List.singleton_append, List.map_cons]
          rfl
  | transferEncoding =>
      cases header.value.1 with
      | nil => rfl
      | cons c text =>
          rw [valueNote, firstOf]
          dsimp only
          rw [note_codingOf, notes_codingOf]
          dsimp only
          rw [endNote_codingOf, List.singleton_append]
          unfold nameNote
          split
          · rfl
          · rfl
  | other =>
      cases header.value.1 with
      | nil => rfl
      | cons c text =>
          have rest := Value.notes_other text request
          exact congrArg (fun found => found.1.endNote found.2) rest

namespace Parser

section

variable {request : Request} {data : σ} {marks : Element → Option (List UInt8)}

theorem StartsHeader.performs {cs state : State} {actions : List Action} {f : Request → Request}
    (starts : StartsHeader cs actions f) (c : UInt8) (rest : List UInt8) :
    actions.foldl (perform on c rest) (reading state request marks data, 1) =
      (reading state (f request) marks data, 1) := by
  cases starts with
  | first => rfl
  | later => rfl

theorem resume_name (accepting : Accepting on) {cs : State} {actions : List Action}
    {f : Request → Request} (starts : StartsHeader cs actions f) {name : Token}
    (named : name.1 ≠ []) (rest : List UInt8) :
    (reading cs request noMarks data).resume on 0 (name.1 ++ 58 :: rest) =
      (reading (.valueStart (kindOf (known (name.1.map lower))))
        (nameNote (kindOf (known (name.1.map lower))) (f request)) noMarks
        (on data (.piece .headerField name.1 (f request).numberOfHeaders)).1).resume on 0 rest := by
  obtain ⟨text, tokens⟩ := name
  cases text with
  | nil => exact absurd rfl named
  | cons c text =>
      have token := tokens c (List.mem_cons_self ..)
      have begins : next cs c = some (actions ++ [.mark .headerField], .field (known [lower c])) := by
        rw [starts.reads, headerStart, if_neg (token_ne_colon token).2, if_pos token]
      have performs : (actions ++ [Action.mark .headerField]).foldl (perform on c (text ++ 58 :: rest))
          (reading (.field (known [lower c])) request noMarks data, 1) =
          (reading (.field (known [lower c])) (f request)
            (Function.update noMarks .headerField (some [])) data, 1) := by
        rw [List.foldl_append, StartsHeader.performs starts]
        rfl
      have walks := walk_field (fun other member => tokens other (List.mem_cons_of_mem _ member))
        [lower c]
      rw [List.cons_append, reads_reading begins performs, pass_reading, extend_update,
        extend_noMarks, walk_reading walks, extend_update, extend_noMarks, List.nil_append,
        List.singleton_append, List.singleton_append, List.map_cons]
      generalize known (lower c :: text.map lower) = found
      have colon : next (.field found) 58 =
          some ((if kindOf found = .transferEncoding then [.useChunkedEncoding] else []) ++
            [.write .headerField], .valueStart (kindOf found)) := rfl
      have ends : ((if kindOf found = .transferEncoding then [Action.useChunkedEncoding] else []) ++
          [Action.write .headerField]).foldl (perform on 58 rest)
          (reading (.valueStart (kindOf found)) (f request)
            (Function.update noMarks .headerField (some (c :: text))) data, 1) =
          (reading (.valueStart (kindOf found)) (nameNote (kindOf found) (f request)) noMarks
            (on data (.piece .headerField (c :: text) (f request).numberOfHeaders)).1, 1) := by
        have noted : (if kindOf found = .transferEncoding then [Action.useChunkedEncoding]
            else []).foldl (perform on 58 rest) (reading (.valueStart (kindOf found)) (f request)
              (Function.update noMarks .headerField (some (c :: text))) data, 1) =
            (reading (.valueStart (kindOf found)) (nameNote (kindOf found) (f request))
              (Function.update noMarks .headerField (some (c :: text))) data, 1) := by
          unfold nameNote
          split
          · rfl
          · rfl
        have number : (nameNote (kindOf found) (f request)).numberOfHeaders =
            (f request).numberOfHeaders := by
          unfold nameNote
          split
          · rfl
          · rfl
        rw [List.foldl_append, noted, List.foldl_cons,
          write_reading accepting (Function.update_self ..), List.foldl_nil, Function.update_idem,
          update_noMarks, number]
      rw [reads_reading colon ends, pass_reading, extend_noMarks]

theorem reads_performs (value : Value) (c : UInt8) (rest : List UInt8) (state : State) :
    value.reads.foldl (perform on c rest) (reading state request marks data, 1) =
      (reading state (value.note c request) marks data, 1) := by
  cases value with
  | _ => rfl

theorem ends_performs (value : Value) (c : UInt8) (rest : List UInt8) (state : State) :
    value.ends.foldl (perform on c rest) (reading state request marks data, 1) =
      (reading state (value.endNote request) marks data, 1) := by
  cases value with
  | option seen =>
      simp only [Value.ends, Value.endNote]
      by_cases keep : seen = keepAliveText
      · rw [if_pos keep, if_pos keep]
        rfl
      · rw [if_neg keep, if_neg keep]
        split
        · rfl
        · rfl
  | coding seen =>
      simp only [Value.ends, Value.endNote]
      split
      · rfl
      · rfl
  | _ => rfl

/-- The rest of a value. -/
theorem resume_value (accepting : Accepting on) {text : List UInt8} (plain : 13 ∉ text)
    (value : Value) (before rest : List UInt8) :
    (reading (.value value) request (Function.update noMarks .headerValue (some before))
        data).resume on 0 (text ++ 13 :: rest) =
      (reading .valueEnd ((value.notes request text).1.endNote (value.notes request text).2) noMarks
        (on data (.piece .headerValue (before ++ text) request.numberOfHeaders)).1).resume on 0
          rest := by
  induction text generalizing value request before with
  | nil =>
      have last : next (.value value) 13 =
          some (value.ends ++ [.write .headerValue], .valueEnd) := rfl
      have performs : (value.ends ++ [Action.write .headerValue]).foldl (perform on 13 rest)
          (reading .valueEnd request (Function.update noMarks .headerValue (some before)) data,
            1) = (reading .valueEnd (value.endNote request) noMarks
              (on data (.piece .headerValue before request.numberOfHeaders)).1, 1) := by
        rw [List.foldl_append, ends_performs, List.foldl_cons,
          write_reading accepting (Function.update_self ..), List.foldl_nil, Function.update_idem,
          update_noMarks, Value.endNote_numberOfHeaders]
      rw [List.nil_append, reads_reading last performs, pass_reading, extend_noMarks,
        List.append_nil]
      rfl
  | cons c text ih =>
      have other : c ≠ 13 := fun same => plain (same ▸ List.mem_cons_self ..)
      have goes : next (.value value) c = some ((value.next c).reads, .value (value.next c)) :=
        if_neg other
      rw [List.cons_append, reads_reading goes (reads_performs ..), pass_reading, extend_update,
        extend_noMarks, ih fun member => plain (List.mem_cons_of_mem _ member),
        List.append_assoc, List.singleton_append, Value.note_numberOfHeaders]
      rfl

/-- The value of a header, with the spaces before it. -/
theorem resume_blanks (accepting : Accepting on) (header : Header) (kind : HeaderKind)
    (rest : List UInt8) :
    (reading (.valueStart kind) request noMarks data).resume on 0
        (List.replicate header.blanks 32 ++ (header.value.1 ++ 13 :: rest)) =
      (reading .valueEnd (valueNote kind request header.value.1) noMarks
        (on data (.piece .headerValue header.value.1 request.numberOfHeaders)).1).resume on 0
          rest := by
  have blanks : ∀ n, walk (.valueStart kind) (List.replicate n 32) = some (.valueStart kind) := by
    intro n
    induction n with
    | zero => rfl
    | succ n ih =>
        have blank : next (.valueStart kind) 32 = goto (.valueStart kind) := rfl
        rw [List.replicate_succ, walk_cons blank, ih]
  rw [walk_reading (blanks header.blanks), extend_noMarks]
  obtain ⟨_, _, _, ⟨text, plain⟩, begins⟩ := header
  dsimp only at begins ⊢
  cases text with
  | nil =>
      have last : next (.valueStart kind) 13 =
          some ([.mark .headerValue, .write .headerValue], .valueEnd) := rfl
      have performs : [Action.mark .headerValue, .write .headerValue].foldl (perform on 13 rest)
          (reading .valueEnd request noMarks data, 1) = (reading .valueEnd request noMarks
            (on data (.piece .headerValue [] request.numberOfHeaders)).1, 1) := by
        have marks : perform on 13 rest (reading .valueEnd request noMarks data, 1)
            (.mark .headerValue) = (reading .valueEnd request
              (Function.update noMarks .headerValue (some [])) data, 1) := rfl
        rw [List.foldl_cons, marks, List.foldl_cons,
          write_reading accepting (Function.update_self ..), List.foldl_nil, Function.update_idem,
          update_noMarks]
      rw [List.nil_append, reads_reading last performs, pass_reading, extend_noMarks]
      rfl
  | cons c text =>
      have other : c ≠ 13 := fun same => plain (same ▸ List.mem_cons_self ..)
      have other' : c ≠ 32 := fun same => begins (congrArg some same)
      have first : next (.valueStart kind) c =
          some ((firstOf kind c).reads ++ [.mark .headerValue], .value (firstOf kind c)) := by
        rw [next, if_neg other, if_neg other']
      have performs : ((firstOf kind c).reads ++ [Action.mark .headerValue]).foldl
          (perform on c (text ++ 13 :: rest))
          (reading (.value (firstOf kind c)) request noMarks data, 1) =
          (reading (.value (firstOf kind c)) ((firstOf kind c).note c request)
            (Function.update noMarks .headerValue (some [])) data, 1) := by
        rw [List.foldl_append, reads_performs]
        rfl
      rw [List.cons_append, reads_reading first performs, pass_reading, extend_update,
        extend_noMarks, List.nil_append,
        resume_value accepting (fun member => plain (List.mem_cons_of_mem _ member)),
        List.singleton_append, Value.note_numberOfHeaders]
      rfl

/-- A header. -/
theorem resume_header (accepting : Accepting on) {cs : State} {actions : List Action}
    {f : Request → Request} (starts : StartsHeader cs actions f) (header : Header)
    (rest : List UInt8) :
    (reading cs request noMarks data).resume on 0 (header.print ++ rest) =
      (reading .nextHeader (header.note (f request)) noMarks
        (gather on data (header.events (f request).numberOfHeaders))).resume on 0 rest := by
  have number : (nameNote header.kind (f request)).numberOfHeaders =
      (f request).numberOfHeaders := by
    unfold nameNote
    split
    · rfl
    · rfl
  have line : walk .valueEnd [10] = some .nextHeader := rfl
  have parts : header.print ++ rest = header.name.1 ++ 58 ::
      (List.replicate header.blanks 32 ++ (header.value.1 ++ 13 :: ([10] ++ rest))) := by
    simp only [Header.print, Header.crlf, List.append_assoc, List.cons_append, List.nil_append]
  rw [parts, resume_name accepting starts header.named, resume_blanks accepting header,
    walk_reading line, extend_noMarks]
  rw [show kindOf (known (header.name.1.map lower)) = header.kind from rfl, number,
    valueNote_eq]
  rfl

theorem note_numberOfHeaders (header : Header) (request : Request) :
    (header.note request).numberOfHeaders = request.numberOfHeaders := by
  unfold Header.note
  repeat' split
  all_goals rfl

end

end Parser

end Ebb
