import Webroar.Ebb.Split
import Webroar.Ebb.Texts

/-! # Buffers

A byte may as well be received in a buffer of its own. Between two buffers the texts that are marked
are those of the state, and only a body of which there is more to come is skipped.
-/

namespace Ebb

variable {σ : Type} {on : Callbacks σ}

namespace Parser

variable {parser : Parser σ} {c : UInt8}

/-! ### Bodies -/

/-- The bytes of a body are passed on and counted. -/
def skipped (on : Callbacks σ) (text : List UInt8) (parser : Parser σ) : Parser σ :=
  { parser with
    data := if text = [] ∨ parser.currentRequest = none then parser.data
      else (on parser.data (.body text)).1
    currentRequest := parser.currentRequest.map fun request =>
      { request with bodyRead := request.bodyRead + text.length }
    chunkSize := parser.chunkSize - text.length }

/-- What follows when bytes of a body have been skipped. -/
def eats (on : Callbacks σ) (parser : Parser σ) : Parser σ :=
  if parser.chunkSize = 0 then
    if parser.currentRequest.any fun request => request.transferEncoding = .identity then
      { parser with eating := false }.endRequest on
    else { parser with eating := false }
  else { parser with eating := true }

theorem skipBody_eq (seamless : Seamless on) (text : List UInt8) (parser : Parser σ) :
    parser.skipBody on text = (parser.skipped on text).eats on := by
  obtain ⟨cs, chunkSize, eating, currentRequest, marks, data⟩ := parser
  cases currentRequest with
  | none =>
      by_cases empty : text = []
      · simp [skipBody, skipped, eats, setRequest, empty]
      · simp [skipBody, skipped, eats, setRequest, empty, call_none]
  | some request =>
      by_cases empty : text = []
      · simp [skipBody, skipped, eats, setRequest, empty]
      · have calls := @call_some σ on ⟨cs, chunkSize, eating, some request, marks, data⟩ seamless
          (fun _ => .body text) request rfl (by rintro ⟨⟩)
        simp [skipBody, skipped, eats, setRequest, empty, calls]

@[simp] theorem eats_marks (parser : Parser σ) : (parser.eats on).marks = parser.marks := by
  unfold eats
  split
  · split
    · exact call_marks _ _
    · rfl
  · rfl

@[simp] theorem eats_cs (parser : Parser σ) : (parser.eats on).cs = parser.cs := by
  unfold eats
  split
  · split
    · exact call_cs _ _
    · rfl
  · rfl

@[simp] theorem call_eating (event : Request → Event) (parser : Parser σ) :
    (parser.call on event).eating = parser.eating := by
  unfold call
  split
  · rfl
  · rfl

@[simp] theorem call_chunkSize (event : Request → Event) (parser : Parser σ) :
    (parser.call on event).chunkSize = parser.chunkSize := by
  unfold call
  split
  · rfl
  · rfl

@[simp] theorem eats_chunkSize (parser : Parser σ) :
    (parser.eats on).chunkSize = parser.chunkSize := by
  unfold eats
  split
  · split
    · exact call_chunkSize _ _
    · rfl
  · rfl

/-- The parser goes on with a body exactly where there is more of it to come. -/
theorem eats_eating (parser : Parser σ) :
    (parser.eats on).eating = true ↔ 0 < parser.chunkSize := by
  unfold eats
  split
  · rename_i done
    rw [done]
    split
    · rw [endRequest, call_eating]
      exact iff_of_false Bool.false_ne_true (Nat.lt_irrefl 0)
    · exact iff_of_false Bool.false_ne_true (Nat.lt_irrefl 0)
  · rename_i more
    exact iff_of_true rfl (Nat.pos_of_ne_zero more)

/-- Bytes of a body that are passed on. -/
def bodyCall (on : Callbacks σ) (text : List UInt8) (parser : Parser σ) : Parser σ :=
  if text = [] then parser else parser.call on fun _ => .body text

/-- Bytes of a body that are counted. -/
def counted (n : Nat) (parser : Parser σ) : Parser σ :=
  { parser.setRequest fun request => { request with bodyRead := request.bodyRead + n } with
    chunkSize := parser.chunkSize - n }

theorem skipBody_parts (text : List UInt8) (parser : Parser σ) :
    parser.skipBody on text = ((parser.bodyCall on text).counted text.length).eats on := rfl

@[simp] theorem bodyCall_marks (text : List UInt8) (parser : Parser σ) :
    (parser.bodyCall on text).marks = parser.marks := by
  unfold bodyCall
  split
  · rfl
  · exact call_marks _ parser

@[simp] theorem bodyCall_cs (text : List UInt8) (parser : Parser σ) :
    (parser.bodyCall on text).cs = parser.cs := by
  unfold bodyCall
  split
  · rfl
  · exact call_cs _ parser

@[simp] theorem bodyCall_chunkSize (text : List UInt8) (parser : Parser σ) :
    (parser.bodyCall on text).chunkSize = parser.chunkSize := by
  unfold bodyCall
  split
  · rfl
  · exact call_chunkSize _ parser

@[simp] theorem skipBody_marks (text : List UInt8) (parser : Parser σ) :
    (parser.skipBody on text).marks = parser.marks := by
  rw [skipBody_parts, eats_marks]
  exact bodyCall_marks text parser

@[simp] theorem skipBody_cs (text : List UInt8) (parser : Parser σ) :
    (parser.skipBody on text).cs = parser.cs := by
  rw [skipBody_parts, eats_cs]
  exact bodyCall_cs text parser

@[simp] theorem skipBody_chunkSize (text : List UInt8) (parser : Parser σ) :
    (parser.skipBody on text).chunkSize = parser.chunkSize - text.length := by
  rw [skipBody_parts, eats_chunkSize, counted, bodyCall_chunkSize]

theorem skipBody_eating (text : List UInt8) (parser : Parser σ) :
    (parser.skipBody on text).eating = true ↔ text.length < parser.chunkSize := by
  rw [skipBody_parts, eats_eating, counted, bodyCall_chunkSize]
  exact Nat.sub_pos_iff_lt

/-- A body that is skipped in two parts. -/
theorem skipBody_append (seamless : Seamless on) {first second : List UInt8}
    (more : first.length < parser.chunkSize) :
    (parser.skipBody on first).skipBody on second = parser.skipBody on (first ++ second) := by
  rw [skipBody_eq seamless first, skipBody_eq seamless, skipBody_eq seamless]
  have left : (parser.skipped on first).chunkSize ≠ 0 := by
    simp only [skipped]
    omega
  rw [show (parser.skipped on first).eats on = { parser.skipped on first with eating := true } from
    if_neg left]
  obtain ⟨cs, chunkSize, eating, currentRequest, marks, data⟩ := parser
  -- Whether the parser was skipping before makes no difference.
  have same : ∀ before : Parser σ, (({ before with eating := true }).eats on) = before.eats on := by
    intro before
    unfold eats
    rfl
  rw [← same]
  conv_rhs => rw [← same]
  congr 1
  cases currentRequest with
  | none => simp [skipped, Nat.sub_sub]
  | some request =>
      by_cases empty : first = []
      · subst empty
        simp [skipped]
      by_cases empty' : second = []
      · subst empty'
        simp [skipped, empty]
      · simp [skipped, empty, empty', seamless.body, Nat.sub_sub, Nat.add_assoc]

/-! ### The invariant -/

/-- What holds between two buffers. -/
structure Sane (on : Callbacks σ) (parser : Parser σ) : Prop where
  marked : ∃ texts, Together texts ∧ Marked parser.marks texts ∧
    (parser.cs = .error ∨ texts = parser.cs.texts)
  eats : parser.eating = true → 0 < parser.chunkSize ∧ Marked parser.marks []
  reads : parser.cs = .error → parser.eating = false
  done : (parser.restart []).settled on = parser.restart []

theorem sane_init (data : σ) : (init data).Sane on where
  marked := ⟨[], .none, fun _ => iff_of_false Bool.false_ne_true List.not_mem_nil, .inr rfl⟩
  eats := nofun
  reads := nofun
  done := rfl

theorem marked_restart {texts : List Element} (marked : Marked parser.marks texts)
    (skipped : List UInt8) : Marked (parser.restart skipped).marks texts := by
  intro element
  rw [restart, ← marked element, Option.isSome_map]

/-- Where nothing is marked the texts do not go on. -/
theorem restart_of_none (marked : Marked parser.marks []) (skipped : List UInt8) :
    parser.restart skipped = parser := by
  obtain ⟨cs, chunkSize, eating, currentRequest, marks, data⟩ := parser
  obtain rfl : marks = fun _ => none := marked.eq_nil
  rfl

theorem pass_of_none (marked : Marked parser.marks []) (c : UInt8) : parser.pass c = parser := by
  obtain ⟨cs, chunkSize, eating, currentRequest, marks, data⟩ := parser
  obtain rfl : marks = fun _ => none := marked.eq_nil
  rfl

theorem callbacks_of_none (seamless : Seamless on) (marked : Marked parser.marks []) :
    parser.callbacks on = parser := by
  have marked' : Marked (parser.callbacks on).marks [] := by
    rw [callbacks_eq seamless]
    exact marked
  rw [← restart_of_none marked' []]
  exact settled_of_none seamless marked

theorem restart_restart (first second : List UInt8) (parser : Parser σ) :
    (parser.restart first).restart second = parser.restart second := by
  simp only [restart, Option.map_map]
  rfl

theorem Sane.restart (sane : parser.Sane on) (skipped : List UInt8) :
    (parser.restart skipped).Sane on where
  marked := by
    obtain ⟨texts, together, marked, states⟩ := sane.marked
    exact ⟨texts, together, marked_restart marked skipped, states⟩
  eats := fun eating => ⟨(sane.eats eating).1, marked_restart (sane.eats eating).2 skipped⟩
  reads := sane.reads
  done := by
    rw [restart_restart]
    exact sane.done

/-- A buffer that is not in the middle of a body. -/
theorem execute_reads (eating : parser.eating = false) (buffer : List UInt8) :
    parser.execute on buffer = ((parser.restart []).resume on 0 buffer).callbacks on := by
  have still : ¬(0 < parser.chunkSize ∧ parser.eating = true) := by
    intro both
    rw [eating] at both
    exact Bool.false_ne_true both.2
  simp only [execute, eaten, if_neg still, List.length_nil, List.drop_zero]

/-- What is left behind the first bytes of a buffer. -/
theorem drop_take (buffer : List UInt8) (n : Nat) :
    buffer.drop (buffer.take n).length = buffer.drop n := by
  rw [List.length_take]
  obtain short | long := Nat.le_total buffer.length n
  · rw [Nat.min_eq_right short, List.drop_length, List.drop_eq_nil_of_le short]
  · rw [Nat.min_eq_left long]

/-- A buffer in the middle of a body. -/
theorem execute_eats (eating : parser.eating = true)
    (more : 0 < parser.chunkSize) (marked : Marked parser.marks []) (buffer : List UInt8) :
    parser.execute on buffer =
      ((parser.skipBody on (buffer.take parser.chunkSize)).resume on 0
        (buffer.drop parser.chunkSize)).callbacks on := by
  have marked' : Marked (parser.skipBody on (buffer.take parser.chunkSize)).marks [] := by
    rw [skipBody_marks]
    exact marked
  simp only [execute, eaten, if_pos (And.intro more eating), restart_of_none marked', drop_take]

/-- The texts of two buffers that are read alike. -/
theorem Sane.execute_restart (sane : parser.Sane on) (skipped buffer : List UInt8) :
    (parser.restart skipped).execute on buffer = parser.execute on buffer := by
  cases eating : parser.eating with
  | false =>
      rw [execute_reads eating, execute_reads (show (parser.restart skipped).eating = false from
        eating), restart_restart]
  | true => rw [restart_of_none (sane.eats eating).2]

/-- An empty buffer. -/
theorem Sane.execute_nil (seamless : Seamless on) (sane : parser.Sane on) :
    (parser.execute on []).restart [] = parser.restart [] := by
  cases eating : parser.eating with
  | false =>
      rw [execute_reads eating]
      exact sane.done
  | true =>
      obtain ⟨more, marked⟩ := sane.eats eating
      have nothing : parser.skipBody on [] = parser := by
        rw [skipBody_eq seamless, skipped, Parser.eats]
        obtain ⟨cs, chunkSize, _, currentRequest, marks, data⟩ := parser
        subst eating
        cases currentRequest with
        | none => simp [Nat.ne_of_gt more]
        | some request => simp [Nat.ne_of_gt more]
      rw [execute_eats eating more marked, List.take_nil, List.drop_nil, nothing, resume,
        callbacks_of_none seamless marked]

/-! ### A byte -/

@[simp] theorem callback_eating (element : Element) (parser : Parser σ) :
    (parser.callback on element).eating = parser.eating := by
  unfold callback
  split
  · rfl
  · exact call_eating _ parser

@[simp] theorem callback_chunkSize (element : Element) (parser : Parser σ) :
    (parser.callback on element).chunkSize = parser.chunkSize := by
  unfold callback
  split
  · rfl
  · exact call_chunkSize _ parser

/-- An action that does not skip a body reads nothing but its byte. -/
theorem perform_quiet {action : Action} (quiet : action.quiet = true) (c : UInt8)
    (parser : Parser σ) :
    ∃ after, (after.eating = parser.eating ∧ after.cs = parser.cs) ∧
      ∀ rest n, perform on c rest (parser, n) action = (after, n) := by
  refine ⟨(perform on c [] (parser, 0) action).1, ?_, fun rest n => ?_⟩
  · cases action with
    | bodyLogic | skipChunkData => cases quiet
    | write element => exact ⟨callback_eating element parser, callback_cs element parser⟩
    | endHeaders => exact ⟨call_eating .headersComplete parser, call_cs .headersComplete parser⟩
    | endChunkedBody => exact ⟨call_eating (fun _ => .complete) parser, call_cs (fun _ => .complete) parser⟩
    | _ => exact ⟨rfl, rfl⟩
  · cases action with
    | bodyLogic | skipChunkData => cases quiet
    | _ => rfl

theorem foldl_quiet {actions : List Action} (quiet : ∀ action ∈ actions, action.quiet = true)
    (c : UInt8) (parser : Parser σ) :
    ∃ after, (after.eating = parser.eating ∧ after.cs = parser.cs) ∧
      ∀ rest n, actions.foldl (perform on c rest) (parser, n) = (after, n) := by
  induction actions generalizing parser with
  | nil => exact ⟨parser, ⟨rfl, rfl⟩, fun _ _ => rfl⟩
  | cons action actions ih =>
      obtain ⟨between, same, performs⟩ :=
        @perform_quiet σ on action (quiet action (List.mem_cons_self ..)) c parser
      obtain ⟨after, same', performs'⟩ :=
        ih (fun other member => quiet other (List.mem_cons_of_mem _ member)) between
      refine ⟨after, ⟨same'.1.trans same.1, same'.2.trans same.2⟩, fun rest n => ?_⟩
      rw [List.foldl_cons, performs, performs']

/-- The texts that are marked after an action. -/
theorem marked_perform {texts : List Element} {before : Parser σ × Nat}
    (marked : Marked before.1.marks texts) (c : UInt8) (rest : List UInt8) (action : Action) :
    Marked (perform on c rest before action).1.marks (action.texts texts) := by
  cases action with
  | mark element => exact marked.mark element []
  | write element =>
      intro other
      simp only [perform, setMark, callback_marks, Function.update_apply, Action.texts,
        List.mem_filter, decide_eq_true_eq, ← marked other]
      by_cases same : other = element
      · simp [same]
      · simp [same]
  | endHeaders =>
      simp only [perform, call_marks]
      exact marked
  | bodyLogic =>
      unfold perform
      dsimp only
      split
      · exact marked
      · split
        · exact marked
        · dsimp only
          rw [skipBody_marks]
          exact marked
  | skipChunkData =>
      simp only [perform]
      rw [skipBody_marks]
      exact marked
  | endChunkedBody =>
      simp only [perform, endRequest, call_marks]
      exact marked
  | _ => exact marked

theorem marked_foldl (actions : List Action) {texts : List Element}
    {before : Parser σ × Nat} (marked : Marked before.1.marks texts) (c : UInt8)
    (rest : List UInt8) :
    Marked (actions.foldl (perform on c rest) before).1.marks
      (actions.foldl Action.texts texts) := by
  induction actions generalizing texts before with
  | nil => exact marked
  | cons action actions ih => exact ih (marked_perform marked c rest action)

/-- Bytes that the parser has gone past already. -/
theorem resume_skip (marked : Marked parser.marks []) (n : Nat) (rest : List UInt8) :
    parser.resume on n rest = parser.resume on 0 (rest.drop n) := by
  induction rest generalizing n with
  | nil => cases n <;> rfl
  | cons c rest ih =>
      cases n with
      | zero => rfl
      | succ n => rw [resume, pass_of_none marked, List.drop_succ_cons, ih]

/-- What the parser does with a byte is settled at the byte, except for how many of the next belong
to a body. -/
inductive Reads (on : Callbacks σ) (parser : Parser σ) (c : UInt8) : Prop where
  | quiet (after : Parser σ) (texts : List Element) (together : Together texts)
      (marked : Marked after.marks texts) (states : after.cs = .error ∨ texts = after.cs.texts)
      (eating : after.eating = false)
      (reads : ∀ rest, parser.resume on 0 (c :: rest) = after.resume on 0 rest)
  | body (before : Parser σ) (text : List UInt8) (marked : Marked before.marks [])
      (texts : before.cs.texts = []) (works : before.cs ≠ .error)
      (within : text.length ≤ before.chunkSize)
      (reads : ∀ rest, parser.resume on 0 (c :: rest) =
        (before.skipBody on (text ++ rest.take (before.chunkSize - text.length))).resume on 0
          (rest.drop (before.chunkSize - text.length)))

theorem Reads.headersEnd (eating : parser.eating = false) (marked : Marked parser.marks [])
    (reads : Ebb.next parser.cs c = some ([.endHeaders, .bodyLogic], .ready)) :
    Reads on parser c := by
  let after : Parser σ := { parser with cs := .ready }.call on .headersComplete
  have marked' : Marked after.marks [] := by
    rw [call_marks]
    exact marked
  have eating' : after.eating = false := (call_eating .headersComplete _).trans eating
  have state : after.cs = .ready := call_cs .headersComplete _
  have transition : ∀ rest, parser.transition on c rest = perform on c rest (after, 1) .bodyLogic := by
    intro rest
    rw [Parser.transition, reads]
    rfl
  cases request : after.currentRequest with
  | none =>
      refine .quiet after [] .none marked' (.inr (by rw [state]; rfl)) eating' fun rest => ?_
      have performs : parser.transition on c rest = (after, 0 + 1) := by
        rw [transition, perform, request]
      rw [resume_some performs, pass_of_none marked']
  | some request' =>
      cases coding : request'.transferEncoding with
      | chunked =>
          refine .quiet { after with cs := .chunkStart } [] .none marked' (.inr rfl) eating'
            fun rest => ?_
          have performs : parser.transition on c rest =
              ({ after with cs := .chunkStart }, 0 + 1) := by
            simp only [transition, perform, request, coding]
          rw [resume_some performs]
          have passes := @pass_of_none σ { after with cs := .chunkStart } marked' c
          exact congrArg (resume on · 0 rest) passes
      | identity =>
          refine .body { after with chunkSize := request'.contentLength } [] marked'
            (congrArg State.texts state) (fun error => ?_) (Nat.zero_le _) fun rest => ?_
          · rw [state] at error
            cases error
          dsimp only [List.length_nil, Nat.sub_zero, List.nil_append]
          have performs : parser.transition on c rest =
              (skipBody on (rest.take request'.contentLength)
                  { after with chunkSize := request'.contentLength },
                (rest.take request'.contentLength).length + 1) := by
            simp only [transition, perform, request, coding, Nat.add_comm]
          have marks : Marked (skipBody on (rest.take request'.contentLength)
              { after with chunkSize := request'.contentLength }).marks [] := by
            rw [skipBody_marks]
            exact marked'
          rw [resume_some performs, pass_of_none marks, resume_skip marks, drop_take]

theorem Reads.data (state : parser.cs = .data)
    (marked : Marked parser.marks []) : Reads on parser c := by
  let before : Parser σ := { parser with cs := .dataEnd }
  have transition : ∀ rest, parser.transition on c rest =
      (before.skipBody on ((c :: rest).take parser.chunkSize),
        ((c :: rest).take parser.chunkSize).length) := by
    intro rest
    rw [Parser.transition, state]
    rfl
  have marks : ∀ text, Marked (before.skipBody on text).marks [] := by
    intro text
    rw [skipBody_marks]
    exact marked
  cases size : parser.chunkSize with
  | zero =>
      -- There is no data: the byte is read behind it.
      have still : (before.skipBody on []).eating = false := by
        rw [← Bool.not_eq_true, skipBody_eating]
        exact fun more => absurd more (by simp [before, size])
      have advance : ∀ rest, parser.advance on c rest =
          (before.skipBody on []).transition on c rest := by
        intro rest
        rw [Parser.advance, transition, size]
        rfl
      have behind : (before.skipBody on []).cs = .dataEnd := skipBody_cs [] before
      by_cases lf : c = 13
      · refine .quiet { before.skipBody on [] with cs := .dataLf } [] .none (marks []) (.inr rfl)
          still fun rest => ?_
        have goes : (before.skipBody on []).transition on c rest =
            ({ before.skipBody on [] with cs := .dataLf }, 1) := by
          rw [Parser.transition, behind, Ebb.next, if_pos lf]
          rfl
        rw [resume, advance, goes]
        have passes := @pass_of_none σ { before.skipBody on [] with cs := .dataLf } (marks []) c
        exact congrArg (resume on · 0 rest) passes
      · refine .quiet { before.skipBody on [] with cs := .error } [] .none (marks []) (.inl rfl)
          still fun rest => ?_
        have stops : (before.skipBody on []).transition on c rest =
            ({ before.skipBody on [] with cs := .error }, 0) := by
          apply transition_none
          rw [behind, Ebb.next, if_neg lf]
        rw [resume, advance, stops, resume_error rfl]
  | succ n =>
      refine .body before [c] marked rfl (by rintro ⟨⟩) (by simp [before, size]) fun rest => ?_
      have left : before.chunkSize - [c].length = n := by
        simp [before, size]
      rw [left]
      have performs : parser.transition on c rest =
          (before.skipBody on ([c] ++ rest.take n), (rest.take n).length + 1) := by
        rw [transition, size]
        rfl
      rw [resume_some performs, pass_of_none (marks _), resume_skip (marks _), drop_take]

theorem reads (eating : parser.eating = false)
    (marked : Marked parser.marks parser.cs.texts) (c : UInt8) : Reads on parser c := by
  cases found : Ebb.next parser.cs c with
  | none =>
      refine .quiet { parser with cs := .error } parser.cs.texts parser.cs.together marked (.inl rfl)
        eating fun rest => ?_
      rw [resume_none found, resume_error rfl]
  | some found' =>
      obtain ⟨texts, quiet | ⟨state, rfl⟩ | ⟨state, rfl⟩⟩ := next_row parser.cs c found' found
      · obtain ⟨after, same, performs⟩ :=
          @foldl_quiet σ on found'.1 quiet c { parser with cs := found'.2 }
        have transition : ∀ rest, parser.transition on c rest = (after, 0 + 1) := by
          intro rest
          rw [Parser.transition, found]
          exact performs rest 1
        have marked' : Marked after.marks found'.2.texts := by
          have folded := @marked_foldl σ on found'.1 parser.cs.texts
            ({ parser with cs := found'.2 }, 1) marked c []
          rw [performs, texts] at folded
          exact folded
        refine .quiet (after.pass c) found'.2.texts found'.2.together (marked_pass marked' c)
          (.inr (congrArg State.texts same.2).symm) (same.1.trans eating) fun rest => ?_
        exact resume_some (transition rest)
      · rw [state] at marked
        exact .headersEnd eating marked found
      · rw [state] at marked
        exact .data state marked

/-! ### Buffers -/

/-- What is passed on at the end of a buffer is settled. -/
theorem done_callbacks (seamless : Seamless on) {texts : List Element} (together : Together texts)
    (marked : Marked parser.marks texts) :
    ((parser.callbacks on).restart []).settled on = (parser.callbacks on).restart [] :=
  settled_settled seamless together marked

/-- The bytes of a body that are skipped now, and those that are skipped with the next buffer. -/
theorem execute_body (seamless : Seamless on) {text : List UInt8} (marked : Marked parser.marks [])
    (within : text.length ≤ parser.chunkSize) (rest : List UInt8) :
    (parser.skipBody on text).execute on rest =
      ((parser.skipBody on (text ++ rest.take (parser.chunkSize - text.length))).resume on 0
        (rest.drop (parser.chunkSize - text.length))).callbacks on := by
  have marked' : Marked (parser.skipBody on text).marks [] := by
    rw [skipBody_marks]
    exact marked
  obtain more | all := Nat.lt_or_eq_of_le within
  · rw [execute_eats ((skipBody_eating text parser).mpr more) _ marked',
      skipBody_append seamless more, skipBody_chunkSize]
    rw [skipBody_chunkSize]
    exact Nat.sub_pos_of_lt more
  · have still : (parser.skipBody on text).eating = false := by
      rw [← Bool.not_eq_true, skipBody_eating]
      exact fun more => absurd all (Nat.ne_of_lt more)
    rw [execute_reads still, restart_of_none marked', all, Nat.sub_self, List.take_zero,
      List.append_nil, List.drop_zero]

theorem Sane.skipBody (seamless : Seamless on) {text : List UInt8}
    (marked : Marked parser.marks []) (texts : parser.cs.texts = []) (works : parser.cs ≠ .error) :
    (parser.skipBody on text).Sane on := by
  have marked' : Marked (parser.skipBody on text).marks [] := by
    rw [skipBody_marks]
    exact marked
  have same := @skipBody_cs σ on text parser
  refine ⟨⟨[], .none, marked', .inr (by rw [same, texts])⟩, fun eating => ⟨?_, marked'⟩,
    fun error => absurd (same.symm.trans error) works, ?_⟩
  · rw [skipBody_chunkSize]
    exact Nat.sub_pos_of_lt ((skipBody_eating text parser).mp eating)
  · rw [restart_of_none marked', settled_of_none seamless marked']

/-- A byte in a buffer of its own. -/
theorem Sane.execute_cons (seamless : Seamless on) (sane : parser.Sane on) (c : UInt8) :
    (parser.execute on [c]).Sane on ∧ ∀ rest, (parser.execute on (c :: rest)).restart [] =
      ((parser.execute on [c]).execute on rest).restart [] := by
  cases eating : parser.eating with
  | true =>
      obtain ⟨more, marked⟩ := sane.eats eating
      have alone : parser.execute on [c] = parser.skipBody on [c] := by
        rw [execute_eats eating more marked, List.take_of_length_le more,
          List.drop_of_length_le more, resume, callbacks_of_none seamless]
        rw [skipBody_marks]
        exact marked
      rw [alone]
      obtain ⟨texts, -, marked', states⟩ := sane.marked
      have works : parser.cs ≠ .error := by
        intro error
        rw [sane.reads error] at eating
        cases eating
      have nothing : parser.cs.texts = [] := by
        rw [← states.resolve_left works]
        exact marked'.nothing marked
      refine ⟨.skipBody seamless marked nothing works, fun rest => ?_⟩
      have within : [c].length ≤ parser.chunkSize := more
      rw [execute_body seamless marked within, execute_eats eating more marked]
      obtain ⟨n, size⟩ := Nat.exists_eq_succ_of_ne_zero (Nat.ne_of_gt more)
      rw [size]
      rfl
  | false =>
      obtain ⟨texts, together, marked, states⟩ := (sane.restart []).marked
      have fresh : (parser.restart []).eating = false := eating
      have byte : Reads on (parser.restart []) c := by
        cases states with
        | inl error =>
            refine .quiet (parser.restart []) texts together marked (.inl error) fresh fun rest => ?_
            rw [resume_error error, resume_error error]
        | inr same =>
            subst same
            exact Parser.reads fresh marked c
      rw [execute_reads eating]
      cases byte with
      | quiet after texts together marked states eating' byte =>
          have same : (after.callbacks on).cs = after.cs := by rw [callbacks_eq seamless]
          have still : (after.callbacks on).eating = false := by
            rw [callbacks_eq seamless]
            exact eating'
          rw [byte, resume]
          refine ⟨⟨⟨texts, together, ?_, by rwa [same]⟩, fun eats => ?_, fun _ => still,
            done_callbacks seamless together marked⟩, fun rest => ?_⟩
          · rw [callbacks_eq seamless]
            exact marked
          · rw [still] at eats
            cases eats
          · rw [execute_reads still, execute_reads eating, byte]
            exact Alike.resume seamless rest together states
              ⟨(settled_settled seamless together marked).symm, marked,
                marked_settled seamless marked⟩
      | body before text marked texts works within byte =>
          have alone : ((parser.restart []).resume on 0 [c]).callbacks on =
              before.skipBody on text := by
            rw [byte, List.take_nil, List.drop_nil, List.append_nil, resume,
              callbacks_of_none seamless]
            rw [skipBody_marks]
            exact marked
          rw [alone]
          refine ⟨.skipBody seamless marked texts works, fun rest => ?_⟩
          rw [execute_body seamless marked within, execute_reads eating, byte]

theorem Sane.of_restart {skipped : List UInt8} (sane : (parser.restart skipped).Sane on) :
    parser.Sane on := by
  have back : ∀ {texts}, Marked (parser.restart skipped).marks texts → Marked parser.marks texts := by
    intro texts marked element
    rw [← marked element, Parser.restart, Option.isSome_map]
  obtain ⟨texts, together, marked, states⟩ := sane.marked
  refine ⟨⟨texts, together, back marked, states⟩, fun eating => ?_, sane.reads, ?_⟩
  · obtain ⟨more, marked⟩ := sane.eats eating
    exact ⟨more, back marked⟩
  · have done := sane.done
    rw [restart_restart] at done
    exact done

theorem Sane.execute_congr {first second : Parser σ} (sane : first.Sane on)
    (sane' : second.Sane on) (same : first.restart [] = second.restart []) (buffer : List UInt8) :
    first.execute on buffer = second.execute on buffer := by
  rw [← sane.execute_restart [] buffer, same, sane'.execute_restart]

/-- A buffer in two. -/
theorem Sane.execute_append (seamless : Seamless on) (sane : parser.Sane on)
    (first second : List UInt8) : (parser.execute on first).Sane on ∧
      (parser.execute on (first ++ second)).restart [] =
        ((parser.execute on first).execute on second).restart [] := by
  induction first generalizing parser with
  | nil =>
      have same := sane.execute_nil seamless
      have sane' : (parser.execute on []).Sane on := by
        apply Sane.of_restart
        rw [same]
        exact sane.restart []
      refine ⟨sane', ?_⟩
      rw [List.nil_append, sane'.execute_congr sane same]
  | cons c first ih =>
      obtain ⟨sane₁, byte⟩ := sane.execute_cons seamless c
      obtain ⟨sane₂, parts⟩ := ih sane₁
      have sane₃ : (parser.execute on (c :: first)).Sane on := by
        apply Sane.of_restart
        rw [byte]
        exact sane₂.restart []
      refine ⟨sane₃, ?_⟩
      rw [List.cons_append, byte, parts, sane₃.execute_congr sane₂ (byte first)]

/-- After an error nothing more is read. -/
theorem Sane.execute_error (sane : parser.Sane on) (error : parser.cs = .error)
    (buffer : List UInt8) : (parser.execute on buffer).restart [] = parser.restart [] := by
  have still : (parser.restart []).cs = .error := error
  rw [execute_reads (sane.reads error), resume_error still]
  exact sane.done

/-- Whatever buffers the bytes are received in, the parser is where it is after them all in one. -/
theorem Sane.receive (seamless : Seamless on) (sane : parser.Sane on)
    (buffers : List (List UInt8)) :
    (parser.receive on buffers).restart [] = (parser.execute on buffers.flatten).restart [] := by
  induction buffers generalizing parser with
  | nil => exact (sane.execute_nil seamless).symm
  | cons buffer rest ih =>
      obtain ⟨sane', parts⟩ := sane.execute_append seamless buffer rest.flatten
      rw [List.flatten_cons, parts, Parser.receive]
      split
      · rename_i error
        rw [sane'.execute_error (of_decide_eq_true error)]
      · exact ih sane'

/-- How the bytes of a connection are divided into buffers makes no difference, neither to the
parser nor to what its callbacks have gathered. -/
theorem receive_flatten (seamless : Seamless on) (data : σ) {first second : List (List UInt8)}
    (same : first.flatten = second.flatten) :
    ((init data).receive on first).data = ((init data).receive on second).data ∧
      ((init data).receive on first).cs = ((init data).receive on second).cs ∧
      ((init data).receive on first).chunkSize = ((init data).receive on second).chunkSize ∧
      ((init data).receive on first).eating = ((init data).receive on second).eating ∧
      ((init data).receive on first).currentRequest =
        ((init data).receive on second).currentRequest := by
  have parts : ((init data).receive on first).restart [] =
      ((init data).receive on second).restart [] := by
    rw [(sane_init data).receive seamless, (sane_init data).receive seamless, same]
  simp only [restart, Parser.mk.injEq] at parts
  obtain ⟨cs, chunkSize, eating, currentRequest, -, data⟩ := parts
  exact ⟨data, cs, chunkSize, eating, currentRequest⟩

/-- A request in one buffer, and in three. -/
theorem receive_flatten_keep :
    ((init []).receive keep [ascii "GET /a?b HTTP/1.1\r\nHost: c\r\n\r\n"]).data =
      ((init []).receive keep
        [ascii "GE", ascii "T /a?b HTTP/1.1\r\nHo", ascii "st: c\r\n\r\n"]).data :=
  (receive_flatten seamless_keep [] (by decide)).1

end Parser

end Ebb
