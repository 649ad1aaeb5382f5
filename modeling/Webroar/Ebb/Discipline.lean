import Webroar.Ebb.Moves

/-! # The discipline of the parser

Whatever a connection receives, and however its callbacks answer, the callbacks of each request are
those of a request that the head knows, in order, and they end with its completion unless a callback
stops reading.
-/

open Request (Incoming)

namespace Ebb

variable {σ : Type} {on : Callbacks σ}

/-! ### The log -/

/-- The callbacks of each request, the latest first, beside what the callbacks gather. -/
abbrev Log (σ : Type) : Type := σ × List (List Event)

def note (blocks : List (List Event)) (event : Event) : List (List Event) :=
  match event, blocks with
  | .newRequest, blocks => [] :: blocks
  | event, block :: rest => (block ++ [event]) :: rest
  | _, [] => []

/-- Callbacks that are written down. -/
def logged (on : Callbacks σ) : Callbacks (Log σ) := fun log event =>
  (((on log.1 event).1, note log.2 event), (on log.1 event).2)

/-- A request of which there will be no more callbacks. -/
structure Closed (on : Callbacks σ) (block : List Event) : Prop where
  runs : ∃ phase, phases block = some phase
  complete : (∀ data event, (on data event).2 = true) → .complete ∈ block

/-- A current request at a stage, and those before. -/
def Current (on : Callbacks σ) (stage : Request → Phase → Prop) (blocks : List (List Event))
    (request : Request) : Prop :=
  ∃ block rest phase, blocks = block :: rest ∧ phases block = some phase ∧ stage request phase ∧
    ∀ other ∈ rest, Closed on other

/-- The requests before are closed, and the current one is at a stage. -/
structure Holds (on : Callbacks σ) (stage : Request → Phase → Prop) (parser : Parser (Log σ)) :
    Prop where
  closed : parser.currentRequest = none → ∀ block ∈ parser.data.2, Closed on block
  current : ∀ request, parser.currentRequest = some request → Current on stage parser.data.2 request

/-- What a callback leaves in the log. -/
theorem note_cons {event : Event} (other : event ≠ .newRequest) (block : List Event)
    (rest : List (List Event)) : note (block :: rest) event = (block ++ [event]) :: rest := by
  cases event with
  | newRequest => exact absurd rfl other
  | _ => rfl

namespace Holds

variable {stage stage' : Request → Phase → Prop} {parser : Parser (Log σ)}

theorem mono (holds : Holds on stage parser) (goes : ∀ request phase, stage request phase →
    stage' request phase) : Holds on stage' parser := by
  refine ⟨holds.closed, fun request present => ?_⟩
  obtain ⟨block, rest, phase, log, runs, at', closed⟩ := holds.current request present
  exact ⟨block, rest, phase, log, runs, goes request phase at', closed⟩

/-- What is known of the current request may be used. -/
theorem mono_current (holds : Holds on stage parser)
    (goes : ∀ request phase, parser.currentRequest = some request → stage request phase →
      stage' request phase) : Holds on stage' parser := by
  refine ⟨holds.closed, fun request present => ?_⟩
  obtain ⟨block, rest, phase, log, runs, at', closed⟩ := holds.current request present
  exact ⟨block, rest, phase, log, runs, goes request phase present at', closed⟩

/-- Only the request and the log matter. -/
theorem congr {other : Parser (Log σ)} (holds : Holds on stage parser)
    (request : other.currentRequest = parser.currentRequest) (log : other.data = parser.data) :
    Holds on stage other := by
  obtain ⟨closed, current⟩ := holds
  rw [← request, ← log] at closed current
  exact ⟨closed, current⟩

theorem setRequest {f : Request → Request} (holds : Holds on stage parser)
    (goes : ∀ request phase, stage request phase → stage' (f request) phase) :
    Holds on stage' (parser.setRequest f) := by
  refine ⟨fun none => holds.closed (Option.map_eq_none_iff.mp none), fun request present => ?_⟩
  obtain ⟨before, known, rfl⟩ := Option.map_eq_some_iff.mp present
  obtain ⟨block, rest, phase, log, runs, at', closed⟩ := holds.current before known
  exact ⟨block, rest, phase, log, runs, goes before phase at', closed⟩

/-- A callback in order. -/
theorem current_note {blocks : List (List Event)} {request : Request} {event : Event}
    (current : Current on stage blocks request) (other : event ≠ .newRequest)
    (goes : ∀ phase, stage request phase →
      ∃ after, phase.next event = some after ∧ stage' request after) :
    Current on stage' (note blocks event) request := by
  obtain ⟨block, rest, phase, rfl, runs, at', closed⟩ := current
  obtain ⟨after, next, there⟩ := goes phase at'
  refine ⟨block ++ [event], rest, after, note_cons other block rest, ?_, there, closed⟩
  rw [phases_concat, runs]
  exact next

/-- There are no more callbacks of the current request. -/
theorem closed_of_current {blocks : List (List Event)} {request : Request}
    (current : Current on stage blocks request)
    (complete : (∀ data event, (on data event).2 = true) →
      ∀ block ∈ blocks.head?, Event.complete ∈ block) :
    ∀ block ∈ blocks, Closed on block := by
  obtain ⟨block, rest, phase, rfl, runs, -, closed⟩ := current
  intro member belongs
  obtain rfl | before := List.mem_cons.mp belongs
  · exact ⟨⟨phase, runs⟩, fun always => complete always member rfl⟩
  · exact closed member before

theorem call {event : Request → Event} (holds : Holds on stage parser)
    (other : ∀ request, event request ≠ .newRequest)
    (goes : ∀ request phase, stage request phase →
      ∃ after, phase.next (event request) = some after ∧ stage' request after) :
    Holds on stage' (parser.call (logged on) event) := by
  cases present : parser.currentRequest with
  | none =>
      rw [Parser.call_none present]
      refine ⟨holds.closed, fun request absent => ?_⟩
      rw [present] at absent
      cases absent
  | some request =>
      have current := current_note (holds.current request present) (other request) (goes request)
      simp only [Parser.call, present]
      refine ⟨fun stops => ?_, fun same continues => ?_⟩
      · apply closed_of_current current
        intro always
        have accepts : (logged on parser.data (event request)).2 = true := always _ _
        rw [if_pos accepts] at stops
        cases stops
      · obtain ⟨-, continues⟩ := Option.ite_none_right_eq_some.mp continues
        cases continues
        exact current

/-- The end of a request. -/
theorem endRequest (holds : Holds on stage parser)
    (goes : ∀ request phase, stage request phase →
      ∃ after, phase.next .complete = some after) :
    Holds on stage' (parser.endRequest (logged on)) := by
  cases present : parser.currentRequest with
  | none =>
      rw [Parser.endRequest, Parser.call_none present]
      exact ⟨fun _ => holds.closed present, by rintro _ ⟨⟩⟩
  | some request =>
      have current : Current on (fun _ _ => True) (note parser.data.2 .complete) request := by
        apply current_note (holds.current request present)
        · rintro ⟨⟩
        · intro phase at'
          obtain ⟨after, next⟩ := goes request phase at'
          exact ⟨after, next, trivial⟩
      simp only [Parser.endRequest, Parser.call, present]
      refine ⟨fun _ => ?_, by rintro _ ⟨⟩⟩
      apply closed_of_current current
      intro _ block first
      obtain ⟨before, rest, phase, log, -⟩ := holds.current request present
      rw [log, @note_cons .complete (by rintro ⟨⟩)] at first
      cases first
      exact List.mem_append_right before (List.mem_singleton_self _)

end Holds

/-! ### Stages -/

/-- The phase in which the header with this number begins. -/
def begins : Nat → Phase
  | 0 => .line
  | index + 1 => .value index

/-- A body is being read, and of one that is not sent in chunks this much is missing. -/
def InBody (coding : TransferEncoding) (missing : Nat) (request : Request) (phase : Phase) : Prop :=
  request.transferEncoding = coding ∧ ∃ known read, phase = .body known read ∧
    known.transferEncoding = coding ∧
    (coding = .identity → read + missing = known.contentLength)

/-- Of a body in chunks it is not known how much is missing. -/
theorem InBody.chunked {missing : Nat} {request : Request} {phase : Phase}
    (at' : InBody .chunked missing request phase) (other : Nat) :
    InBody .chunked other request phase := by
  obtain ⟨coded, known, read, same, coding, -⟩ := at'
  exact ⟨coded, known, read, same, coding, by rintro ⟨⟩⟩

/-- Where the callbacks of a request are in a part of the grammar. -/
def Part.stage (chunkSize : Nat) (eating : Bool) (part : Part) (request : Request)
    (phase : Phase) : Prop :=
  match part with
  | .error => False
  | .ready => InBody .identity chunkSize request phase ∧ 0 < chunkSize ∧ eating = true
  | .method => phase = .line ∧ request.numberOfHeaders = 0
  | .line | .headers =>
      phase = .line ∧ request.numberOfHeaders = 0 ∧ request.method.isSome = true
  | .field =>
      (phase = .name request.numberOfHeaders ∨ phase = begins request.numberOfHeaders) ∧
        request.method.isSome = true
  | .valueStart => phase = .name request.numberOfHeaders ∧ request.method.isSome = true
  | .value =>
      (phase = .name request.numberOfHeaders ∨ phase = .value request.numberOfHeaders) ∧
        request.method.isSome = true
  | .lineDone => phase = .value request.numberOfHeaders ∧ request.method.isSome = true
  | .headersEnd => phase = begins request.numberOfHeaders ∧ request.method.isSome = true
  | .chunk => InBody .chunked chunkSize request phase

theorem Phase.next_piece {phase : Phase} {element : Element} {text : List UInt8} {index : Nat}
    (sound : text.all element.admits = true) :
    phase.next (.piece element text index) = phase.piece element index := by
  cases phase <;> exact if_pos sound

section

variable {chunkSize : Nat} {eating : Bool} {request : Request} {phase : Phase}

/-- A piece of a header's name. -/
theorem stage_field (at' : Part.field.stage chunkSize eating request phase) :
    phase.piece .headerField request.numberOfHeaders = some (.name request.numberOfHeaders) ∧
      Part.valueStart.stage chunkSize eating request (.name request.numberOfHeaders) := by
  obtain ⟨rfl | rfl, method⟩ := at'
  · exact ⟨if_pos rfl, rfl, method⟩
  · refine ⟨?_, rfl, method⟩
    cases request.numberOfHeaders with
    | zero => rfl
    | succ index => exact if_pos rfl

/-- A piece of a header's value. -/
theorem stage_value (at' : Part.value.stage chunkSize eating request phase) :
    phase.piece .headerValue request.numberOfHeaders = some (.value request.numberOfHeaders) ∧
      Part.lineDone.stage chunkSize eating request (.value request.numberOfHeaders) := by
  obtain ⟨rfl | rfl, method⟩ := at'
  · exact ⟨if_pos rfl, rfl, method⟩
  · exact ⟨if_pos rfl, rfl, method⟩

/-- A piece of a text leaves the part. -/
theorem stage_piece {part : Part} {element : Element} (has : part.has element = true)
    (at' : part.stage chunkSize eating request phase) :
    ∃ after, phase.piece element request.numberOfHeaders = some after ∧
      part.stage chunkSize eating request after := by
  cases part with
  | line =>
      obtain ⟨rfl, rest⟩ := at'
      refine ⟨.line, ?_, rfl, rest⟩
      cases element with
      | headerField | headerValue => cases has
      | _ => rfl
  | field =>
      obtain rfl := of_decide_eq_true has
      obtain ⟨next, there, method⟩ := stage_field at'
      exact ⟨_, next, .inl there, method⟩
  | value =>
      obtain rfl := of_decide_eq_true has
      obtain ⟨next, there, method⟩ := stage_value at'
      exact ⟨_, next, .inr there, method⟩
  | _ => cases has

end

/-- The bytes of the texts that are marked may be in them. -/
def Admitted (marks : Element → Option (List UInt8)) : Prop :=
  ∀ element text, marks element = some text → text.all element.admits = true

namespace Holds

variable {stage stage' : Request → Phase → Prop} {parser : Parser (Log σ)}

/-- A marked text is passed on. -/
theorem callback {element : Element} (holds : Holds on stage parser)
    (admitted : Admitted parser.marks) (marked : (parser.marks element).isSome = true)
    (goes : ∀ request phase, stage request phase →
      ∃ after, phase.piece element request.numberOfHeaders = some after ∧
        stage' request after) :
    Holds on stage' (parser.callback (logged on) element) := by
  obtain ⟨text, present⟩ := Option.isSome_iff_exists.mp marked
  rw [Parser.callback, present]
  apply holds.call
  · exact fun _ => nofun
  · intro request phase at'
    rw [Phase.next_piece (admitted element text present)]
    exact goes request phase at'

theorem callback_none {element : Element} (absent : parser.marks element = none) :
    parser.callback (logged on) element = parser := by
  rw [Parser.callback, absent]

/-- Any text of a part is passed on. -/
theorem callback_part {part : Part} {element : Element} {chunkSize : Nat} {eating : Bool}
    (holds : Holds on (part.stage chunkSize eating) parser) (admitted : Admitted parser.marks)
    (has : (parser.marks element).isSome = true → part.has element = true) :
    Holds on (part.stage chunkSize eating) (parser.callback (logged on) element) := by
  cases present : parser.marks element with
  | none =>
      rw [callback_none present]
      exact holds
  | some text =>
      have marked : (parser.marks element).isSome = true := by
        rw [present]
        rfl
      exact holds.callback admitted marked fun request phase => stage_piece (has marked)

theorem bodyCall {coding : TransferEncoding} {text : List UInt8}
    (holds : Holds on (InBody coding parser.chunkSize) parser)
    (within : text.length ≤ parser.chunkSize) :
    Holds on (InBody coding (parser.chunkSize - text.length))
      (parser.bodyCall (logged on) text) := by
  unfold Parser.bodyCall
  split
  · rename_i empty
    rw [empty, List.length_nil, Nat.sub_zero]
    exact holds
  · apply holds.call
    · exact fun _ => nofun
    · intro request phase at'
      obtain ⟨coded, known, read, rfl, same, missing⟩ := at'
      refine ⟨.body known (read + text.length), ?_, coded, known, _, rfl, same, ?_⟩
      · apply if_neg
        intro more
        have all := missing (same.symm.trans more.1)
        have beyond := more.2
        omega
      · intro identity
        have all := missing identity
        omega

theorem counted {coding : TransferEncoding} {missing : Nat}
    (holds : Holds on (InBody coding missing) parser) (n : Nat) :
    Holds on (InBody coding missing) (parser.counted n) := by
  have same : Holds on (InBody coding missing) (parser.setRequest fun request =>
      { request with bodyRead := request.bodyRead + n }) :=
    holds.setRequest fun _ _ at' => at'
  exact same.congr rfl rfl

/-- What follows bytes of a body. -/
theorem eats {coding : TransferEncoding}
    (holds : Holds on (InBody coding parser.chunkSize) parser) :
    Holds on (fun request phase => InBody coding parser.chunkSize request phase ∧
      (coding = .identity → 0 < parser.chunkSize)) (parser.eats (logged on)) := by
  unfold Parser.eats
  split
  · rename_i done
    split
    · have still : Holds on (InBody coding parser.chunkSize) { parser with eating := false } :=
        holds.congr rfl rfl
      apply still.endRequest
      intro request phase at'
      obtain ⟨-, known, read, rfl, same, missing⟩ := at'
      refine ⟨.complete known read, if_neg fun short => ?_⟩
      have all := missing (same.symm.trans short.1)
      rw [done, Nat.add_zero] at all
      exact short.2 all
    · rename_i chunked
      refine ⟨holds.closed, fun request present => ?_⟩
      obtain ⟨block, rest, phase, log, runs, at', closed⟩ := holds.current request present
      refine ⟨block, rest, phase, log, runs, ⟨at', fun identity => ?_⟩, closed⟩
      -- A request with the identity encoding would have been completed.
      have known : parser.currentRequest = some request := present
      rw [known, Option.any_some, decide_eq_true_eq, at'.1] at chunked
      exact absurd identity chunked
  · rename_i more
    have left : Holds on (fun request phase => InBody coding parser.chunkSize request phase ∧
        (coding = .identity → 0 < parser.chunkSize)) parser :=
      holds.mono fun _ _ at' => ⟨at', fun _ => Nat.pos_of_ne_zero more⟩
    exact left.congr rfl rfl

/-- Bytes of a body. -/
theorem skipBody {coding : TransferEncoding} {text : List UInt8}
    (holds : Holds on (InBody coding parser.chunkSize) parser)
    (within : text.length ≤ parser.chunkSize) :
    Holds on (fun request phase => InBody coding (parser.chunkSize - text.length) request phase ∧
        (coding = .identity → 0 < parser.chunkSize - text.length))
      (parser.skipBody (logged on) text) := by
  have passed := (holds.bodyCall within).counted text.length
  have size : ((parser.bodyCall (logged on) text).counted text.length).chunkSize =
      parser.chunkSize - text.length := by
    rw [Parser.counted, Parser.bodyCall_chunkSize]
  rw [← size] at passed ⊢
  exact passed.eats

end Holds

/-! ### Moves -/

namespace Parser

/-- Actions that note something in the request. -/
theorem foldl_notes {actions : List Action} (notes : ∀ action ∈ actions, Notes action) (c : UInt8) :
    ∃ f : Request → Request,
      (∀ request, (f request).numberOfHeaders = request.numberOfHeaders ∧
        (f request).method = request.method) ∧
      ∀ (rest : List UInt8) (before : Parser σ × Nat),
        actions.foldl (perform on c rest) before = (before.1.setRequest f, before.2) := by
  induction actions with
  | nil =>
      refine ⟨id, fun _ => ⟨rfl, rfl⟩, fun rest before => ?_⟩
      simp only [setRequest, Option.map_id, id_eq]
      rfl
  | cons action actions ih =>
      obtain ⟨f, same, performs⟩ := @perform_notes σ on action (notes action (List.mem_cons_self ..)) c
      obtain ⟨g, same', performs'⟩ :=
        ih fun other member => notes other (List.mem_cons_of_mem _ member)
      refine ⟨g ∘ f, fun request => ?_, fun rest before => ?_⟩
      · exact ⟨(same' (f request)).1.trans (same request).1,
          (same' (f request)).2.trans (same request).2⟩
      · rw [List.foldl_cons, performs, performs']
        simp only [setRequest, Option.map_map]

theorem admitted_mark {marks : Element → Option (List UInt8)} (admitted : Admitted marks)
    (element : Element) {mark : Option (List UInt8)} (nothing : mark = none ∨ mark = some []) :
    Admitted (Function.update marks element mark) := by
  intro other text present
  rw [Function.update_apply] at present
  split at present
  · obtain rfl | rfl := nothing
    · cases present
    · cases present
      rfl
  · exact admitted other text present

theorem admitted_perform {before : Parser σ × Nat} (admitted : Admitted before.1.marks) (c : UInt8)
    (rest : List UInt8) (action : Action) :
    Admitted (perform on c rest before action).1.marks := by
  cases action with
  | mark element => exact admitted_mark admitted element (.inr rfl)
  | write element =>
      simp only [perform, setMark, callback_marks]
      exact admitted_mark admitted element (.inl rfl)
  | endHeaders =>
      simp only [perform, call_marks]
      exact admitted
  | bodyLogic =>
      unfold perform
      dsimp only
      split
      · exact admitted
      · split
        · exact admitted
        · dsimp only
          rw [skipBody_marks]
          exact admitted
  | skipChunkData =>
      simp only [perform]
      rw [skipBody_marks]
      exact admitted
  | endChunkedBody =>
      simp only [perform, endRequest, call_marks]
      exact admitted
  | _ => exact admitted

theorem admitted_foldl (actions : List Action) {before : Parser σ × Nat}
    (admitted : Admitted before.1.marks) (c : UInt8) (rest : List UInt8) :
    Admitted (actions.foldl (perform on c rest) before).1.marks := by
  induction actions generalizing before with
  | nil => exact admitted
  | cons action actions ih => exact ih (admitted_perform admitted c rest action)

end Parser

section

variable {parser : Parser (Log σ)} {c : UInt8} {rest : List UInt8} {n : Nat}

theorem Holds.setMark {stage : Request → Phase → Prop} (holds : Holds on stage parser)
    (element : Element) (mark : Option (List UInt8)) :
    Holds on stage (parser.setMark element mark) := holds.congr rfl rfl

/-- Parts in which nothing but the number of headers and the method of a request matter. -/
theorem Holds.notes {stage : Request → Phase → Prop} (holds : Holds on stage parser)
    {actions : List Action} (notes : ∀ action ∈ actions, Notes action)
    (same : ∀ request other phase, other.numberOfHeaders = request.numberOfHeaders →
      other.method = request.method → stage request phase → stage other phase) :
    ∃ after, actions.foldl (Parser.perform (logged on) c rest) (parser, n) = (after, n) ∧
      after.marks = parser.marks ∧ Holds on stage after := by
  obtain ⟨f, keeps, performs⟩ := @Parser.foldl_notes _ (logged on) _ notes c
  refine ⟨parser.setRequest f, performs rest (parser, n), rfl, ?_⟩
  exact holds.setRequest fun request phase at' =>
    same request _ phase (keeps request).1 (keeps request).2 at'

theorem Holds.line {actions : List Action} (line : actions.all Action.ofLine = true)
    {chunkSize : Nat} {eating : Bool} (admitted : Admitted parser.marks)
    (holds : Holds on (Part.line.stage chunkSize eating) parser) :
    Holds on (Part.line.stage chunkSize eating)
      (actions.foldl (Parser.perform (logged on) c rest) (parser, n)).1 := by
  induction actions generalizing parser with
  | nil => exact holds
  | cons action actions ih =>
      obtain ⟨first, others⟩ := Bool.and_eq_true_iff.mp line
      have admitted' := @Parser.admitted_perform _ (logged on) (parser, n) admitted c rest action
      cases action with
      | mark element => exact ih others admitted' (holds.setMark element (some []))
      | write element =>
          exact ih others admitted'
            ((holds.callback_part admitted fun _ => first).setMark element none)
      | versionMajor => exact ih others admitted' (holds.setRequest fun _ _ at' => at')
      | versionMinor => exact ih others admitted' (holds.setRequest fun _ _ at' => at')
      | _ => cases first

/-- A request whose stage is impossible is not there. -/
theorem Holds.nothing {stage : Request → Phase → Prop} (holds : Holds on stage parser)
    (impossible : ∀ request phase, ¬stage request phase) : parser.currentRequest = none := by
  cases present : parser.currentRequest with
  | none => rfl
  | some request =>
      obtain ⟨_, _, phase, _, _, at', _⟩ := holds.current request present
      exact (impossible request phase at').elim

/-- A request begins, unless it is refused. -/
theorem Holds.start {stage : Request → Phase → Prop} (holds : Holds on stage parser)
    (nothing : parser.currentRequest = none) (chunkSize : Nat) (eating : Bool) :
    Holds on (Part.method.stage chunkSize eating)
      (Parser.perform (logged on) c rest (parser, n) .startReq).1 := by
  have closed := holds.closed nothing
  refine ⟨fun refused => ?_, fun request present => ?_⟩
  · intro block belongs
    obtain rfl | before := List.mem_cons.mp belongs
    · refine ⟨⟨.line, rfl⟩, fun always => ?_⟩
      have accepts : (logged on parser.data .newRequest).2 = true := always _ _
      simp only [Parser.perform, accepts, if_true] at refused
      cases refused
    · exact closed block before
  · obtain ⟨-, same⟩ := Option.ite_none_right_eq_some.mp present
    cases same
    exact ⟨[], parser.data.2, .line, rfl, rfl, ⟨rfl, rfl⟩, closed⟩

/-- The stage behind a move that skips no body. -/
theorem Moves.holds {source target : Part} {actions : List Action}
    (moves : Moves source actions target) (quiet : ∀ action ∈ actions, action.quiet = true)
    {chunkSize : Nat} (holds : Holds on (source.stage chunkSize false) parser)
    (admitted : Admitted parser.marks)
    (field : source = .field → (parser.marks .headerField).isSome = true)
    (value : source = .value → (parser.marks .headerValue).isSome = true)
    (size : Nat) (eating : Bool) :
    Holds on (target.stage size eating)
      (actions.foldl (Parser.perform (logged on) c rest) (parser, n)).1 := by
  cases moves with
  | start =>
      exact @Holds.start σ on parser c rest n _ holds (holds.nothing fun _ _ at' => Bool.false_ne_true at'.2.2)
        size eating
  | method => exact holds
  | named method => exact holds.setRequest fun _ _ at' => ⟨at'.1, at'.2, rfl⟩
  | line line => exact holds.line line admitted
  | lineEnd => exact holds
  | header =>
      have begun : Holds on (Part.field.stage size eating) parser := by
        apply holds.mono
        intro request phase at'
        refine ⟨.inr ?_, at'.2.2⟩
        rw [at'.1, at'.2.1]
        rfl
      exact begun.setMark .headerField (some [])
  | noHeaders =>
      apply holds.mono
      intro request phase at'
      refine ⟨?_, at'.2.2⟩
      rw [at'.1, at'.2.1]
      rfl
  | field => exact holds
  | fieldEnd notes =>
      obtain ⟨after, performs, marks, noted⟩ := @Holds.notes _ on parser c rest n _ holds _ notes
        fun _ _ _ number method at' => by rwa [Part.stage, number, method]
      rw [List.foldl_append, performs]
      rw [← marks] at admitted field
      exact (noted.callback admitted (field rfl) fun _ _ at' => ⟨_, stage_field at'⟩).setMark _ none
  | blank => exact holds
  | noValue =>
      have marked : Holds on (Part.value.stage size eating)
          (parser.setMark .headerValue (some [])) := by
        apply Holds.setMark
        apply holds.mono
        exact fun _ _ at' => ⟨.inl at'.1, at'.2⟩
      have admitted' : Admitted (parser.setMark .headerValue (some [])).marks :=
        Parser.admitted_mark admitted .headerValue (.inr rfl)
      have there : ((parser.setMark .headerValue (some [])).marks .headerValue).isSome = true := by
        simp only [Parser.setMark, Function.update_self, Option.isSome_some]
      exact (marked.callback admitted' there fun _ _ at' => ⟨_, stage_value at'⟩).setMark _ none
  | valueStart notes =>
      obtain ⟨after, performs, marks, noted⟩ := @Holds.notes _ on parser c rest n _ holds _ notes
        fun _ _ _ number method at' => by rwa [Part.stage, number, method]
      rw [List.foldl_append, performs]
      apply Holds.setMark
      apply noted.mono
      exact fun _ _ at' => ⟨.inl at'.1, at'.2⟩
  | value notes =>
      obtain ⟨after, performs, marks, noted⟩ := @Holds.notes _ on parser c rest n _ holds _ notes
        fun _ _ _ number method at' => by rwa [Part.stage, number, method]
      rw [performs]
      exact noted
  | valueEnd notes =>
      obtain ⟨after, performs, marks, noted⟩ := @Holds.notes _ on parser c rest n _ holds _ notes
        fun _ _ _ number method at' => by rwa [Part.stage, number, method]
      rw [List.foldl_append, performs]
      rw [← marks] at admitted value
      exact (noted.callback admitted (value rfl) fun _ _ at' => ⟨_, stage_value at'⟩).setMark _ none
  | lineDone => exact holds
  | nextHeader =>
      have counted : Holds on (Part.field.stage size eating)
          (parser.setRequest fun request =>
            { request with numberOfHeaders := request.numberOfHeaders + 1 }) :=
        holds.setRequest fun _ _ at' => ⟨.inr at'.1, at'.2⟩
      exact counted.setMark .headerField (some [])
  | lastHeader => exact holds.setRequest fun _ _ at' => at'
  | headersEnd => exact (Bool.false_ne_true (quiet .bodyLogic (by simp))).elim
  | chunk =>
      apply holds.mono
      exact fun _ _ at' => at'.chunked size
  | size =>
      have same : Holds on (Part.chunk.stage size eating) parser := by
        apply holds.mono
        exact fun _ _ at' => at'.chunked size
      exact same.congr rfl rfl
  | data => exact (Bool.false_ne_true (quiet .skipChunkData (by simp))).elim
  | bodyEnd =>
      apply holds.endRequest
      intro request phase at'
      obtain ⟨-, known, read, rfl, chunked, -⟩ := at'
      refine ⟨.complete known read, if_neg fun identity => ?_⟩
      rw [chunked] at identity
      cases identity.1

end

/-! ### Buffers -/

/-- What holds at any byte. -/
structure Orderly (on : Callbacks σ) (parser : Parser (Log σ)) : Prop where
  admitted : Admitted parser.marks
  holds : ∃ part texts, Marked parser.marks texts ∧
    (∀ element ∈ texts, part.has element = true) ∧
    Holds on (part.stage parser.chunkSize parser.eating) parser ∧
    (parser.cs = .error ∨ part = parser.cs.part ∧ texts = parser.cs.texts)
  eats : parser.eating = true →
    0 < parser.chunkSize ∧ (parser.cs = .ready ∨ parser.cs = .dataEnd)

namespace Orderly

variable {parser : Parser (Log σ)} {c : UInt8} {rest : List UInt8}

theorem of_state (admitted : Admitted parser.marks) (marked : Marked parser.marks parser.cs.texts)
    (holds : Holds on (parser.cs.part.stage parser.chunkSize parser.eating) parser)
    (eats : parser.eating = true →
      0 < parser.chunkSize ∧ (parser.cs = .ready ∨ parser.cs = .dataEnd)) :
    Orderly on parser :=
  ⟨admitted, ⟨_, _, marked, fun _ => parser.cs.has_of_mem, holds, .inr ⟨rfl, rfl⟩⟩, eats⟩

theorem init (data : σ) : Orderly on (.init (data, [])) :=
  .of_state nofun (fun _ => iff_of_false Bool.false_ne_true List.not_mem_nil)
    ⟨fun _ => nofun, nofun⟩ nofun

/-- Where an error is nothing more is read. -/
theorem error (orderly : Orderly on parser) (eating : parser.eating = false) :
    Orderly on { parser with cs := .error } := by
  obtain ⟨part, texts, marked, has, holds, -⟩ := orderly.holds
  refine ⟨orderly.admitted, ⟨part, texts, marked, has, holds.congr rfl rfl, .inl rfl⟩, fun eats => ?_⟩
  exact absurd (eating.symm.trans eats) Bool.false_ne_true

theorem pass (orderly : Orderly on parser)
    (admits : ∀ element, (parser.marks element).isSome = true → element.admits c = true) :
    Orderly on (parser.pass c) := by
  obtain ⟨part, texts, marked, has, holds, states⟩ := orderly.holds
  refine ⟨fun element text present => ?_, ⟨part, texts, Parser.marked_pass marked c, has,
    holds.congr rfl rfl, states⟩, orderly.eats⟩
  obtain ⟨before, known, rfl⟩ := Option.map_eq_some_iff.mp present
  rw [List.all_append, orderly.admitted element before known, List.all_cons,
    admits element (by rw [known]; rfl)]
  rfl

theorem restart (orderly : Orderly on parser) : Orderly on (parser.restart []) := by
  obtain ⟨part, texts, marked, has, holds, states⟩ := orderly.holds
  refine ⟨fun element text present => ?_, ⟨part, texts, Parser.marked_restart marked [], has,
    holds.congr rfl rfl, states⟩, orderly.eats⟩
  obtain ⟨before, known, rfl⟩ := Option.map_eq_some_iff.mp present
  rfl

/-- What is marked is passed on. -/
theorem callback (orderly : Orderly on parser) (element : Element) :
    Orderly on (parser.callback (logged on) element) := by
  obtain ⟨part, texts, marked, has, holds, states⟩ := orderly.holds
  have within : (parser.marks element).isSome = true → part.has element = true :=
    fun some => has element ((marked element).mp some)
  refine ⟨?_, ⟨part, texts, ?_, has, ?_, ?_⟩, ?_⟩
  · rw [Parser.callback_marks]
    exact orderly.admitted
  · rw [Parser.callback_marks]
    exact marked
  · rw [Parser.callback_chunkSize, Parser.callback_eating]
    exact holds.callback_part orderly.admitted within
  · rw [Parser.callback_cs]
    exact states
  · rw [Parser.callback_eating, Parser.callback_chunkSize, Parser.callback_cs]
    exact orderly.eats

theorem callbacks (orderly : Orderly on parser) : Orderly on (parser.callbacks (logged on)) := by
  unfold Parser.callbacks
  simp only [List.foldl_cons, List.foldl_nil]
  exact (((((orderly.callback _).callback _).callback _).callback _).callback _).callback _

/-- Bytes of a body. -/
theorem skipBody {coding : TransferEncoding} {text : List UInt8}
    (marked : Marked parser.marks []) (holds : Holds on (InBody coding parser.chunkSize) parser)
    (within : text.length ≤ parser.chunkSize)
    (state : coding = .identity ∧ parser.cs = .ready ∨ coding = .chunked ∧ parser.cs = .dataEnd) :
    Orderly on (parser.skipBody (logged on) text) := by
  have skipped := holds.skipBody within
  have same : (parser.skipBody (logged on) text).cs = parser.cs := Parser.skipBody_cs text parser
  have marks : Marked (parser.skipBody (logged on) text).marks [] := by
    rw [Parser.skipBody_marks]
    exact marked
  have size : (parser.skipBody (logged on) text).chunkSize = parser.chunkSize - text.length :=
    Parser.skipBody_chunkSize text parser
  have more : (parser.skipBody (logged on) text).eating = true ↔
      0 < parser.chunkSize - text.length := by
    rw [Parser.skipBody_eating, Nat.sub_pos_iff_lt]
  rw [← size] at skipped more
  generalize parser.skipBody (logged on) text = after at skipped same marks more
  have admitted : Admitted after.marks := by
    intro element text present
    rw [marks.eq_nil] at present
    cases present
  obtain ⟨rfl, ready⟩ | ⟨rfl, behind⟩ := state
  · rw [ready] at same
    refine .of_state admitted (by rwa [same]) ?_ fun eats => ⟨more.mp eats, .inl same⟩
    rw [same]
    apply skipped.mono
    exact fun _ _ at' => ⟨at'.1, at'.2 rfl, more.mpr (at'.2 rfl)⟩
  · rw [behind] at same
    refine .of_state admitted (by rwa [same]) ?_ fun eats => ⟨more.mp eats, .inr same⟩
    rw [same]
    apply skipped.mono
    exact fun _ _ at' => at'.1

/-- What is known when the parser has read a byte and perhaps more. -/
structure Goes (on : Callbacks σ) (c : UInt8) (rest : List UInt8) (after : Parser (Log σ) × Nat) :
    Prop where
  stays : after.2 = 0 → Orderly on after.1
  goes : 0 < after.2 → Orderly on (after.1.pass c)
  eats : after.1.eating = true → rest.length < after.2
  marked : 1 < after.2 → Marked after.1.marks []

/-- The parser goes past one byte. -/
theorem Goes.one {after : Parser (Log σ)} (orderly : Orderly on after)
    (admits : ∀ element, (after.marks element).isSome = true → element.admits c = true)
    (eating : after.eating = false) : Goes on c rest (after, 1) :=
  ⟨nofun, fun _ => orderly.pass admits,
    fun eats => (Bool.false_ne_true (eating.symm.trans eats)).elim,
    fun more => absurd more (Nat.lt_irrefl 1)⟩

/-- There is no text in a part without texts. -/
theorem mem_of_field {state : State} (field : state.part = .field) :
    Element.headerField ∈ state.texts := by
  cases state with
  | field _ => exact List.mem_singleton_self _
  | _ => cases field

theorem mem_of_value {state : State} (value : state.part = .value) :
    Element.headerValue ∈ state.texts := by
  cases state with
  | value _ => exact List.mem_singleton_self _
  | _ => cases value

theorem Goes.quiet (orderly : Orderly on parser) (eating : parser.eating = false)
    (works : parser.cs ≠ .error) {found : List Action × State}
    (reads : next parser.cs c = some found) (quiet : ∀ action ∈ found.1, action.quiet = true) :
    Goes on c rest (parser.transition (logged on) c rest) := by
  obtain ⟨part, texts, marked, -, holds, states⟩ := orderly.holds
  obtain ⟨rfl, rfl⟩ := states.resolve_left works
  obtain ⟨after, ⟨still, state⟩, performs⟩ :=
    @Parser.foldl_quiet _ (logged on) found.1 quiet c { parser with cs := found.2 }
  have transition : parser.transition (logged on) c rest = (after, 1) := by
    rw [Parser.transition, reads]
    exact performs rest 1
  have marked' : Marked after.marks after.cs.texts := by
    have folded := @Parser.marked_foldl _ (logged on) found.1 parser.cs.texts
      ({ parser with cs := found.2 }, 1) marked c rest
    rw [performs, (next_row parser.cs c found reads).texts] at folded
    rw [state]
    exact folded
  have admitted : Admitted after.marks := by
    have folded := @Parser.admitted_foldl _ (logged on) found.1 ({ parser with cs := found.2 }, 1)
      orderly.admitted c rest
    rw [performs] at folded
    exact folded
  have fresh : after.eating = false := still.trans eating
  have holds' : Holds on (after.cs.part.stage after.chunkSize after.eating) after := by
    rw [eating] at holds
    have before : Holds on (parser.cs.part.stage parser.chunkSize false)
        { parser with cs := found.2 } := holds.congr rfl rfl
    have there := @Moves.holds σ on { parser with cs := found.2 } c rest 1 _ _ _
      (next_moves parser.cs c found reads) quiet _ before orderly.admitted
      (fun field => (marked _).mpr (mem_of_field field))
      (fun value => (marked _).mpr (mem_of_value value)) after.chunkSize after.eating
    rw [performs] at there
    rw [state]
    exact there
  rw [transition]
  refine .one (.of_state admitted marked' holds' fun eats => ?_) (fun element present => ?_) fresh
  · exact (Bool.false_ne_true (fresh.symm.trans eats)).elim
  · have member := (marked' element).mp present
    rw [state] at member
    exact next_admits parser.cs c found reads element member

/-- Bytes of a body, the last of which are not of this buffer. -/
theorem Goes.body {before : Parser (Log σ)} {text : List UInt8} {n : Nat}
    (orderly : Orderly on (before.skipBody (logged on) text)) (marked : Marked before.marks [])
    (eats : text.length < before.chunkSize → rest.length < n) :
    Goes on c rest (before.skipBody (logged on) text, n) := by
  have marks : Marked (before.skipBody (logged on) text).marks [] := by
    rw [Parser.skipBody_marks]
    exact marked
  refine ⟨fun _ => orderly, fun _ => ?_, fun eating => ?_, fun _ => marks⟩
  · rw [Parser.pass_of_none marks]
    exact orderly
  · exact eats ((Parser.skipBody_eating text before).mp eating)

theorem take_length_lt {text : List UInt8} {n : Nat} (short : (text.take n).length < n) :
    (text.take n).length = text.length := by
  rw [List.length_take] at short ⊢
  omega

/-- The end of the headers, behind which the body may begin. -/
theorem Goes.headersEnd (orderly : Orderly on parser) (eating : parser.eating = false)
    (state : parser.cs = .headersEnd)
    (reads : next parser.cs c = some ([.endHeaders, .bodyLogic], .ready)) :
    Goes on c rest (parser.transition (logged on) c rest) := by
  obtain ⟨part, texts, marked, -, holds, states⟩ := orderly.holds
  have works : parser.cs ≠ .error := by
    rw [state]
    rintro ⟨⟩
  obtain ⟨rfl, rfl⟩ := states.resolve_left works
  rw [state] at holds marked
  let after : Parser (Log σ) :=
    { parser with cs := .ready }.call (logged on) .headersComplete
  have transition : parser.transition (logged on) c rest =
      Parser.perform (logged on) c rest (after, 1) .bodyLogic := by
    rw [Parser.transition, reads]
    rfl
  have state' : after.cs = .ready := Parser.call_cs .headersComplete _
  have fresh : after.eating = false := (Parser.call_eating .headersComplete _).trans eating
  have marked' : Marked after.marks [] := by
    rw [Parser.call_marks]
    exact marked
  have admitted : Admitted after.marks := by
    rw [Parser.call_marks]
    exact orderly.admitted
  have free : ∀ element, (after.marks element).isSome = true → element.admits c = true :=
    fun element present => (List.not_mem_nil ((marked' element).mp present)).elim
  have completed : Holds on (fun request phase => phase = .body request 0) after := by
    have before : Holds on (Part.headersEnd.stage parser.chunkSize parser.eating)
        { parser with cs := .ready } := holds.congr rfl rfl
    apply before.call
    · rintro _ ⟨⟩
    · intro request phase at'
      obtain ⟨rfl, method⟩ := at'
      refine ⟨_, ?_, rfl⟩
      cases request.numberOfHeaders with
      | zero => exact if_pos method
      | succ index => exact if_pos method
  rw [transition]
  cases request : after.currentRequest with
  | none =>
      simp only [Parser.perform, request]
      refine .one (.of_state admitted (by rwa [state']) ?_ fun eats => ?_) free fresh
      · exact completed.mono_current fun _ _ present => by
          rw [request] at present
          cases present
      · exact (Bool.false_ne_true (fresh.symm.trans eats)).elim
  | some request' =>
      cases coding : request'.transferEncoding with
      | chunked =>
          simp only [Parser.perform, request, coding]
          have chunked : Holds on (InBody .chunked after.chunkSize) after := by
            apply completed.mono_current
            intro other phase present at'
            rw [request] at present
            cases present
            exact ⟨coding, request', 0, at', coding, by rintro ⟨⟩⟩
          refine .one (.of_state admitted marked' (chunked.congr request.symm rfl) fun eats => ?_) free
            fresh
          exact (Bool.false_ne_true (fresh.symm.trans eats)).elim
      | identity =>
          have performs : Parser.perform (logged on) c rest (after, 1) .bodyLogic =
              (Parser.skipBody (logged on) (rest.take request'.contentLength)
                { after with chunkSize := request'.contentLength },
                1 + (rest.take request'.contentLength).length) := by
            simp only [Parser.perform, request, coding]
          rw [performs]
          have missing : Holds on (InBody .identity request'.contentLength)
              { after with chunkSize := request'.contentLength } := by
            have body : Holds on (InBody .identity request'.contentLength) after := by
              apply completed.mono_current
              intro other phase present at'
              rw [request] at present
              cases present
              exact ⟨coding, request', 0, at', coding, fun _ => Nat.zero_add _⟩
            exact body.congr rfl rfl
          refine .body (skipBody marked' missing (List.length_take_le ..) (.inl ⟨rfl, state'⟩))
            marked' fun short => ?_
          have all := take_length_lt short
          omega

/-- The data of a chunk. -/
theorem Goes.data (orderly : Orderly on parser) (state : parser.cs = .data) :
    Goes on c rest (parser.transition (logged on) c rest) := by
  obtain ⟨part, texts, marked, -, holds, states⟩ := orderly.holds
  have works : parser.cs ≠ .error := by
    rw [state]
    rintro ⟨⟩
  obtain ⟨rfl, rfl⟩ := states.resolve_left works
  rw [state] at holds marked
  have missing : Holds on (InBody .chunked parser.chunkSize) { parser with cs := .dataEnd } :=
    holds.congr rfl rfl
  have transition : parser.transition (logged on) c rest =
      ({ parser with cs := .dataEnd }.skipBody (logged on) ((c :: rest).take parser.chunkSize),
        ((c :: rest).take parser.chunkSize).length) := by
    rw [Parser.transition, state]
    rfl
  rw [transition]
  refine .body (skipBody marked missing (List.length_take_le ..) (.inr ⟨rfl, rfl⟩)) marked
    fun short => ?_
  have all := take_length_lt short
  rw [all]
  exact Nat.lt_succ_self _

theorem transition (orderly : Orderly on parser) (eating : parser.eating = false) (c : UInt8)
    (rest : List UInt8) : Goes on c rest (parser.transition (logged on) c rest) := by
  cases reads : next parser.cs c with
  | none =>
      rw [Parser.transition_none reads]
      refine ⟨fun _ => orderly.error eating, nofun, fun eats => ?_, nofun⟩
      exact (Bool.false_ne_true (eating.symm.trans eats)).elim
  | some found =>
      have works : parser.cs ≠ .error := by
        intro error
        rw [error] at reads
        cases reads
      obtain ⟨-, quiet | ⟨state, rfl⟩ | ⟨state, rfl⟩⟩ := next_row parser.cs c found reads
      · exact .quiet orderly eating works reads quiet
      · exact .headersEnd orderly eating state reads
      · exact .data orderly state

theorem advance (orderly : Orderly on parser) (eating : parser.eating = false) (c : UInt8)
    (rest : List UInt8) : Goes on c rest (parser.advance (logged on) c rest) := by
  have goes := orderly.transition eating c rest
  rw [Parser.advance]
  split
  · rename_i stays
    apply (goes.stays stays).transition
    rw [← Bool.not_eq_true]
    intro eats
    have none := goes.eats eats
    omega
  · exact goes

/-- The rest of a buffer. -/
theorem resume (buffer : List UInt8) (orderly : Orderly on parser) (n : Nat)
    (eats : parser.eating = true → buffer.length ≤ n) (marked : 0 < n → Marked parser.marks []) :
    Orderly on (parser.resume (logged on) n buffer) := by
  induction buffer generalizing parser n with
  | nil => exact orderly
  | cons c rest ih =>
      cases n with
      | succ n =>
          have none := marked (Nat.succ_pos n)
          rw [Parser.resume, Parser.pass_of_none none]
          exact ih orderly n (fun eating => Nat.le_of_succ_le_succ (eats eating)) fun _ => none
      | zero =>
          have eating : parser.eating = false := by
            rw [← Bool.not_eq_true]
            intro eating
            exact absurd (eats eating) (Nat.not_succ_le_zero _)
          have goes := orderly.advance eating c rest
          rw [Parser.resume]
          split
          · rename_i after stays
            rw [stays] at goes
            exact goes.stays rfl
          · rename_i after n moves
            rw [moves] at goes
            refine ih (goes.goes (Nat.succ_pos n)) n (fun eating => ?_) fun more => ?_
            · exact Nat.lt_succ_iff.mp (goes.eats eating)
            · exact Parser.marked_pass (goes.marked (Nat.succ_lt_succ more)) c

theorem execute (orderly : Orderly on parser) (buffer : List UInt8) :
    Orderly on (parser.execute (logged on) buffer) := by
  by_cases inside : 0 < parser.chunkSize ∧ parser.eating = true
  · obtain ⟨part, texts, marked, -, holds, states⟩ := orderly.holds
    obtain ⟨-, state⟩ := orderly.eats inside.2
    have works : parser.cs ≠ .error := by
      intro error
      rw [error] at state
      cases state with
      | inl ready => cases ready
      | inr behind => cases behind
    obtain ⟨rfl, rfl⟩ := states.resolve_left works
    have none : Marked parser.marks [] := by
      cases state with
      | inl ready => rwa [ready] at marked
      | inr behind => rwa [behind] at marked
    have skipped : Orderly on
        (parser.skipBody (logged on) (buffer.take parser.chunkSize)) := by
      cases state with
      | inl ready =>
          rw [ready] at holds
          have missing : Holds on (InBody .identity parser.chunkSize) parser :=
            holds.mono fun _ _ at' => at'.1
          exact skipBody none missing (List.length_take_le ..) (.inl ⟨rfl, ready⟩)
      | inr behind =>
          rw [behind] at holds
          exact skipBody none holds (List.length_take_le ..) (.inr ⟨rfl, behind⟩)
    rw [Parser.execute_eats inside.2 inside.1 none]
    refine (skipped.resume _ 0 (fun eating => ?_) nofun).callbacks
    have short := (Parser.skipBody_eating _ parser).mp eating
    have all := take_length_lt short
    rw [List.length_drop]
    omega
  · have eating : parser.eating = false := by
      rw [← Bool.not_eq_true]
      exact fun eating => inside ⟨(orderly.eats eating).1, eating⟩
    rw [Parser.execute_reads eating]
    refine (orderly.restart.resume buffer 0 (fun eats => ?_) nofun).callbacks
    exact (Bool.false_ne_true (eating.symm.trans eats)).elim

/-- Whatever is received, in whatever buffers. -/
theorem receive (orderly : Orderly on parser) (buffers : List (List UInt8)) :
    Orderly on (parser.receive (logged on) buffers) := by
  induction buffers generalizing parser with
  | nil => exact orderly
  | cons buffer rest ih =>
      rw [Parser.receive]
      split
      · exact orderly.execute buffer
      · exact ih (orderly.execute buffer)

/-- The callbacks of a request so far are those of one that the head knows. -/
theorem runs (orderly : Orderly on parser) {block : List Event} (member : block ∈ parser.data.2) :
    ∃ phase, phases block = some phase := by
  obtain ⟨part, texts, -, -, holds, -⟩ := orderly.holds
  cases present : parser.currentRequest with
  | none => exact (holds.closed present block member).runs
  | some request =>
      obtain ⟨current, rest, phase, log, runs, -, closed⟩ := holds.current request present
      rw [log] at member
      obtain rfl | before := List.mem_cons.mp member
      · exact ⟨phase, runs⟩
      · exact (closed block before).runs

/-- All requests but the latest are complete unless a callback stopped reading. -/
theorem complete (orderly : Orderly on parser) (always : ∀ data event, (on data event).2 = true)
    {block : List Event} (member : block ∈ parser.data.2.tail) : .complete ∈ block := by
  obtain ⟨part, texts, -, -, holds, -⟩ := orderly.holds
  cases present : parser.currentRequest with
  | none => exact (holds.closed present block (List.mem_of_mem_tail member)).complete always
  | some request =>
      obtain ⟨current, rest, phase, log, -, -, closed⟩ := holds.current request present
      rw [log] at member
      exact (closed block member).complete always

end Orderly

/-- Whatever a connection receives, in whatever buffers, and whatever its callbacks answer: the
callbacks of each request are in order those of a request that the head knows, up to where it has
been received, and a new request begins only when the one before is complete or given up. -/
theorem received_incoming (on : Callbacks σ) (data : σ) (buffers : List (List UInt8)) :
    (∀ block ∈ ((Parser.init (data, [])).receive (logged on) buffers).data.2,
      ∃ incoming, Begins block incoming) ∧
    ((∀ data event, (on data event).2 = true) →
      ∀ block ∈ ((Parser.init (data, [])).receive (logged on) buffers).data.2.tail,
        .complete ∈ block) := by
  have orderly := (@Orderly.init σ on data).receive buffers
  refine ⟨fun block member => ?_, fun always block member => orderly.complete always member⟩
  obtain ⟨phase, runs⟩ := orderly.runs member
  exact begins_of_phases runs

end Ebb
