import Webroar.Ebb.Parser
import Webroar.Head.Incoming

/-! # The order of callbacks

The callbacks of a request come in phases: the pieces of the request line, for each header those of
its name and those of its value, the end of the headers, the body and the end of the request.
-/

open Request (Callback LinePiece ClientHeader Incoming headerCallbacks)

namespace Ebb

/-- How far the callbacks of a request are; with the headers comes what is known of the request, and
with the body how much of it there has been. -/
inductive Phase where
  | line
  | name (index : Nat)
  | value (index : Nat)
  | body (request : Request) (read : Nat)
  | complete (request : Request) (read : Nat)
deriving DecidableEq

/-- A byte that a text may contain. -/
def Element.admits (c : UInt8) : Element → Bool
  | .headerField => isToken c
  | .headerValue => c ≠ 13
  | .uri | .fragment => c ≠ 0
  | .path | .queryString => true

/-- A text of the request line. -/
def Element.ofLine : Element → Bool
  | .headerField | .headerValue => false
  | _ => true

/-- The phase after a piece of a text. -/
def Phase.piece : Phase → Element → Nat → Option Phase
  | .line, .headerField, index => if index = 0 then some (.name 0) else none
  | .line, element, _ => if element.ofLine then some .line else none
  | .name current, .headerField, index => if index = current then some (.name current) else none
  | .name current, .headerValue, index => if index = current then some (.value current) else none
  | .value current, .headerValue, index => if index = current then some (.value current) else none
  | .value current, .headerField, index =>
      if index = current + 1 then some (.name (current + 1)) else none
  | _, _, _ => none

/-- The phase after a callback, if it is one that may be made. -/
def Phase.next : Phase → Event → Option Phase
  | phase, .piece element text index =>
      if text.all element.admits then phase.piece element index else none
  | .line, .headersComplete request | .value _, .headersComplete request =>
      if request.method.isSome then some (.body request 0) else none
  | .body request read, .body text =>
      if request.transferEncoding = .identity ∧ request.contentLength < read + text.length then none
      else some (.body request (read + text.length))
  | .body request read, .complete =>
      if request.transferEncoding = .identity ∧ read ≠ request.contentLength then none
      else some (.complete request read)
  | _, _ => none

/-- The phase after some callbacks. -/
def phases (events : List Event) : Option Phase := events.foldlM Phase.next .line

theorem phases_concat (events : List Event) (event : Event) :
    phases (events ++ [event]) = (phases events).bind fun phase => phase.next event := by
  rw [phases, phases, List.foldlM_append]
  cases events.foldlM Phase.next .line with
  | none => rfl
  | some phase => exact bind_pure (phase.next event)

/-! ### The head's callbacks -/

/-- What the head knows of a request. -/
structure Tells (request : Request) (ebb : EbbRequest) : Prop where
  method : request.method = some ebb.method
  transferEncoding : request.transferEncoding = ebb.transferEncoding
  versionMajor : request.versionMajor = ebb.versionMajor
  versionMinor : request.versionMinor = ebb.versionMinor
  contentLength : request.contentLength = ebb.contentLength

/-- The callback of the head for one of the parser's. -/
inductive Shows : Event → Callback → Prop where
  | path (text : List UInt8) (index : Nat) :
      Shows (.piece .path text index) (.line (.path text.length))
  | queryString (text : List UInt8) (index : Nat) :
      Shows (.piece .queryString text index) (.line (.queryString text.length))
  | uri (text : Text) (index : Nat) : Shows (.piece .uri text.1 index) (.line (.uri text))
  | fragment (text : Text) (index : Nat) :
      Shows (.piece .fragment text.1 index) (.line (.fragment text))
  | headerField (text : Token) (index : Nat) :
      Shows (.piece .headerField text.1 index) (.headerField text index)
  | headerValue (text : FieldValue) (index : Nat) :
      Shows (.piece .headerValue text.1 index) (.headerValue text index)
  | headersComplete {request : Request} {ebb : EbbRequest} (tells : Tells request ebb) :
      Shows (.headersComplete request) (.headersComplete ebb)
  | body (text : List UInt8) : Shows (.body text) (.body text)
  | complete : Shows .complete .complete

/-- The callbacks of the head for those of the parser. -/
abbrev Calls (events : List Event) (callbacks : List Callback) : Prop :=
  List.Forall₂ Shows events callbacks

theorem Calls.concat {events : List Event} {callbacks : List Callback} {event : Event}
    {callback : Callback} (calls : Calls events callbacks) (shows' : Shows event callback) :
    Calls (events ++ [event]) (callbacks ++ [callback]) :=
  List.rel_append calls (.cons shows' .nil)

/-- Where `text.all element.admits`, a piece of the request line is one for the head. -/
theorem shows_line {element : Element} {text : List UInt8} (sound : text.all element.admits = true)
    (line : element.ofLine = true) (index : Nat) :
    ∃ piece, Shows (.piece element text index) (.line piece) := by
  have plain : (∀ c ∈ text, c ≠ 0) → (0 : UInt8) ∉ text := fun nonzero member =>
    nonzero 0 member rfl
  cases element with
  | headerField => cases line
  | headerValue => cases line
  | path => exact ⟨.path text.length, .path text index⟩
  | queryString => exact ⟨.queryString text.length, .queryString text index⟩
  | uri =>
      simp only [List.all_eq_true, Element.admits, decide_eq_true_eq] at sound
      exact ⟨.uri ⟨text, plain sound⟩, .uri ⟨text, plain sound⟩ index⟩
  | fragment =>
      simp only [List.all_eq_true, Element.admits, decide_eq_true_eq] at sound
      exact ⟨.fragment ⟨text, plain sound⟩, .fragment ⟨text, plain sound⟩ index⟩

theorem headerCallbacks_concat (index : Nat) (headers : List ClientHeader) (header : ClientHeader) :
    headerCallbacks index (headers ++ [header]) =
      headerCallbacks index headers ++ header.callbacks (index + headers.length) := by
  induction headers generalizing index with
  | nil => simp [headerCallbacks]
  | cons first headers ih =>
      rw [List.cons_append, headerCallbacks, ih, headerCallbacks, List.length_cons,
        Nat.add_right_comm, List.append_assoc, Nat.add_assoc]

/-! ### Requests that have begun -/

/-- The callbacks of the head up to the headers. -/
def headOf (line : List LinePiece) (headers : List ClientHeader) : List Callback :=
  line.map .line ++ headerCallbacks 0 headers

/-- The callbacks of the head up to a phase. -/
inductive Begun : Phase → List Callback → Prop where
  | line (line : List LinePiece) : Begun .line (headOf line [])
  | name (line : List LinePiece) (headers : List ClientHeader) (field : Token)
      (fields : List Token) : Begun (.name headers.length)
        (headOf line headers ++ (field :: fields).map fun text =>
          .headerField text headers.length)
  | value (line : List LinePiece) (headers : List ClientHeader) (header : ClientHeader) :
      Begun (.value headers.length) (headOf line (headers ++ [header]))
  | body (line : List LinePiece) (headers : List ClientHeader) {request : Request}
      {ebb : EbbRequest} (tells : Tells request ebb) (bodies : List (List UInt8))
      (within : request.transferEncoding = .identity →
        bodies.flatten.length ≤ request.contentLength) :
      Begun (.body request bodies.flatten.length)
        (headOf line headers ++ (.headersComplete ebb :: bodies.map .body))
  | complete (incoming : Incoming) {request : Request} (tells : Tells request incoming.request)
      (framed : request.transferEncoding = .identity →
        incoming.body.flatten.length = request.contentLength) :
      Begun (.complete request incoming.body.flatten.length) incoming.callbacks

theorem headOf_concat (line : List LinePiece) (headers : List ClientHeader)
    (header : ClientHeader) :
    headOf line (headers ++ [header]) = headOf line headers ++ header.callbacks headers.length := by
  rw [headOf, headOf, headerCallbacks_concat, Nat.zero_add, List.append_assoc]

theorem headOf_line (line : List LinePiece) (piece : LinePiece) :
    headOf (line ++ [piece]) [] = headOf line [] ++ [.line piece] := by
  simp [headOf, headerCallbacks]

theorem Begun.ofName {line : List LinePiece} {headers : List ClientHeader} {field : Token}
    {fields : List Token} (text : Token) : Begun (.name headers.length)
      ((headOf line headers ++ (field :: fields).map fun text =>
        .headerField text headers.length) ++ [.headerField text headers.length]) := by
  have more := Begun.name line headers field (fields ++ [text])
  rw [List.append_assoc]
  simpa using more

theorem Begun.ofFirst (line : List LinePiece) (headers : List ClientHeader) (field : Token)
    (fields : List Token) (value : FieldValue) : Begun (.value headers.length)
      ((headOf line headers ++ (field :: fields).map fun text =>
        .headerField text headers.length) ++ [.headerValue value headers.length]) := by
  have more := Begun.value line headers ⟨field, fields, value, []⟩
  rw [headOf_concat] at more
  rw [List.append_assoc]
  exact more

theorem Begun.ofValue (line : List LinePiece) (headers : List ClientHeader)
    (header : ClientHeader) (value : FieldValue) : Begun (.value headers.length)
      (headOf line (headers ++ [header]) ++ [.headerValue value headers.length]) := by
  have more := Begun.value line headers { header with values := header.values ++ [value] }
  rw [headOf_concat] at more ⊢
  rw [List.append_assoc]
  simpa [ClientHeader.callbacks] using more

theorem Begun.ofBody {line : List LinePiece} {headers : List ClientHeader} {request : Request}
    {ebb : EbbRequest} (tells : Tells request ebb) (bodies : List (List UInt8))
    (text : List UInt8) (within : request.transferEncoding = .identity →
      bodies.flatten.length + text.length ≤ request.contentLength) :
    Begun (.body request (bodies.flatten.length + text.length))
      ((headOf line headers ++ (.headersComplete ebb :: bodies.map .body)) ++ [.body text]) := by
  have more := Begun.body line headers tells (bodies ++ [text]) (by simpa using within)
  rw [List.append_assoc]
  simpa using more

theorem tells_of_method {request : Request} (method : request.method.isSome = true) :
    ∃ ebb, Tells request ebb := by
  obtain ⟨method, known⟩ := Option.isSome_iff_exists.mp method
  exact ⟨⟨method, request.transferEncoding, request.versionMajor, request.versionMinor,
    request.contentLength⟩, known, rfl, rfl, rfl, rfl⟩

/-- A text whose bytes are admitted is one for the head. -/
theorem token_of_admits {text : List UInt8}
    (sound : text.all Element.headerField.admits = true) : ∃ token : Token, token.1 = text :=
  ⟨⟨text, List.all_eq_true.mp sound⟩, rfl⟩

theorem value_of_admits {text : List UInt8}
    (sound : text.all Element.headerValue.admits = true) : ∃ value : FieldValue, value.1 = text := by
  refine ⟨⟨text, fun member => ?_⟩, rfl⟩
  have other := List.all_eq_true.mp sound 13 member
  exact absurd other (by decide)

theorem Begun.piece {phase after : Phase} {callbacks : List Callback} {element : Element}
    {text : List UInt8} {index : Nat} (begun : Begun phase callbacks)
    (sound : text.all element.admits = true) (goes : phase.piece element index = some after) :
    ∃ callback, Shows (.piece element text index) callback ∧
      Begun after (callbacks ++ [callback]) := by
  cases begun with
  | line line =>
      cases line' : element.ofLine with
      | true =>
          have same : Phase.line = after := by
            cases element with
            | headerField | headerValue => cases line'
            | _ => exact Option.some.inj goes
          subst same
          obtain ⟨piece, shows'⟩ := shows_line sound line' index
          refine ⟨.line piece, shows', ?_⟩
          rw [← headOf_line]
          exact .line (line ++ [piece])
      | false =>
          cases element with
          | headerField =>
              simp only [Phase.piece] at goes
              split at goes
              · rename_i first
                cases goes
                subst first
                obtain ⟨token, rfl⟩ := token_of_admits sound
                exact ⟨_, .headerField token 0, .name line [] token []⟩
              · cases goes
          | headerValue => cases goes
          | _ => cases line'
  | name line headers field fields =>
      cases element with
      | headerField =>
          simp only [Phase.piece] at goes
          split at goes
          · rename_i same
            cases goes
            subst same
            obtain ⟨token, rfl⟩ := token_of_admits sound
            exact ⟨_, .headerField token _, .ofName token⟩
          · cases goes
      | headerValue =>
          simp only [Phase.piece] at goes
          split at goes
          · rename_i same
            cases goes
            subst same
            obtain ⟨value, rfl⟩ := value_of_admits sound
            exact ⟨_, .headerValue value _, .ofFirst line headers field fields value⟩
          · cases goes
      | _ => cases goes
  | value line headers header =>
      cases element with
      | headerField =>
          simp only [Phase.piece] at goes
          split at goes
          · rename_i same
            cases goes
            subst same
            obtain ⟨token, rfl⟩ := token_of_admits sound
            have more := Begun.name line (headers ++ [header]) token []
            rw [List.length_append] at more
            exact ⟨_, .headerField token _, more⟩
          · cases goes
      | headerValue =>
          simp only [Phase.piece] at goes
          split at goes
          · rename_i same
            cases goes
            subst same
            obtain ⟨value, rfl⟩ := value_of_admits sound
            exact ⟨_, .headerValue value _, .ofValue line headers header value⟩
          · cases goes
      | _ => cases goes
  | _ => cases goes

theorem begun_headersComplete (line : List LinePiece) (headers : List ClientHeader)
    {request : Request} (method : request.method.isSome = true) :
    ∃ callback, Shows (.headersComplete request) callback ∧
      Begun (.body request 0) (headOf line headers ++ [callback]) := by
  obtain ⟨ebb, tells⟩ := tells_of_method method
  exact ⟨_, .headersComplete tells, .body line headers tells [] fun _ => Nat.zero_le _⟩

/-- A callback that may be made is one for the head. -/
theorem Begun.next {phase after : Phase} {callbacks : List Callback} {event : Event}
    (begun : Begun phase callbacks) (goes : phase.next event = some after) :
    ∃ callback, Shows event callback ∧ Begun after (callbacks ++ [callback]) := by
  cases event with
  | newRequest => cases phase <;> cases goes
  | piece element text index =>
      have both : text.all element.admits = true ∧ phase.piece element index = some after := by
        cases phase <;> exact Option.ite_none_right_eq_some.mp goes
      exact begun.piece both.1 both.2
  | headersComplete request =>
      cases begun with
      | line line =>
          obtain ⟨method, goes⟩ := Option.ite_none_right_eq_some.mp goes
          cases goes
          exact begun_headersComplete line [] method
      | value line headers header =>
          obtain ⟨method, goes⟩ := Option.ite_none_right_eq_some.mp goes
          cases goes
          exact begun_headersComplete line (headers ++ [header]) method
      | _ => cases goes
  | body text =>
      cases begun with
      | body line headers tells bodies =>
          obtain ⟨within, goes⟩ := Option.ite_none_left_eq_some.mp goes
          cases goes
          refine ⟨_, .body text, .ofBody tells bodies text fun identity => ?_⟩
          by_contra more
          exact within ⟨identity, Nat.lt_of_not_le more⟩
      | _ => cases goes
  | complete =>
      cases begun with
      | @body line headers request ebb tells bodies =>
          obtain ⟨framed, goes⟩ := Option.ite_none_left_eq_some.mp goes
          cases goes
          refine ⟨_, .complete, ?_⟩
          have whole := Begun.complete ⟨line, headers, ebb, bodies⟩ tells fun identity => by
            by_contra other
            exact framed ⟨identity, other⟩
          simpa [Incoming.callbacks, headOf] using whole
      | _ => cases goes

/-- Callbacks in phases are those of the head for a request that has begun. -/
theorem begun_of_phases {events : List Event} {phase : Phase} (runs : phases events = some phase) :
    ∃ callbacks, Calls events callbacks ∧ Begun phase callbacks := by
  induction events using List.reverseRecOn generalizing phase with
  | nil =>
      cases runs
      exact ⟨[], .nil, .line []⟩
  | append_singleton events event ih =>
      rw [phases_concat] at runs
      obtain ⟨before, runs, goes⟩ := Option.bind_eq_some_iff.mp runs
      obtain ⟨callbacks, calls, begun⟩ := ih runs
      obtain ⟨callback, shows', begun⟩ := begun.next goes
      exact ⟨callbacks ++ [callback], calls.concat shows', begun⟩

/-! ### Whole requests -/

/-- A body that is not sent in chunks is as long as announced. -/
def Framed (incoming : Incoming) : Prop :=
  incoming.request.transferEncoding = .identity →
    incoming.body.flatten.length = incoming.request.contentLength

/-- The callbacks of a request have begun as those of the head for some request, and are all of them
where it is complete. -/
structure Begins (events : List Event) (incoming : Incoming) : Prop where
  framed : Framed incoming
  calls : ∃ callbacks, Calls events callbacks ∧ callbacks <+: incoming.callbacks
  complete : Event.complete ∈ events → Calls events incoming.callbacks

/-- Some request has no body yet. -/
theorem exists_framed (line : List LinePiece) (headers : List ClientHeader) :
    ∃ incoming, Framed incoming ∧ headOf line headers <+: incoming.callbacks := by
  refine ⟨⟨line, headers, ⟨.get, .identity, 1, 1, 0⟩, []⟩, fun _ => rfl, ?_⟩
  rw [Incoming.callbacks, ← List.append_assoc]
  exact List.prefix_append _ _

theorem Begun.exists_framed {phase : Phase} {callbacks : List Callback}
    (begun : Begun phase callbacks) :
    ∃ incoming, Framed incoming ∧ callbacks <+: incoming.callbacks := by
  cases begun with
  | line line => exact Ebb.exists_framed line []
  | value line headers header => exact Ebb.exists_framed line (headers ++ [header])
  | name line headers field fields =>
      -- The value may be empty.
      obtain ⟨incoming, framed, begins⟩ := Ebb.exists_framed line
        (headers ++ [⟨field, fields, ⟨[], List.not_mem_nil⟩, []⟩])
      refine ⟨incoming, framed, List.IsPrefix.trans ?_ begins⟩
      rw [headOf_concat, ClientHeader.callbacks, ← List.append_assoc]
      exact List.prefix_append _ _
  | @body line headers request ebb tells bodies within =>
      -- What is missing may be anything.
      refine ⟨⟨line, headers, ebb, bodies ++
        [List.replicate (request.contentLength - bodies.flatten.length) 0]⟩, fun identity => ?_, ?_⟩
      · rw [← tells.transferEncoding] at identity
        have missing := within identity
        simp only [List.flatten_append, List.length_append, List.flatten_cons, List.flatten_nil,
          List.append_nil, List.length_replicate, ← tells.contentLength]
        omega
      · simp only [Incoming.callbacks, headOf, List.map_append, List.append_assoc,
          List.prefix_append_right_inj]
        simp only [List.cons_prefix_cons, true_and]
        exact List.prefix_append _ _
  | complete incoming tells framed =>
      refine ⟨incoming, fun identity => ?_, List.prefix_rfl⟩
      rw [← tells.contentLength]
      exact framed (tells.transferEncoding.trans identity)

/-- Only the last callback completes the request. -/
theorem complete_of_mem {events : List Event} {phase : Phase} (runs : phases events = some phase)
    (member : Event.complete ∈ events) : ∃ request read, phase = .complete request read := by
  induction events using List.reverseRecOn generalizing phase with
  | nil => cases member
  | append_singleton events event ih =>
      rw [phases_concat] at runs
      obtain ⟨before, runs, goes⟩ := Option.bind_eq_some_iff.mp runs
      obtain earlier | last := List.mem_append.mp member
      · obtain ⟨request, read, rfl⟩ := ih runs earlier
        cases event with
        | piece element text index =>
            have stops : (Phase.complete request read).piece element index = none := rfl
            simp [Phase.next, stops] at goes
        | _ => cases goes
      · obtain rfl := List.mem_singleton.mp last
        cases before with
        | body request read =>
            obtain ⟨-, goes⟩ := Option.ite_none_left_eq_some.mp goes
            exact ⟨request, read, (Option.some.inj goes).symm⟩
        | _ => cases goes

/-- Callbacks in phases are those of a request that the head knows. -/
theorem begins_of_phases {events : List Event} {phase : Phase} (runs : phases events = some phase) :
    ∃ incoming, Begins events incoming := by
  obtain ⟨callbacks, calls, begun⟩ := begun_of_phases runs
  by_cases member : Event.complete ∈ events
  · obtain ⟨request, read, rfl⟩ := complete_of_mem runs member
    cases begun with
    | complete incoming tells framed =>
        refine ⟨incoming, fun identity => ?_, ⟨_, calls, List.prefix_rfl⟩, fun _ => calls⟩
        rw [← tells.contentLength]
        exact framed (tells.transferEncoding.trans identity)
  · obtain ⟨incoming, framed, begins⟩ := begun.exists_framed
    exact ⟨incoming, framed, ⟨callbacks, calls, begins⟩, fun complete => absurd complete member⟩

end Ebb
