import Webroar.Ebb.Consumers
import Webroar.Ebb.Discipline
import Webroar.Head.Framing

/-! # What the head takes from a connection

The callbacks of the head, as the parser makes them. Whatever bytes a client sends, in whatever
buffers: a request that the head accepts is one that libebb is assumed to pass on, and head and
worker agree where it ends.
-/

/-- A request as the head holds it. -/
abbrev TakenRequest : Type := Request

open Request (Callback Incoming Accepted Received)
open Scgi (frame)

namespace Ebb

/-! ### The head's callbacks -/

/-- The callback of the head for one of the parser's, if the text is as the head expects it. -/
def heard : Event → Option Callback
  | .newRequest => none
  | .piece .path text _ => some (.line (.path text.length))
  | .piece .queryString text _ => some (.line (.queryString text.length))
  | .piece .uri text _ =>
      if plain : (0 : UInt8) ∉ text then some (.line (.uri ⟨text, plain⟩)) else none
  | .piece .fragment text _ =>
      if plain : (0 : UInt8) ∉ text then some (.line (.fragment ⟨text, plain⟩)) else none
  | .piece .headerField text index =>
      if visible : ∀ byte ∈ text, isToken byte = true then
        some (.headerField ⟨text, visible⟩ index)
      else none
  | .piece .headerValue text index =>
      if plain : (13 : UInt8) ∉ text then some (.headerValue ⟨text, plain⟩ index) else none
  | .headersComplete request =>
      request.method.map fun method =>
        .headersComplete ⟨method, request.transferEncoding, request.versionMajor,
          request.versionMinor, request.contentLength⟩
  | .body text => some (.body text)
  | .complete => some .complete

theorem Shows.heard {event : Event} {callback : Callback} (shown : Shows event callback) :
    heard event = some callback := by
  cases shown with
  | uri text => exact dif_pos text.2
  | fragment text => exact dif_pos text.2
  | headerField text => exact dif_pos text.2
  | headerValue text => exact dif_pos text.2
  | @headersComplete request ebb tells =>
      obtain ⟨method, coding, major, minor, length⟩ := ebb
      obtain ⟨method', coding', major', minor', length'⟩ := tells
      dsimp only at method' coding' major' minor' length'
      rw [Ebb.heard, method', coding', major', minor', length']
      rfl
  | _ => rfl

variable (head : Head)

/-- The head hears of its request. -/
def hear (req : TakenRequest) (event : Event) : Option TakenRequest :=
  (heard event).bind (Request.step head req)

/-- A request of the connection: the head does not take it, or takes it down as far as it has been
received. There is none where the source reads outside the URI. -/
inductive Slot where
  | refused
  | taken (req : Option TakenRequest)

namespace Slot

def hear (event : Event) : Slot → Slot
  | .refused => .refused
  | .taken req => .taken (req.bind fun req => Ebb.hear head req event)

/-- Reading goes on unless the request is rejected. -/
def reads : Slot → Bool
  | .taken (some req) => req.rejected.isNone
  | _ => false

end Slot

/-- The callbacks of a connection, which keep its requests, the latest first. Which requests are
taken depends on the responses that are owed at the time. -/
def serve (takes : Nat → Bool) : Callbacks (List Slot)
  | slots, .newRequest =>
      if takes slots.length then (.taken (some (Request.new head)) :: slots, true)
      else (.refused :: slots, false)
  | [], _ => ([], true)
  | slot :: rest, event => (slot.hear head event :: rest, (slot.hear head event).reads)

variable {head} {takes : Nat → Bool}

theorem serve_cons {event : Event} (other : event ≠ .newRequest) (slot : Slot) (rest : List Slot) :
    (serve head takes (slot :: rest) event).1 = slot.hear head event :: rest := by
  cases event with
  | newRequest => exact absurd rfl other
  | _ => rfl

/-! ### Slots and the log -/

/-- A slot holds what the callbacks of the request say. -/
def Written (head : Head) (slot : Slot) (block : List Event) : Prop :=
  slot = .refused ∨ slot = .taken (block.foldlM (hear head) (Request.new head))

theorem Written.hear {slot : Slot} {block : List Event} (keeps : Written head slot block)
    (event : Event) : Written head (slot.hear head event) (block ++ [event]) := by
  obtain rfl | rfl := keeps
  · exact .inl rfl
  · refine .inr ?_
    rw [List.foldlM_append, Slot.hear]
    congr 1
    cases block.foldlM (Ebb.hear head) (Request.new head) with
    | none => rfl
    | some req => exact (bind_pure (Ebb.hear head req event)).symm

/-- Each slot holds what the log says of its request. -/
theorem written_logged (log : Log (List Slot)) (event : Event)
    (kept : List.Forall₂ (Written head) log.1 log.2) :
    List.Forall₂ (Written head) (logged (serve head takes) log event).1.1
      (logged (serve head takes) log event).1.2 := by
  obtain ⟨slots, blocks⟩ := log
  by_cases fresh : event = .newRequest
  · subst fresh
    simp only [logged, serve, note]
    split
    · exact .cons (.inr rfl) kept
    · exact .cons (.inl rfl) kept
  · cases kept with
    | nil =>
        cases event with
        | newRequest => exact absurd rfl fresh
        | _ => exact .nil
    | cons first rest =>
        simp only [logged, serve_cons fresh, note_cons fresh]
        exact .cons (first.hear event) rest

theorem written_received (head : Head) (takes : Nat → Bool) (buffers : List (List UInt8)) :
    List.Forall₂ (Written head)
      ((Parser.init ([], [])).receive (logged (serve head takes)) buffers).data.1
      ((Parser.init ([], [])).receive (logged (serve head takes)) buffers).data.2 :=
  @Parser.receive_keeps _ _ (fun log => List.Forall₂ (Written head) log.1 log.2) written_logged
    ([], []) .nil buffers

/-! ### Requests that are accepted -/

/-- What the head hears is what it is told. -/
theorem hears_of_calls {events : List Event} {callbacks : List Callback}
    (calls : Calls events callbacks) (req : TakenRequest) :
    events.foldlM (hear head) req = Request.run head req callbacks := by
  induction calls generalizing req with
  | nil => rfl
  | @cons event callback events callbacks shown calls ih =>
      rw [List.foldlM_cons, Request.run_cons, hear, shown.heard, Option.bind_some]
      cases Request.step head req callback with
      | none => rfl
      | some next => exact ih next

/-- Head and worker agree on the end of a plain request whose body is as long as announced just when
the block fits the worker's buffer and the length survives as an `int`. -/
theorem framed_iff_of_length {incoming : Incoming} {req : TakenRequest}
    (received : Received head incoming req) (plain : incoming.Plain)
    (length : incoming.body.flatten.length = incoming.request.contentLength) :
    Request.Framed head incoming req ↔
      (frame (incoming.entries head)).length ≤ HttpReq.bufSize ∧
        Decimal.toSize (Decimal.toInt32 incoming.request.contentLength) =
          incoming.request.contentLength := by
  have decoded := received.declared plain
  constructor
  · rintro ⟨declared, -, consumed⟩
    have printed := Option.some.inj (decoded.symm.trans declared)
    have fits := consumed (fun _ => 0) (fun _ => 1) fun _ => Nat.one_pos
    rw [received.built.block] at fits declared
    exact ⟨(HttpReq.consumes_frame_iff received.short declared fun _ => Nat.one_pos).mp fits,
      printed.trans length⟩
  · rintro ⟨fits, printed⟩
    rw [printed, ← length] at decoded
    refine ⟨decoded, fun rooms arriving => ?_, fun junk grants arriving => ?_⟩
    · exact (received.sent.sends_iff rfl arriving).mpr (.inr length.symm)
    · rw [received.built.block] at decoded ⊢
      exact (HttpReq.consumes_frame_iff received.short decoded arriving).mpr fits

/-- What comes of a request that is complete and was not rejected: it is one that libebb is assumed
to pass on; the worker finds its entries just when it is plain, and then both agree on its end just
when the block fits the worker's buffer and the announced length survives as an `int`, unless the
body comes in chunks. -/
def Served (head : Head) (slot : Slot) (block : List Event) : Prop :=
  ∀ req, slot = .taken (some req) → .complete ∈ block → req.rejected = none →
    ∃ incoming, Calls block incoming.callbacks ∧ Accepted head incoming req ∧
      ((∃ parsed, Scgi.parse req.scgi.block = some parsed ∧
        parsed.entries = incoming.entries head) ↔ incoming.Plain) ∧
      (incoming.Plain → incoming.request.transferEncoding = .identity →
        (Request.Framed head incoming req ↔
          (frame (incoming.entries head)).length ≤ HttpReq.bufSize ∧
            Decimal.toSize (Decimal.toInt32 incoming.request.contentLength) =
              incoming.request.contentLength))

theorem Written.served {slot : Slot} {block : List Event} (keeps : Written head slot block)
    {incoming : Incoming} (begins : Begins block incoming) : Served head slot block := by
  intro req taken complete kept
  obtain rfl | rfl := keeps
  · cases taken
  have calls := begins.complete complete
  rw [hears_of_calls calls] at taken
  have accepted : Accepted head incoming req := ⟨Slot.taken.inj taken, kept⟩
  have received := accepted.received
  refine ⟨incoming, calls, accepted, received.parses_iff, fun plain identity => ?_⟩
  exact framed_iff_of_length received plain (begins.framed identity)

/-- Whatever bytes a client sends in whatever buffers, and whichever requests the head takes. -/
theorem served_received (head : Head) (takes : Nat → Bool) (buffers : List (List UInt8)) :
    List.Forall₂ (Served head)
      ((Parser.init ([], [])).receive (logged (serve head takes)) buffers).data.1
      ((Parser.init ([], [])).receive (logged (serve head takes)) buffers).data.2 := by
  have kept := written_received head takes buffers
  have orderly := (@Orderly.init _ (serve head takes) []).receive buffers
  rw [List.forall₂_iff_zip] at kept ⊢
  refine ⟨kept.1, fun {slot block} member => ?_⟩
  obtain ⟨phase, runs⟩ := orderly.runs (List.of_mem_zip member).2
  obtain ⟨incoming, begins⟩ := begins_of_phases runs
  exact (kept.2 member).served begins

end Ebb
