import Webroar.Ebb.RoundTrip
import Webroar.Ebb.Summary

/-! # Requests arrive as they are sent

What a client sends, one request behind the other and in whatever buffers it is received, the head
takes down request by request, and a worker finds it.
-/

open Request (Callback LinePiece ClientHeader Incoming Accepted)
open Scgi (frame scgiEntry encode startOffsetInit)

namespace Ebb

/-! ### Messages for the head -/

theorem not_mem_of_isEscaped {accepts : UInt8 → Bool} {text : List UInt8}
    (sound : isEscaped accepts text = true) (nonzero : accepts 0 = false) : (0 : UInt8) ∉ text := by
  have hex (c : UInt8) (digit : isHex c = true) : (0 : UInt8) ≠ c := by
    intro same
    subst same
    cases digit
  fun_induction isEscaped accepts text with
  | case1 => exact List.not_mem_nil
  | case2 first second rest ih =>
      simp only [Bool.and_eq_true] at sound
      simp only [List.mem_cons, not_or]
      exact ⟨by decide, hex _ sound.1.1, hex _ sound.1.2, ih sound.2⟩
  | case3 => cases sound
  | case4 c rest other ih =>
      simp only [Bool.and_eq_true] at sound
      simp only [List.mem_cons, not_or]
      refine ⟨?_, ih sound.2⟩
      intro same
      subst same
      rw [nonzero] at sound
      exact Bool.false_ne_true sound.1

theorem Target.plain (target : Target) : (0 : UInt8) ∉ target.uri := by
  cases target with
  | asterisk => decide
  | origin path query =>
      have first : (0 : UInt8) ∉ Target.path path := by
        rw [Target.path, List.mem_cons, not_or]
        exact ⟨by decide, not_mem_of_isEscaped path.2 (by decide)⟩
      cases query with
      | none => exact first
      | some query =>
          have second := not_mem_of_isEscaped query.2 (by decide : isUriByte 0 = false)
          simp only [Target.uri, List.mem_append, List.mem_cons, not_or]
          exact ⟨first, by decide, second⟩
  | absolute scheme rest =>
      have first : (0 : UInt8) ∉ scheme.1 := by
        intro member
        have sound := List.all_eq_true.mp scheme.2 0 member
        exact absurd sound (by decide)
      have second := not_mem_of_isEscaped rest.2 (by decide : isUriByte 0 = false)
      simp only [Target.uri, List.mem_append, List.mem_cons, not_or]
      exact ⟨first, by decide, second⟩

def Target.text (target : Target) : Text := ⟨target.uri, target.plain⟩

/-- What the head hears of a URI that is received in one piece. -/
def Target.pieces : Target → List LinePiece
  | .origin path none => [.path (Target.path path).length, .uri (Target.text (.origin path none))]
  | .origin path (some query) =>
      [.path (Target.path path).length, .queryString query.1.length,
        .uri (Target.text (.origin path (some query)))]
  | target => [.uri target.text]

theorem Target.calls (target : Target) :
    Calls target.events (target.pieces.map Callback.line) := by
  have uri (target : Target) : Shows (.piece .uri target.uri 0) (.line (.uri target.text)) :=
    .uri target.text 0
  cases target with
  | asterisk => exact .cons (uri _) .nil
  | origin path query =>
      cases query with
      | none => exact .cons (.path _ 0) (.cons (uri _) .nil)
      | some query =>
          exact .cons (.path _ 0) (.cons (.queryString _ 0) (.cons (uri _) .nil))
  | absolute => exact .cons (uri _) .nil

/-- The text of a fragment. -/
def fragmentText (fragment : EscapedText isUriByte) : Text :=
  ⟨fragment.1, not_mem_of_isEscaped fragment.2 rfl⟩

/-- What the head hears of a fragment that is received in one piece. -/
def fragmentPieces (fragment : Option (EscapedText isUriByte)) : List LinePiece :=
  (fragment.map fun fragment => LinePiece.fragment (fragmentText fragment)).toList

theorem fragmentCalls (fragment : Option (EscapedText isUriByte)) :
    Calls (fragment.map fun fragment => Event.piece .fragment fragment.1 0).toList
      ((fragmentPieces fragment).map Callback.line) := by
  cases fragment with
  | none => exact .nil
  | some fragment => exact .cons (.fragment (fragmentText fragment) 0) .nil

/-- A header that is received in one piece. -/
def Header.client (header : Header) : ClientHeader := ⟨header.name, [], header.value, []⟩

theorem Header.calls (headers : List Header) (index : Nat) :
    Calls (Header.allEvents index headers)
      (Request.headerCallbacks index (headers.map Header.client)) := by
  induction headers generalizing index with
  | nil => exact .nil
  | cons header headers ih =>
      exact .cons (.headerField header.name index)
        (.cons (.headerValue header.value index) (ih (index + 1)))

namespace Body

/-- The bytes of a body, apart from how they are sent. -/
def text : Body → List UInt8
  | .plain text => text
  | .chunked chunks _ => chunks.flatMap Chunk.text

/-- The pieces in which a body comes. -/
def pieces : Body → List (List UInt8)
  | .plain text => if text = [] then [] else [text]
  | .chunked chunks _ => chunks.map Chunk.text

theorem calls (body : Body) : Calls body.events (body.pieces.map Callback.body) := by
  cases body with
  | plain text =>
      simp only [events, pieces]
      split
      · exact .nil
      · exact .cons (.body text) .nil
  | chunked chunks zeros =>
      simp only [events, pieces]
      induction chunks with
      | nil => exact .nil
      | cons chunk chunks ih => exact .cons (.body chunk.text) ih

end Body

theorem requestOf_method (method : Method) (major minor : Digits) (headers : List Header) :
    (requestOf method major minor headers).method = some method := by
  have noted (headers : List Header) (request : Request) :
      (headers.foldl Header.note request).method = request.method := by
    induction headers generalizing request with
    | nil => rfl
    | cons header headers ih =>
        rw [List.foldl_cons, ih, Header.note]
        split
        · rfl
        · split
          · rfl
          · split <;> rfl
        · rfl
        · rfl
  exact noted headers _

namespace Message

/-- The request for the head, as it is when it is received in one piece. -/
def incoming (message : Message) : Incoming where
  line := message.target.pieces ++ fragmentPieces message.fragment
  headers := message.headers.map Header.client
  request := ⟨message.method, message.request.transferEncoding, message.request.versionMajor,
    message.request.versionMinor, message.request.contentLength⟩
  body := message.body.pieces

theorem calls (message : Message) : Calls message.events.tail message.incoming.callbacks := by
  have tells : Tells message.request message.incoming.request :=
    ⟨requestOf_method .., rfl, rfl, rfl, rfl⟩
  have behind := (Header.calls message.headers 0).append
    (.cons (.headersComplete tells) (message.body.calls.append (.cons .complete .nil)))
  have whole := message.target.calls.append ((fragmentCalls message.fragment).append behind)
  rw [incoming, Incoming.callbacks, List.map_append, List.append_assoc]
  exact whole

/-- The head accepts the request in one piece, and its headers are short enough for any. -/
structure Fits (head : Head) (message : Message) : Prop where
  accepted : Request.accepts head message.incoming = true
  room : startOffsetInit + (encode (scgiEntry :: message.incoming.clientEntries)).length ≤
    Config.maxHeaderSize

instance (head : Head) (message : Message) : Decidable (message.Fits head) :=
  decidable_of_iff (_ ∧ _) ⟨fun both => ⟨both.1, both.2⟩, fun fits => ⟨fits.1, fits.2⟩⟩

end Message

/-- A message has arrived in the head: its block has the entries of the message, its body is that of
the message, a worker finds the entries if the message is plain, and takes exactly the block and the
body for the request if the block fits its buffer and the length survives as an `int`. -/
structure Delivered (head : Head) (message : Message) (req : TakenRequest) : Prop where
  kept : req.rejected = none
  block : req.scgi.block = frame (message.incoming.entries head)
  body : req.uploadFile.getD (req.scgi.body.getD []) = message.body.text
  found : message.incoming.Plain → ∃ parsed, Scgi.parse req.scgi.block = some parsed ∧
    parsed.entries = message.incoming.entries head
  framed : message.incoming.Plain → message.request.transferEncoding = .identity →
    (frame (message.incoming.entries head)).length ≤ HttpReq.bufSize →
    Decimal.toSize (Decimal.toInt32 message.request.contentLength) =
      message.request.contentLength →
    Request.Framed head message.incoming req

/-! ### What the log says -/

variable {head : Head} {takes : Nat → Bool}

/-- The callbacks of a connection that owes no response whenever a request begins, and the log. -/
def served (head : Head) : Callbacks (Log (List Slot)) := logged (serve head fun _ => true)

end Ebb
