import Webroar.Head.Forgery
import Webroar.Head.Sender
import Webroar.Worker.Body

/-! # Where a request ends

The head announces a length when the headers are complete, from what libebb took from the
client's headers, and sends the body it has got by then; the worker reads as many bytes as were
announced. Both agree exactly when the announced number is that of the body bytes; a chunked
body need not be announced at all.
-/

namespace Request

open Scgi (contentLengthName frame)

variable {head : Head} {incoming : Incoming} {req : Request}

/-- Head and worker agree on the bytes of a request: the worker decodes the number of body bytes,
the head writes the block and these bytes and waits exactly when they are written, and the worker
takes exactly these bytes for the request. -/
structure Framed (head : Head) (incoming : Incoming) (req : Request) : Prop where
  declared : HttpReq.declared req.scgi.block = some incoming.body.flatten.length
  sends : ∀ rooms : Nat → Nat, (∀ count, 0 < rooms count) →
    (Sender.start head incoming req).Sends rooms (req.scgi.block ++ incoming.body.flatten)
  consumes : ∀ (junk : Nat → UInt8) (grants : Nat → Nat), (∀ count, 0 < grants count) →
    HttpReq.Consumes junk (req.scgi.block ++ incoming.body.flatten) incoming.body.flatten grants

/-- The block fits the worker's buffer, and the content length libebb reports is the number of
body bytes: as it is printed and read back, and as it is when it decides for an upload file. -/
structure Announced (head : Head) (incoming : Incoming) : Prop where
  fits : (frame (incoming.entries head)).length ≤ HttpReq.bufSize
  printed : Decimal.toSize (Decimal.toInt32 incoming.request.contentLength) =
    incoming.body.flatten.length
  stored : incoming.request.contentLength ≤ head.maxBodySize ∨
    incoming.request.contentLength = incoming.body.flatten.length

/-- What the worker decodes from the block of an accepted plain request. -/
theorem Received.declared (received : Received head incoming req) (plain : incoming.Plain) :
    HttpReq.declared req.scgi.block =
      some (Decimal.toSize (Decimal.toInt32 incoming.request.contentLength)) := by
  obtain ⟨parsed, found, back⟩ := received.parsed plain []
  have clean := received.clean plain
  rw [List.append_nil] at found
  have value : parsed.headerValueGet contentLengthName =
      some (Decimal.format incoming.request.contentLength) := by
    rw [back.holds.headerValueGet fun item member => (clean item member).2]
    exact latest_contentLength incoming head
  rw [HttpReq.declared, found, Option.bind_some, value, Option.map_some, Decimal.atoi_format]

/-- An accepted request starts to be sent with its block and its body. -/
theorem Received.sent (received : Received head incoming req) :
    (Sender.start head incoming req).Sent req.scgi.block (req.scgi.body.getD [])
      incoming.body.flatten := by
  have file := received.file
  have body := received.body
  have nonempty : 0 < req.scgi.block.length := by
    rw [received.built.block, Scgi.length_frame]
    omega
  refine ⟨⟨received.built.length, nonempty, rfl, rfl, head.positive, ?_⟩, fun _ => ⟨?_, ?_⟩,
    nofun, nofun⟩
  · by_cases large : head.maxBodySize < incoming.request.contentLength
    · rw [if_pos large] at file body
      exact Or.inr ⟨file, body, Nat.lt_of_le_of_lt (Nat.zero_le _) large⟩
    · rw [if_neg large] at file body
      exact Or.inl ⟨file, body⟩
  · rw [Sender.start, received.unsent]
    exact Nat.lt_of_lt_of_le nonempty (Nat.le_add_right _ _)
  · rw [Sender.start, received.unsent]
    rfl

/-- The body is in memory when its announced length is not too large. -/
theorem Received.inMemory_iff (received : Received head incoming req) :
    req.uploadFile = none ↔ incoming.request.contentLength ≤ head.maxBodySize := by
  rw [received.file]
  by_cases large : head.maxBodySize < incoming.request.contentLength
  · rw [if_pos large]
    exact ⟨nofun, fun small => absurd large (Nat.not_lt_of_le small)⟩
  · rw [if_neg large]
    exact ⟨fun _ => Nat.le_of_not_lt large, fun _ => rfl⟩

/-- The head and the worker agree on the bytes of an accepted plain request exactly when its
block fits and its body is as long as it was announced. -/
theorem framed_iff (accepted : Accepted head incoming req) (plain : incoming.Plain) :
    Framed head incoming req ↔ Announced head incoming := by
  have received := accepted.received
  have decoded := received.declared plain
  have sends : ∀ rooms : Nat → Nat, (∀ count, 0 < rooms count) →
      ((Sender.start head incoming req).Sends rooms (req.scgi.block ++ incoming.body.flatten) ↔
        (incoming.request.contentLength ≤ head.maxBodySize ∨
          incoming.request.contentLength = incoming.body.flatten.length)) := by
    intro rooms arriving
    rw [received.sent.sends_iff rfl arriving, ← received.inMemory_iff]
    rfl
  constructor
  · rintro ⟨declared, sent, consumed⟩
    have printed := Option.some.inj (decoded.symm.trans declared)
    have fits := consumed (fun _ => 0) (fun _ => 1) fun _ => Nat.one_pos
    rw [received.built.block] at fits declared
    exact ⟨(HttpReq.consumes_frame_iff received.short declared fun _ => Nat.one_pos).mp fits,
      printed, (sends (fun _ => 1) fun _ => Nat.one_pos).mp (sent _ fun _ => Nat.one_pos)⟩
  · rintro ⟨fits, printed, stored⟩
    rw [printed] at decoded
    refine ⟨decoded, fun rooms arriving => (sends rooms arriving).mpr stored, ?_⟩
    intro junk grants arriving
    rw [received.built.block] at decoded ⊢
    exact (HttpReq.consumes_frame_iff received.short decoded arriving).mpr fits

theorem framed_iff_sample :
    ∃ req, Accepted sampleHead (sampleIncoming ⟨ascii "a", by decide⟩) req ∧
      (Framed sampleHead (sampleIncoming ⟨ascii "a", by decide⟩) req ↔
        Announced sampleHead (sampleIncoming ⟨ascii "a", by decide⟩)) := by
  obtain ⟨req, accepted⟩ := accepted_of_accepts
    (show accepts sampleHead (sampleIncoming ⟨ascii "a", by decide⟩) = true by decide +kernel)
  exact ⟨req, accepted, framed_iff accepted (by decide)⟩

/-- A `POST` request with a chunked body of three bytes. -/
def chunkedIncoming : Incoming where
  line := [.uri ⟨ascii "/a", noNul_path⟩, .path 2]
  headers := [⟨tokenOf "Host" visible_host, [], ⟨ascii "h", oneLine_h⟩, []⟩]
  request := ⟨.post, .chunked, 1, 1, 0⟩
  body := [ascii "ab", ascii "c"]

/-- The head announces no byte of the chunked body. -/
theorem framed_fails :
    ∃ req, Accepted sampleHead chunkedIncoming req ∧ chunkedIncoming.Plain ∧
      ¬ Framed sampleHead chunkedIncoming req := by
  obtain ⟨req, accepted⟩ := accepted_of_accepts
    (show accepts sampleHead chunkedIncoming = true by decide +kernel)
  have plain : chunkedIncoming.Plain := by decide
  refine ⟨req, accepted, plain, fun framed => ?_⟩
  have announced := (accepted.received.declared plain).symm.trans framed.declared
  exact absurd announced (by decide)

end Request
