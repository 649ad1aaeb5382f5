import Webroar.Head.Forgery
import Webroar.Worker.Receive

/-! # Blocks that are too long for a worker

The head accepts far longer header blocks than the receive buffer of a worker holds. A worker
receives the block of an accepted request exactly when it fits that buffer and says what it was
meant to say; which reads the bytes come in makes no difference.
-/

namespace Request

variable {head : Head} {incoming : Incoming} {req : Request}

/-- A worker receives the block of an accepted request exactly when the request is plain and the
block fits the receive buffer. -/
theorem receives_iff (junk : Nat → UInt8) (rest : List UInt8) {grants : Nat → Nat}
    (accepted : Accepted head incoming req) (arriving : ∀ count, 0 < grants count) :
    HttpReq.Receives junk (req.scgi.block ++ rest) (incoming.entries head) grants ↔
      incoming.Plain ∧ (Scgi.frame (incoming.entries head)).length ≤ HttpReq.bufSize := by
  have received := accepted.received
  rw [← received.parses_iff, received.built.block]
  exact HttpReq.receives_frame_iff received.short arriving

theorem receives_iff_sample :
    ∃ req, Accepted sampleHead (sampleIncoming ⟨ascii "a", by decide⟩) req ∧
      (HttpReq.Receives (fun _ => 0) (req.scgi.block ++ [])
          ((sampleIncoming ⟨ascii "a", by decide⟩).entries sampleHead) (fun _ => 7) ↔
        (sampleIncoming ⟨ascii "a", by decide⟩).Plain ∧
          (Scgi.frame ((sampleIncoming ⟨ascii "a", by decide⟩).entries sampleHead)).length ≤
            HttpReq.bufSize) := by
  obtain ⟨req, accepted⟩ := accepted_of_accepts
    (show accepts sampleHead (sampleIncoming ⟨ascii "a", by decide⟩) = true by decide +kernel)
  exact ⟨req, accepted, receives_iff _ _ accepted fun _ => by decide⟩

/-- A piece of a value: 128 times the letter `a`. -/
def longPiece : FieldValue :=
  ⟨List.replicate 128 97, fun member => absurd (List.eq_of_mem_replicate member) (by decide)⟩

/-- The request for `/a` with a header value of 10368 bytes. -/
def longIncoming : Incoming where
  line := [.uri ⟨ascii "/a", noNul_path⟩, .path 2]
  headers :=
    [⟨tokenOf "Host" visible_host, [], ⟨ascii "h", oneLine_h⟩, []⟩,
      ⟨tokenOf "X" visible_x, [], longPiece, List.replicate 80 longPiece⟩]
  request := ⟨.get, .identity, 1, 1, 0⟩
  body := []

/-- The block of that request does not fit: the worker stops, wherever the reads end. -/
theorem receives_fails :
    ∃ req, Accepted sampleHead longIncoming req ∧ longIncoming.Plain ∧
      ∀ grants : Nat → Nat, (∀ count, 0 < grants count) →
        ¬ HttpReq.Receives (fun _ => 0) (req.scgi.block ++ [])
          (longIncoming.entries sampleHead) grants := by
  obtain ⟨req, accepted⟩ := accepted_of_accepts
    (show accepts sampleHead longIncoming = true by decide +kernel)
  have received := accepted.received
  have long : HttpReq.bufSize < (Scgi.frame (longIncoming.entries sampleHead)).length := by
    decide +kernel
  refine ⟨req, accepted, by decide +kernel, fun grants arriving receives => ?_⟩
  rw [received.built.block] at receives
  have fits := ((HttpReq.receives_frame_iff received.short arriving).mp receives).2
  exact absurd fits (Nat.not_le_of_lt long)

end Request
