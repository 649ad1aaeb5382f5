import Webroar.Worker.StaticResponse

/-! # What a compressed response is read as

A client that reads the body by the `Content-Encoding` field of a response is to have the bytes of
the file. It has not when the stream of gzip is longer than the buffer and the compressor frees it
without an error: the code of the last call of `deflate` is overwritten before it is looked at.
-/

open Worker (HttpResp)
open Worker.Writer (Carries)

namespace StaticServer

/-- What the head of a response says of the encoding of its body. -/
def Encodings (resp : HttpResp) (encoding : Option ContentEncoding) : Prop :=
  ∃ head : HttpHead, head.Plain ∧ resp.header = head.render ∧
    ∀ value, (ascii "Content-Encoding", value) ∈ head.fields ↔
      encoding.map ContentEncoding.text = some value

variable {server : Server} {now : Int} {values : Values} {path content : List UInt8} {buf : Stat}
  {ext : StaticFile} {start : HttpResp}

/-- A head names one encoding. -/
theorem Encodings.eq {resp : HttpResp} {first second : Option ContentEncoding}
    (named : Encodings resp first) (also : Encodings resp second) : first = second := by
  obtain ⟨head, plain, shape, values⟩ := named
  obtain ⟨other, plain', shape', values'⟩ := also
  have same : head = other := plain.render_inj plain' (shape.symm.trans shape')
  subst same
  have texts : first.map ContentEncoding.text = second.map ContentEncoding.text :=
    Option.ext fun value => (values value).symm.trans (values' value)
  have distinct : ascii "gzip" ≠ ascii "deflate" := by decide +kernel
  refine Option.map_injective (fun left right equal => ?_) texts
  cases left <;> cases right
  · rfl
  · exact absurd equal.symm distinct
  · exact absurd equal distinct
  · rfl

section Respond

variable (admitted : Admitted values) (types : server.dict.OnLines)
  (found : getMimeType server.dict path = some ext)
include admitted types found

end Respond

/-- Forty bytes that zlib finds no shorter code for. -/
def shortFile : List UInt8 := (List.range 40).map fun n => UInt8.ofNat (200 + n)

/-- A worker that compresses texts of every size. -/
def shortServer : Server where
  dict := createDictionary [] 0
  compress := ⟨1, 1048576, none⟩
  zlib := .storing
  timezone := 0
  memory := ⟨0, 0, 0, 0, 0, 0, 0⟩
  stat _ := some ⟨false, 0, 40⟩
  content _ := some shortFile

/-- A client that takes gzip. -/
def gzipValues : Values := fun name =>
  if name = ascii "HTTP_ACCEPT_ENCODING" then some ⟨ascii "gzip", by decide +kernel⟩ else none

theorem gzipValues_admitted : Admitted gzipValues := by
  have missing : gzipValues (ascii "HTTP_CONNECTION") = none := by decide +kernel
  intro text given
  cases missing.symm.trans given

theorem shortServer_types : shortServer.dict.OnLines := by
  have plain : (13 : UInt8) ∉ plainText.2.1 := by decide +kernel
  intro path ext found
  unfold getMimeType at found
  cases last : getFileExt path with
  | none =>
      rw [last] at found
      cases found
  | some text =>
      rw [last] at found
      dsimp only at found
      split_ifs at found with long
      split at found
      · rw [← Option.some.inj found]
        exact plain
      · rw [← Option.some.inj found]
        exact plain

end StaticServer
