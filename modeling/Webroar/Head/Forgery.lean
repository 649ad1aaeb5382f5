import Webroar.Head.Entries

/-! # The headers a worker finds

The wire format has no escapes: a NUL in a client's value ends the value, and what follows it is
read as headers. Without such a NUL, and with a version that fits its buffer, the worker finds
exactly the entries the head wrote down, and no client header decides what it finds under the
names of the head. With one, the list the worker finds is another.
-/

namespace Request

open Scgi (Entry contentLengthEntry contentLengthName scgiEntry latest frame)

/-- The names the head is responsible for. -/
def headNames : List (List UInt8) :=
  [contentLengthName, reqMethodName, reqUriName, reqPathName, queryStrName, svrPortName,
    httpCliIpName, httpsName, filePathName]

/-- The worker finds one entry for each client header and the entries of the head, and under
the names of the head the values the head wrote. -/
def Intact (head : Head) (incoming : Incoming) (req : Request) : Prop :=
  ∃ parsed, Scgi.parse req.scgi.block = some parsed ∧
    parsed.entries = incoming.entries head ∧
    ∀ name ∈ headNames, parsed.headerValueGet name =
      latest (contentLengthEntry incoming.request.contentLength :: incoming.written head) name

variable {head : Head} {incoming : Incoming} {req : Request}

/-- A client header's name starts with the prefix. -/
theorem ClientHeader.prefix_name (header : ClientHeader) :
    httpPrefix.isPrefixOf header.entry.1 = true := by
  have named : header.entry.1 = httpPrefix.map Scgi.envByte ++
      (header.field.1 :: header.fields.map (·.1)).flatten.map Scgi.envByte := by
    rw [← List.map_append]
    rfl
  have same : httpPrefix.map Scgi.envByte = httpPrefix := by decide
  rw [named, same]
  exact List.isPrefixOf_iff_prefix.mpr (List.prefix_append ..)

/-- What the entries with the host of the URI are named. -/
theorem mem_hostEntries_names {name : List UInt8}
    (member : name ∈ (incoming.hostEntries head).map Prod.fst) :
    httpPrefix.isPrefixOf name = true ∨ name = ascii "SCGI" ∨ name = hiddenHostName := by
  obtain ⟨item, inside, rfl⟩ := List.mem_map.mp member
  rcases mem_hosted inside with (client | ⟨hidden, -⟩) | ⟨host, -⟩
  · rcases List.mem_cons.mp client with rfl | later
    · exact Or.inr (Or.inl rfl)
    · obtain ⟨header, -, rfl⟩ := List.mem_map.mp later
      exact Or.inl header.prefix_name
  · exact Or.inr (Or.inr hidden)
  · rw [host]
    exact Or.inl (by decide)

/-- No client header has a name of the head, nor has the host. -/
theorem headNames_not_mem_hostEntries (incoming : Incoming) (head : Head) {name : List UInt8}
    (listed : name ∈ headNames) : name ∉ (incoming.hostEntries head).map Prod.fst := by
  have other : ∀ name ∈ headNames, ¬ (httpPrefix.isPrefixOf name = true ∨ name = ascii "SCGI" ∨
      name = hiddenHostName) := by decide
  exact fun member => other name listed (mem_hostEntries_names member)

/-- The latest entry of a name of the head is one the head wrote. -/
theorem latest_entries (incoming : Incoming) (head : Head) {name : List UInt8}
    (listed : name ∈ headNames) :
    latest (incoming.entries head) name =
      latest (contentLengthEntry incoming.request.contentLength :: incoming.written head)
        name := by
  have absent := Scgi.latest_of_not_mem (headNames_not_mem_hostEntries incoming head listed)
  have whole : incoming.entries head = [contentLengthEntry incoming.request.contentLength] ++
      (incoming.hostEntries head ++ incoming.written head) := by
    rw [Incoming.entries, incoming.added_eq]
    rfl
  have own : contentLengthEntry incoming.request.contentLength :: incoming.written head =
      [contentLengthEntry incoming.request.contentLength] ++ incoming.written head := rfl
  rw [whole, own, Scgi.latest_append, Scgi.latest_append, Scgi.latest_append, absent,
    Option.or_none]

/-- The head writes one content length. -/
theorem latest_contentLength (incoming : Incoming) (head : Head) :
    latest (incoming.entries head) contentLengthName =
      some (Decimal.format incoming.request.contentLength) := by
  have other : contentLengthName ∉ writtenNames := by decide
  have listed : contentLengthName ∈ headNames := List.mem_cons_self
  rw [latest_entries incoming head listed]
  exact @Scgi.latest_of_split contentLengthName _ [] _ fun member =>
    other ((incoming.written_names head).subset member)

/-- What the worker parses from the block of an accepted plain request. -/
theorem Received.parsed (received : Received head incoming req) (plain : incoming.Plain)
    (rest : List UInt8) :
    ∃ parsed, Scgi.parse (req.scgi.block ++ rest) = some parsed ∧
      parsed.Parsed (incoming.entries head) rest := by
  rw [received.built.block]
  exact Scgi.parse_frame _ rest (received.clean plain) received.short

/-- The block of an accepted request parses back to its entries exactly when the request is
plain: a parsed value never has a NUL. -/
theorem Received.parses_iff (received : Received head incoming req) :
    (∃ parsed, Scgi.parse req.scgi.block = some parsed ∧
      parsed.entries = incoming.entries head) ↔ incoming.Plain := by
  constructor
  · rintro ⟨parsed, found, entries⟩
    apply Incoming.plain_of_values
    intro item member
    rw [← entries] at member
    exact Scgi.parse_plain found member
  · intro plain
    obtain ⟨parsed, found, back⟩ := received.parsed plain []
    rw [List.append_nil] at found
    exact ⟨parsed, found, back.holds.entries⟩

/-- The block of an accepted request is found intact exactly when no client value has a NUL and
the version fits its buffer. -/
theorem intact_iff (accepted : Accepted head incoming req) :
    Intact head incoming req ↔ incoming.Plain := by
  have received := accepted.received
  constructor
  · rintro ⟨parsed, found, entries, -⟩
    exact received.parses_iff.mp ⟨parsed, found, entries⟩
  · intro plain
    obtain ⟨parsed, found, back⟩ := received.parsed plain []
    rw [List.append_nil] at found
    have clean := received.clean plain
    refine ⟨parsed, found, back.holds.entries, fun name listed => ?_⟩
    rw [back.holds.headerValueGet fun item member => (clean item member).2]
    exact latest_entries incoming head listed

/-! ### A request for `/a` -/

/-- A token from its text. -/
def tokenOf (text : String) (visible : ∀ byte ∈ ascii text, isToken byte = true) : Token :=
  ⟨ascii text, visible⟩

/-- A head that finds no static file, at port `3000` for a client at `127.0.0.1`. -/
def sampleHead : Head where
  junk := fun _ => 0
  heap := fun _ => 0
  maxBodySize := 65536
  positive := by decide
  connection := ⟨⟨⟨ascii "3000", by decide⟩, by decide⟩, ⟨⟨ascii "127.0.0.1", by decide⟩, by decide⟩,
    false⟩
  staticFile := fun _ _ => none

theorem noNul_path : (0 : UInt8) ∉ ascii "/a" := by decide

theorem visible_host : ∀ byte ∈ ascii "Host", isToken byte = true := by decide +kernel

theorem visible_x : ∀ byte ∈ ascii "X", isToken byte = true := by decide +kernel

theorem oneLine_h : (13 : UInt8) ∉ ascii "h" := by decide

/-- A `GET` request of version 1.1 for `/a` with a `Host` header and one more header. -/
def sampleIncoming (value : FieldValue) : Incoming where
  line := [.uri ⟨ascii "/a", noNul_path⟩, .path 2]
  headers :=
    [⟨tokenOf "Host" visible_host, [], ⟨ascii "h", oneLine_h⟩, []⟩,
      ⟨tokenOf "X" visible_x, [], value, []⟩]
  request := ⟨.get, .identity, 1, 1, 0⟩
  body := []

/-- Whether a request is accepted. -/
def accepts (head : Head) (incoming : Incoming) : Bool :=
  match run head (new head) incoming.callbacks with
  | some req => req.rejected.isNone
  | none => false

theorem accepted_of_accepts (accepts : accepts head incoming = true) :
    ∃ req, Accepted head incoming req := by
  unfold Request.accepts at accepts
  split at accepts
  · next req ran => exact ⟨req, ran, Option.isNone_iff_eq_none.mp accepts⟩
  · cases accepts

/-- A value that ends early and goes on with a header of the head's. -/
def forgedValue : FieldValue := ⟨ascii "a" ++ 0 :: (ascii "CONTENT_LENGTH" ++ 0 :: ascii "5"), by decide⟩

theorem intact_iff_sample :
    ∃ req, Accepted sampleHead (sampleIncoming ⟨ascii "a", by decide⟩) req ∧
      (Intact sampleHead (sampleIncoming ⟨ascii "a", by decide⟩) req ↔
        (sampleIncoming ⟨ascii "a", by decide⟩).Plain) := by
  obtain ⟨req, accepted⟩ := accepted_of_accepts
    (show accepts sampleHead (sampleIncoming ⟨ascii "a", by decide⟩) = true by decide +kernel)
  exact ⟨req, accepted, intact_iff accepted⟩

/-- The worker takes the content length from the client's value. -/
theorem intact_fails :
    ∃ req, Accepted sampleHead (sampleIncoming forgedValue) req ∧
      ¬ Intact sampleHead (sampleIncoming forgedValue) req ∧
      (sampleIncoming forgedValue).request.contentLength = 0 ∧
      (Scgi.parse req.scgi.block).map (fun parsed =>
        parsed.headerValueGet contentLengthName) = some (some (ascii "5")) := by
  obtain ⟨req, accepted⟩ := accepted_of_accepts
    (show accepts sampleHead (sampleIncoming forgedValue) = true by decide +kernel)
  have block := accepted.received.built.block
  have forged : (Scgi.parse (frame ((sampleIncoming forgedValue).entries sampleHead))).map
      (fun parsed => parsed.headerValueGet contentLengthName) = some (some (ascii "5")) := by
    decide +kernel
  refine ⟨req, accepted, ?_, rfl, by rw [block]; exact forged⟩
  rintro ⟨parsed, found, -, found'⟩
  rw [block] at found
  have written : latest (contentLengthEntry 0 ::
      (sampleIncoming forgedValue).written sampleHead) contentLengthName = some (ascii "0") := by
    decide +kernel
  have looked := found' contentLengthName List.mem_cons_self
  rw [found, Option.map_some, Option.some.injEq, looked] at forged
  exact absurd (written.symm.trans forged) (by decide)

end Request
