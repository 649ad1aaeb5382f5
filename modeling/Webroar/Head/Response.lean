import Webroar.Scgi.RoundTrip
import Webroar.Library.Transition

/-! # Reading a worker's response

The head reads a response with two callbacks of `wr_worker.c`. The first collects the SCGI
header block in the request's buffer and parses it after every read; the second passes payload
on to the connection. The state here is the response part of a request together with what is
pending on the data socket, on an event loop that calls back whenever something is pending.

What leaves the callbacks is kept in a log: bytes added to the connection's response, the end of
the request, and an error of the worker. The access log and the idle timer are left out.
-/

namespace Response

/-- The size of the response buffer of a request. -/
def respBufSize : Nat := 1024 * 64

/-- The names the worker's headers have in the configuration. -/
def respCodeName : List UInt8 := ascii "RESP_CODE"

def respContentLenName : List UInt8 := ascii "RESP_CONTENT_LEN"

/-- The callback that is registered for the data socket. -/
inductive Reader where
  | header
  | body
  | stopped
deriving DecidableEq, Repr

/-- What a callback does to the rest of the head. -/
inductive Effect where
  | respBodyAdd (bytes : List UInt8)
  | reqProcessed
  | wkrError
deriving DecidableEq, Repr

namespace Effect

/-- The bytes an effect adds to the connection's response. -/
@[simp] def bytes : Effect → List UInt8
  | respBodyAdd bytes => bytes
  | reqProcessed => []
  | wkrError => []

end Effect

/-- The bytes a log adds to the connection's response. -/
def delivered (log : List Effect) : List UInt8 := log.flatMap Effect.bytes

end Response

open Response in
/-- The response part of a request, the socket it is read from, and what was done so far. -/
structure Response where
  reader : Reader
  respBuf : Block UInt8
  respBufLen : Nat
  respCode : Nat
  respBodyLen : Nat
  bytesReceived : Nat
  connErr : Bool
  pending : List UInt8
  log : List Effect

namespace Response

open Decimal (sizeSub)

/-- The request is done: it is freed and the worker is given back. -/
def wkrReqProcessed (resp : Response) : Response :=
  { resp with reader := .stopped, log := resp.log ++ [.reqProcessed] }

/-- The worker failed. -/
def wkrFailed (resp : Response) : Response :=
  { resp with reader := .stopped, log := resp.log ++ [.wkrError] }

/-- The number a header of an object holds, or zero. -/
def headerNumber (scgi : Scgi) (name : List UInt8) : Int :=
  ((scgi.headerValueGet name).map Decimal.atoi).getD 0

/-- Take the lengths and the code from the parsed block and hand on the body it came with. -/
def wkrSetReq (resp : Response) (scgi : Scgi) : Response × Bool :=
  let resp := { resp with
    respBufLen := Decimal.toSize (headerNumber scgi Scgi.contentLengthName)
    respCode := (headerNumber scgi respCodeName % 2 ^ 16).toNat
    respBodyLen := Decimal.toSize (headerNumber scgi respContentLenName) }
  if resp.respBufLen = 0 then
    (resp.wkrFailed, false)
  else
    let resp := { resp with bytesReceived := scgi.bodyLength }
    if resp.bytesReceived > 0 ∧ resp.connErr = false then
      ({ resp with log := resp.log ++ [.respBodyAdd (scgi.body.getD [])] }, true)
    else
      (resp, true)

/-- Read header bytes behind those counted so far; the count becomes that of this read. -/
def respLenReadCb (available : Nat) (resp : Response) : Response :=
  let limit := respBufSize - resp.bytesReceived
  let read := Stream.recv resp.pending available limit
  if read = [] then
    resp.wkrFailed
  else
    let resp := { resp with
      respBuf := resp.respBuf.write resp.bytesReceived read
      pending := Stream.rest resp.pending available limit
      -- The source writes `=+` here.
      bytesReceived := read.length }
    match Scgi.parse (resp.respBuf.slice 0 resp.bytesReceived) with
    | none => resp
    | some scgi =>
        match wkrSetReq { resp with reader := .stopped } scgi with
        | (resp, false) => resp
        | (resp, true) =>
            if resp.respBufLen = resp.bytesReceived then
              resp.wkrReqProcessed
            else
              { resp with reader := .body }

/-- Read payload and pass it on. -/
def respReadCb (available : Nat) (resp : Response) : Response :=
  let missing := sizeSub resp.respBufLen resp.bytesReceived
  let limit := if respBufSize < missing then respBufSize else missing
  let read := Stream.recv resp.pending available limit
  if read = [] then
    resp.wkrFailed
  else
    let resp := { resp with
      respBuf := resp.respBuf.write 0 read
      pending := Stream.rest resp.pending available limit
      bytesReceived := resp.bytesReceived + read.length
      log := if resp.connErr then resp.log else resp.log ++ [.respBodyAdd read] }
    if resp.respBufLen ≤ resp.bytesReceived then
      resp.wkrReqProcessed
    else
      resp

/-- One readiness event: nothing happens unless bytes are pending and a callback is registered. -/
def event (available : Nat) (resp : Response) : Response :=
  if resp.pending = [] then
    resp
  else
    match resp.reader with
    | .header => respLenReadCb available resp
    | .body => respReadCb available resp
    | .stopped => resp

/-- A request that was sent to its worker and waits for the response, on an open connection. -/
def start (junk : Nat → UInt8) (stream : List UInt8) : Response where
  reader := .header
  respBuf := ⟨respBufSize, junk, false⟩
  respBufLen := 0
  respCode := 0
  respBodyLen := 0
  bytesReceived := 0
  connErr := false
  pending := stream
  log := []

/-- The request after some events, when the n-th finds `grants n` bytes available. -/
def after (junk : Nat → UInt8) (stream : List UInt8) (grants : Nat → Nat) (count : Nat) :
    Response :=
  Machine.after event grants (start junk stream) count

theorem after_succ (junk : Nat → UInt8) (stream : List UInt8) (grants : Nat → Nat) (count : Nat) :
    after junk stream grants (count + 1) =
      event (grants count) (after junk stream grants count) := rfl

/-- The payload is passed on byte for byte, and the request ends exactly once, with the event
that passes on the last byte. -/
def Reassembled (junk : Nat → UInt8) (stream payload : List UInt8) (grants : Nat → Nat) : Prop :=
  ∃ last, ∀ count,
    (count < last → Effect.reqProcessed ∉ (after junk stream grants count).log ∧
      delivered (after junk stream grants count).log ≠ payload) ∧
    (last ≤ count → (after junk stream grants count).log.count .reqProcessed = 1 ∧
      delivered (after junk stream grants count).log = payload)

/-- The number of bytes the first read takes. -/
def firstRead (stream : List UInt8) (grants : Nat → Nat) : Nat :=
  min (min (grants 0) respBufSize) stream.length

/-- The response length the head takes from a list of entries. -/
def declared (items : List Scgi.Entry) : Nat :=
  Decimal.toSize (((Scgi.latest items Scgi.contentLengthName).map Decimal.atoi).getD 0)

/-! ### What one event does -/

@[simp] theorem delivered_append (first second : List Effect) :
    delivered (first ++ second) = delivered first ++ delivered second := by
  simp [delivered]

@[simp] theorem delivered_nil : delivered [] = [] := rfl

@[simp] theorem delivered_cons (effect : Effect) (rest : List Effect) :
    delivered (effect :: rest) = effect.bytes ++ delivered rest := rfl

/-- The bytes passed on and the bytes that still can be. -/
def budget (resp : Response) : Nat := (delivered resp.log).length + resp.pending.length

variable {resp : Response} {available : Nat}

/-- A read with nothing parsed leaves everything but the buffer and the counts. -/
theorem respLenReadCb_none {read : List UInt8}
    (taken : Stream.recv resp.pending available (respBufSize - resp.bytesReceived) = read)
    (some : read ≠ [])
    (open' : Scgi.parse ((resp.respBuf.write resp.bytesReceived read).slice 0 read.length) = none) :
    respLenReadCb available resp =
      { resp with
        respBuf := resp.respBuf.write resp.bytesReceived read
        pending := Stream.rest resp.pending available (respBufSize - resp.bytesReceived)
        bytesReceived := read.length } := by
  unfold respLenReadCb
  simp only [taken, some, ↓reduceIte, open']

/-- What the first callback leaves when the block parses: the declared length is taken, the
body in the buffer is passed on, and the request ends when that was all. -/
structure Accepted (before after : Response) (scgi : Scgi) (length : Nat) : Prop where
  pastHeader : after.reader ≠ .header
  connErr : after.connErr = before.connErr
  refused : length = 0 → after.reader = .stopped ∧ after.log = before.log ++ [.wkrError]
  passed : length ≠ 0 → delivered after.log = delivered before.log ++ scgi.body.getD []
  counts : length ≠ 0 → after.respBufLen = length ∧ after.bytesReceived = scgi.bodyLength
  whole : length ≠ 0 → length = scgi.bodyLength →
    after.reader = .stopped ∧
      after.log.count .reqProcessed = before.log.count .reqProcessed + 1
  partial' : length ≠ 0 → length ≠ scgi.bodyLength →
    after.reader = .body ∧ after.log.count .reqProcessed = before.log.count .reqProcessed

theorem respLenReadCb_some {read : List UInt8} {scgi : Scgi}
    (taken : Stream.recv resp.pending available (respBufSize - resp.bytesReceived) = read)
    (some : read ≠ []) (listening : resp.connErr = false)
    (parsed : Scgi.parse ((resp.respBuf.write resp.bytesReceived read).slice 0 read.length) =
      .some scgi) :
    Accepted resp (respLenReadCb available resp) scgi
        (Decimal.toSize (headerNumber scgi Scgi.contentLengthName)) ∧
      (respLenReadCb available resp).pending =
        Stream.rest resp.pending available (respBufSize - resp.bytesReceived) := by
  have empty : ¬ scgi.bodyLength > 0 → scgi.body.getD [] = [] := fun none =>
    List.eq_nil_of_length_eq_zero (Nat.eq_zero_of_not_pos none)
  unfold respLenReadCb
  simp only [taken, some, ↓reduceIte, parsed, wkrSetReq, listening, and_true]
  generalize Decimal.toSize (headerNumber scgi Scgi.contentLengthName) = length
  by_cases zero : length = 0
  · subst zero
    simp only [↓reduceIte, wkrFailed]
    refine ⟨⟨?_, listening.symm ▸ rfl, fun _ => ⟨rfl, rfl⟩, ?_, ?_, ?_, ?_⟩, trivial⟩
    · exact fun equal => by cases equal
    all_goals exact fun absurd' => absurd rfl absurd'
  · by_cases body : scgi.bodyLength > 0
    · by_cases whole : length = scgi.bodyLength
      · subst whole
        simp only [zero, ↓reduceIte, body, wkrReqProcessed]
        refine ⟨⟨?_, listening.symm ▸ rfl, ?_, ?_, fun _ => ⟨rfl, rfl⟩, ?_, ?_⟩, trivial⟩
        · exact fun equal => by cases equal
        · exact fun none => absurd none (by omega)
        · intro _
          simp
        · intro _ _
          simp
        · exact fun _ differs => absurd rfl differs
      · simp only [zero, ↓reduceIte, body, whole]
        refine ⟨⟨?_, listening.symm ▸ rfl, ?_, ?_, fun _ => ⟨rfl, rfl⟩, ?_, ?_⟩, trivial⟩
        · exact fun equal => by cases equal
        · exact fun none => absurd none zero
        · intro _
          simp
        · exact fun _ same => absurd same whole
        · intro _ _
          simp
    · have short : scgi.bodyLength = 0 := Nat.eq_zero_of_not_pos body
      have whole : ¬ length = scgi.bodyLength := by omega
      simp only [zero, ↓reduceIte, body, whole]
      refine ⟨⟨?_, listening.symm ▸ rfl, ?_, ?_, fun _ => ⟨rfl, rfl⟩, ?_, ?_⟩, trivial⟩
      · exact fun equal => by cases equal
      · exact fun none => absurd none zero
      · intro _
        simp [empty body]
      · exact fun _ same => absurd same whole
      · intro _ _
        exact ⟨rfl, rfl⟩

/-- A read past the header block passes on what it took, no more than is missing, and the
request ends when nothing is missing any more. -/
theorem respReadCb_spec {read : List UInt8} {limit : Nat} (listening : resp.connErr = false)
    (bounded : limit = min respBufSize (sizeSub resp.respBufLen resp.bytesReceived))
    (taken : Stream.recv resp.pending available limit = read) (some : read ≠ []) :
    (respReadCb available resp).connErr = false ∧
      (respReadCb available resp).respBufLen = resp.respBufLen ∧
      (respReadCb available resp).bytesReceived = resp.bytesReceived + read.length ∧
      (respReadCb available resp).pending = Stream.rest resp.pending available limit ∧
      delivered (respReadCb available resp).log = delivered resp.log ++ read ∧
      (if resp.respBufLen ≤ resp.bytesReceived + read.length then
        (respReadCb available resp).reader = .stopped ∧
          (respReadCb available resp).log.count .reqProcessed =
            resp.log.count .reqProcessed + 1
      else
        (respReadCb available resp).reader = resp.reader ∧
          (respReadCb available resp).log.count .reqProcessed =
            resp.log.count .reqProcessed) := by
  have limits : (if respBufSize < sizeSub resp.respBufLen resp.bytesReceived then respBufSize
      else sizeSub resp.respBufLen resp.bytesReceived) = limit := by
    rw [bounded]
    split <;> omega
  unfold respReadCb
  simp only [limits, taken, some, ↓reduceIte, listening, Bool.false_eq_true]
  by_cases whole : resp.respBufLen ≤ resp.bytesReceived + read.length
  · simp only [whole, ↓reduceIte, wkrReqProcessed]
    refine ⟨trivial, trivial, trivial, trivial, ?_, trivial, ?_⟩
    · simp
    · simp
  · simp only [whole, ↓reduceIte]
    refine ⟨trivial, trivial, trivial, trivial, ?_, trivial, ?_⟩
    · simp
    · simp

/-- A read that takes nothing fails the worker. -/
theorem respReadCb_nothing {limit : Nat}
    (bounded : limit = min respBufSize (sizeSub resp.respBufLen resp.bytesReceived))
    (taken : Stream.recv resp.pending available limit = []) :
    respReadCb available resp = resp.wkrFailed := by
  have limits : (if respBufSize < sizeSub resp.respBufLen resp.bytesReceived then respBufSize
      else sizeSub resp.respBufLen resp.bytesReceived) = limit := by
    rw [bounded]
    split <;> omega
  unfold respReadCb
  simp only [limits, taken, ↓reduceIte]

theorem respLenReadCb_nothing
    (taken : Stream.recv resp.pending available (respBufSize - resp.bytesReceived) = []) :
    respLenReadCb available resp = resp.wkrFailed := by
  unfold respLenReadCb
  simp only [taken, ↓reduceIte]

/-- The first callback is not registered again and the budget does not grow. -/
theorem event_past (available : Nat) (listening : resp.connErr = false) (past : resp.reader ≠ .header) :
    (event available resp).reader ≠ .header ∧ (event available resp).connErr = false ∧
      budget (event available resp) ≤ budget resp := by
  unfold event
  split
  · exact ⟨past, listening, Nat.le_refl _⟩
  · cases reader : resp.reader with
    | header => exact absurd reader past
    | stopped => exact ⟨past, listening, Nat.le_refl _⟩
    | body =>
        simp only
        generalize measured :
          min respBufSize (sizeSub resp.respBufLen resp.bytesReceived) = limit
        by_cases nothing : Stream.recv resp.pending available limit = []
        · rw [respReadCb_nothing measured.symm nothing]
          refine ⟨(fun equal => by cases equal), listening, ?_⟩
          simp [budget, wkrFailed]
        · obtain ⟨kept, -, -, rest, passed, ended⟩ :=
            respReadCb_spec listening measured.symm rfl nothing
          refine ⟨?_, kept, ?_⟩
          · split at ended
            · rw [ended.1]
              exact fun equal => by cases equal
            · rw [ended.1, reader]
              exact fun equal => by cases equal
          · have left := Stream.length_rest resp.pending available limit
            have bound := Stream.length_recv resp.pending available limit
            rw [budget, budget, passed, rest, List.length_append, left]
            omega

/-- The first event is a read of the header block. -/
theorem event_start {junk : Nat → UInt8} {stream : List UInt8} (some : stream ≠ []) :
    event available (start junk stream) = respLenReadCb available (start junk stream) := by
  unfold event
  split
  · next empty => exact absurd empty some
  · rfl

/-- Nothing happens any more once no callback is registered. -/
theorem event_stopped (stopped : resp.reader = .stopped) : event available resp = resp := by
  unfold event
  split
  · rfl
  · rw [stopped]

end Response
