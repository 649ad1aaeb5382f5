import Mathlib
import Webroar.Ebb.Grammar

/-! # The parser of libebb

The parser is given the bytes of a connection as they are received and calls back with the pieces of
the requests. A text that is not at its end when the bytes are is passed on up to there, and the
rest of it with the next bytes.
-/

namespace Ebb

/-- `ebb_request`, as far as the parser sets it. -/
structure Request where
  /-- It is not set before the method has been read. -/
  method : Option Method
  transferEncoding : TransferEncoding
  versionMajor : Nat
  versionMinor : Nat
  contentLength : Nat
  keepAlive : Option Bool
  numberOfHeaders : Nat
  bodyRead : Nat
deriving DecidableEq

/-- `ebb_request_init`. -/
def Request.init : Request where
  method := none
  transferEncoding := .identity
  versionMajor := 0
  versionMinor := 0
  contentLength := 0
  keepAlive := none
  numberOfHeaders := 0
  bodyRead := 0

/-- `ebb_request_should_keep_alive`. -/
def Request.shouldKeepAlive (request : Request) : Bool :=
  match request.keepAlive with
  | none =>
      if request.versionMajor = 1 then request.versionMinor ≠ 0
      else if request.versionMajor = 0 then false
      else true
  | some keepAlive => keepAlive

/-- The callbacks. The number of the header counts for the pieces of headers only. -/
inductive Event where
  | newRequest
  | piece (element : Element) (text : List UInt8) (headerIndex : Nat)
  | headersComplete (request : Request)
  | body (text : List UInt8)
  | complete
deriving DecidableEq

/-- What a callback does, and whether the parser still has the request after it: `new_request` may
return none, and any callback may stop reading from the connection. -/
abbrev Callbacks (σ : Type) : Type := σ → Event → σ × Bool

/-- `ebb_request_parser`. Of a text that is marked there are the bytes from the mark on. -/
structure Parser (σ : Type) where
  cs : State
  chunkSize : Nat
  eating : Bool
  currentRequest : Option Request
  marks : Element → Option (List UInt8)
  data : σ

variable {σ : Type}

namespace Parser

/-- `ebb_request_parser_init`. -/
def init (data : σ) : Parser σ where
  cs := .ready
  chunkSize := 0
  eating := false
  currentRequest := none
  marks := fun _ => none
  data := data

/-- A callback, if there is a request. -/
def call (on : Callbacks σ) (event : Request → Event) (parser : Parser σ) : Parser σ :=
  match parser.currentRequest with
  | none => parser
  | some request =>
      { parser with
        data := (on parser.data (event request)).1
        currentRequest := if (on parser.data (event request)).2 then some request else none }

/-- `CALLBACK` and `HEADER_CALLBACK`. -/
def callback (on : Callbacks σ) (element : Element) (parser : Parser σ) : Parser σ :=
  match parser.marks element with
  | none => parser
  | some text => parser.call on fun request => .piece element text request.numberOfHeaders

/-- `END_REQUEST`. -/
def endRequest (on : Callbacks σ) (parser : Parser σ) : Parser σ :=
  { parser.call on fun _ => .complete with currentRequest := none }

def setRequest (f : Request → Request) (parser : Parser σ) : Parser σ :=
  { parser with currentRequest := parser.currentRequest.map f }

def setMark (element : Element) (mark : Option (List UInt8)) (parser : Parser σ) : Parser σ :=
  { parser with marks := Function.update parser.marks element mark }

/-- The parser goes past a byte. -/
def pass (c : UInt8) (parser : Parser σ) : Parser σ :=
  { parser with marks := fun element => (parser.marks element).map (· ++ [c]) }

/-- `skip_body`, for the bytes of the body that are skipped. -/
def skipBody (on : Callbacks σ) (text : List UInt8) (parser : Parser σ) : Parser σ :=
  let parser := if text = [] then parser else parser.call on fun _ => .body text
  let parser := parser.setRequest fun request =>
    { request with bodyRead := request.bodyRead + text.length }
  let parser := { parser with chunkSize := parser.chunkSize - text.length }
  if parser.chunkSize = 0 then
    let parser := { parser with eating := false }
    if parser.currentRequest.any fun request => request.transferEncoding = .identity then
      parser.endRequest on
    else parser
  else { parser with eating := true }

/-- The digit of a decimal number in `w` bits. -/
def addDigit (w : Nat) (c : UInt8) (number : Nat) : Nat := (number * 10 + (c.toNat - 48)) % 2 ^ w

/-- An action at the byte `c`, before the others of the buffer, and how many bytes the parser goes
past. -/
def perform (on : Callbacks σ) (c : UInt8) (rest : List UInt8) (before : Parser σ × Nat) :
    Action → Parser σ × Nat
  | .mark element => (before.1.setMark element (some []), before.2)
  | .write element => ((before.1.callback on element).setMark element none, before.2)
  | .startReq =>
      ({ before.1 with
        data := (on before.1.data .newRequest).1
        currentRequest := if (on before.1.data .newRequest).2 then some .init else none },
        before.2)
  | .method method =>
      (before.1.setRequest fun request => { request with method := some method }, before.2)
  | .versionMajor =>
      (before.1.setRequest fun request =>
        { request with versionMajor := addDigit 32 c request.versionMajor }, before.2)
  | .versionMinor =>
      (before.1.setRequest fun request =>
        { request with versionMinor := addDigit 32 c request.versionMinor }, before.2)
  | .contentLength =>
      (before.1.setRequest fun request =>
        { request with contentLength := addDigit 64 c request.contentLength }, before.2)
  | .useChunkedEncoding =>
      (before.1.setRequest fun request => { request with transferEncoding := .chunked }, before.2)
  | .useIdentityEncoding =>
      (before.1.setRequest fun request => { request with transferEncoding := .identity }, before.2)
  | .setKeepAlive =>
      (before.1.setRequest fun request => { request with keepAlive := some true }, before.2)
  | .setNotKeepAlive =>
      (before.1.setRequest fun request => { request with keepAlive := some false }, before.2)
  | .endHeaderLine =>
      (before.1.setRequest fun request =>
        { request with numberOfHeaders := request.numberOfHeaders + 1 }, before.2)
  | .endHeaders => (before.1.call on .headersComplete, before.2)
  | .bodyLogic =>
      match before.1.currentRequest with
      | none => before
      | some request =>
          match request.transferEncoding with
          | .chunked => ({ before.1 with cs := .chunkStart }, before.2)
          | .identity =>
              let skipped := rest.take request.contentLength
              (skipBody on skipped { before.1 with chunkSize := request.contentLength },
                before.2 + skipped.length)
  | .addToChunkSize =>
      ({ before.1 with chunkSize := (before.1.chunkSize * 16 + unhex c) % 2 ^ 64 }, before.2)
  | .skipChunkData =>
      let skipped := (c :: rest).take before.1.chunkSize
      (skipBody on skipped before.1, skipped.length)
  | .endChunkedBody => (before.1.endRequest on, before.2)

/-- The transition at a byte, and how many bytes the parser goes past. -/
def transition (on : Callbacks σ) (parser : Parser σ) (c : UInt8) (rest : List UInt8) :
    Parser σ × Nat :=
  match next parser.cs c with
  | none => ({ parser with cs := .error }, 0)
  | some (actions, state) =>
      actions.foldl (perform on c rest) ({ parser with cs := state }, 1)

/-- A chunk whose size is zero in 64 bits has no data, and the byte is read again behind it. -/
def advance (on : Callbacks σ) (parser : Parser σ) (c : UInt8) (rest : List UInt8) :
    Parser σ × Nat :=
  let after := parser.transition on c rest
  if after.2 = 0 then after.1.transition on c rest else after

/-- The bytes of a buffer from where the parser is, the first few of which it has gone past. The
error state reads nothing. -/
def resume (on : Callbacks σ) (parser : Parser σ) : Nat → List UInt8 → Parser σ
  | _, [] => parser
  | skipped + 1, c :: rest => resume on (parser.pass c) skipped rest
  | 0, c :: rest =>
      match parser.advance on c rest with
      | (after, 0) => after
      | (after, skipped + 1) => resume on (after.pass c) skipped rest

/-- A text that is marked goes on at the beginning of the buffer. -/
def restart (skipped : List UInt8) (parser : Parser σ) : Parser σ :=
  { parser with marks := fun element => (parser.marks element).map fun _ => skipped }

/-- The texts that are marked are passed on. -/
def callbacks (on : Callbacks σ) (parser : Parser σ) : Parser σ :=
  [Element.headerField, .headerValue, .fragment, .queryString, .path, .uri].foldl
    (fun parser element => parser.callback on element) parser

/-- The bytes at the beginning of a buffer that belong to a body. -/
def eaten (parser : Parser σ) (buffer : List UInt8) : List UInt8 :=
  if 0 < parser.chunkSize ∧ parser.eating then buffer.take parser.chunkSize else []

/-- `ebb_request_parser_execute`. -/
def execute (on : Callbacks σ) (parser : Parser σ) (buffer : List UInt8) : Parser σ :=
  let skipped := parser.eaten buffer
  let parser :=
    if 0 < parser.chunkSize ∧ parser.eating then parser.skipBody on skipped else parser
  ((parser.restart skipped).resume on 0 (buffer.drop skipped.length)).callbacks on

/-- `ebb_request_parser_has_error`. -/
def hasError (parser : Parser σ) : Bool := parser.cs = .error

/-- What is received, one buffer after the other. After an error nothing is read. -/
def receive (on : Callbacks σ) (parser : Parser σ) : List (List UInt8) → Parser σ
  | [] => parser
  | buffer :: rest =>
      if (parser.execute on buffer).hasError then parser.execute on buffer
      else (parser.execute on buffer).receive on rest

end Parser

end Ebb
