import Webroar.Library.Transition
import Webroar.Scgi.Parser

/-! # A request in a worker

A worker collects the header block of a request in a buffer of fixed size, finds its length in
front of the colon, and parses it when all of it has come. What is behind the block is the
start of the body; the rest of the body is read into the buffer, or into a file when both do
not fit.

A callback is called while bytes are pending and it is registered. `recv` takes what is
available up to its limit, so with a limit of zero it takes nothing, which the callbacks take
for the end of the connection. The connection is open here.
-/

namespace HttpReq

/-- The size of the receive buffer. -/
def bufSize : Nat := 10240

/-- The callback that is registered for the socket. -/
inductive Reader where
  | header
  | body
  | stopped
deriving DecidableEq, Repr

/-- What the callbacks do besides reading. -/
inductive Effect where
  /-- The request is processed; its body is what can be read from it. -/
  | process (body : List UInt8)
  /-- The peer is taken to be closing and the worker stops. -/
  | sigproc
  /-- A header that is missing is read. -/
  | fault
deriving DecidableEq, Repr

end HttpReq

open HttpReq in
/-- The request of a worker, the socket it is read from, and what was done so far. -/
structure HttpReq where
  buf : Block UInt8
  bytesRead : Nat
  scgi : Option Scgi
  file : Option (List UInt8)
  scgiHeaderLen : Nat
  reqLen : Nat
  reader : Reader
  pending : List UInt8
  log : List Effect

namespace HttpReq

open Decimal (sizeSub)

/-- The body that can be read from a request: that of the file, or of the buffer. -/
def content (req : HttpReq) : List UInt8 :=
  match req.file with
  | some file => file
  | none => req.buf.slice req.scgiHeaderLen req.reqLen

/-- Hand the request over to the application. -/
def httpReqProcess (req : HttpReq) : HttpReq :=
  { req with bytesRead := 0, reader := .stopped, log := req.log ++ [.process req.content] }

/-- The peer seems to be closing. -/
def peerClosing (req : HttpReq) : HttpReq :=
  { req with reader := .stopped, log := req.log ++ [.sigproc] }

/-- The length of the header block, once the colon behind its number has come. -/
def headerLength (req : HttpReq) : Option Nat :=
  if req.scgiHeaderLen ≠ 0 then
    some req.scgiHeaderLen
  else
    let text := req.buf.slice 0 req.bytesRead
    let i := text.findIdx (· = 58)
    if req.bytesRead ≤ i then
      none
    else
      some (Decimal.toSize (Decimal.toInt32 (Decimal.atoi text + i + 2)))

/-- Parse a header block that has come. -/
def parseBlock (req : HttpReq) : HttpReq :=
  let req := { req with reader := .stopped }
  if req.buf.cell (req.scgiHeaderLen - 1) ≠ 44 then
    req
  else
    match Scgi.parse (req.buf.slice 0 req.scgiHeaderLen) with
    | none => req
    | some scgi =>
        match scgi.headerValueGet Scgi.contentLengthName with
        | none => { req with scgi := some scgi, log := req.log ++ [.fault] }
        | some value =>
            let req := { req with
              scgi := some scgi
              reqLen := Decimal.toSize (Decimal.atoi value)
              bytesRead := req.bytesRead - req.scgiHeaderLen }
            if req.bytesRead = req.reqLen then
              req.httpReqProcess
            else
              { req with
                file := if bufSize < (req.reqLen + req.scgiHeaderLen) % 2 ^ 64 then
                    some (req.buf.slice req.scgiHeaderLen req.bytesRead)
                  else
                    none
                reader := .body }

/-- Parse the bytes received so far. -/
def parserReqBuf (req : HttpReq) : HttpReq :=
  match req.headerLength with
  | none => req
  | some length =>
      if length ≤ req.bytesRead then
        { req with scgiHeaderLen := length }.parseBlock
      else
        { req with scgiHeaderLen := length }

/-- The length the next call of `recv` asks for; none when no callback is registered. -/
def recvLimit (req : HttpReq) : Option Nat :=
  match req.reader, req.file with
  | .header, _ => some (bufSize - req.bytesRead)
  | .body, none => some (sizeSub req.reqLen req.bytesRead)
  | .body, some _ => some (min (sizeSub req.reqLen req.bytesRead) bufSize)
  | .stopped, _ => none

/-- Read bytes of the header block. -/
def httpReqHeaderCb (available : Nat) (req : HttpReq) : HttpReq :=
  let limit := bufSize - req.bytesRead
  let read := Stream.recv req.pending available limit
  if read = [] then
    req.peerClosing
  else
    { req with
      buf := req.buf.write req.bytesRead read
      pending := Stream.rest req.pending available limit
      bytesRead := req.bytesRead + read.length }.parserReqBuf

/-- Read bytes of the body into the buffer. -/
def httpReqBodyReadInBuff (available : Nat) (req : HttpReq) : HttpReq :=
  let limit := sizeSub req.reqLen req.bytesRead
  let read := Stream.recv req.pending available limit
  if read = [] then
    req.peerClosing
  else
    let req := { req with
      buf := req.buf.write (req.scgiHeaderLen + req.bytesRead) read
      pending := Stream.rest req.pending available limit
      bytesRead := (req.bytesRead + read.length) % 2 ^ 64 }
    if req.bytesRead = req.reqLen then
      req.httpReqProcess
    else
      req

/-- Read bytes of the body into the file. -/
def httpReqBodyReadInFile (available : Nat) (file : List UInt8) (req : HttpReq) : HttpReq :=
  let limit := min (sizeSub req.reqLen req.bytesRead) bufSize
  let read := Stream.recv req.pending available limit
  let req := { req with
    file := some (file ++ read)
    pending := Stream.rest req.pending available limit
    bytesRead := (req.bytesRead + read.length) % 2 ^ 64 }
  if req.bytesRead = req.reqLen then
    req.httpReqProcess
  else
    req

/-- Read bytes of the body. -/
def httpReqBodyCb (available : Nat) (req : HttpReq) : HttpReq :=
  match req.file with
  | none => req.httpReqBodyReadInBuff available
  | some file => req.httpReqBodyReadInFile available file

/-- One readiness event: nothing happens unless bytes are pending and a callback is registered. -/
def event (available : Nat) (req : HttpReq) : HttpReq :=
  if req.pending = [] then
    req
  else
    match req.reader with
    | .header => req.httpReqHeaderCb available
    | .body => req.httpReqBodyCb available
    | .stopped => req

/-- A worker that waits for a request, before the bytes of a stream. -/
def start (junk : Nat → UInt8) (stream : List UInt8) : HttpReq where
  buf := ⟨bufSize, junk, false⟩
  bytesRead := 0
  scgi := none
  file := none
  scgiHeaderLen := 0
  reqLen := 0
  reader := .header
  pending := stream
  log := []

/-- The request after some events, when the n-th finds `grants n` bytes available. -/
def after (junk : Nat → UInt8) (stream : List UInt8) (grants : Nat → Nat) (count : Nat) :
    HttpReq :=
  Machine.after event grants (start junk stream) count

/-- The worker parses the whole block into some entries, and in no state does it ask `recv` for
nothing or take the connection to be closed. -/
def Receives (junk : Nat → UInt8) (stream : List UInt8) (items : List Scgi.Entry)
    (grants : Nat → Nat) : Prop :=
  (∃ last, ∀ count, last ≤ count → ∃ scgi, (after junk stream grants count).scgi = some scgi ∧
    scgi.entries = items) ∧
  ∀ count, (after junk stream grants count).recvLimit ≠ some 0 ∧
    Effect.sigproc ∉ (after junk stream grants count).log

end HttpReq
