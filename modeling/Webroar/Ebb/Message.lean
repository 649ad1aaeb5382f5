import Webroar.Ebb.Parser

/-! # Requests as they are sent

What a client may send: a request line, headers, and a body that is announced by its length or comes
in chunks. Chunk extensions and trailers are left out.
-/

namespace Ebb

/-- A text in which percent signs begin escapes only. -/
def isEscaped (accepts : UInt8 → Bool) : List UInt8 → Bool
  | [] => true
  | c :: rest =>
      if c = 37 then
        match rest with
        | first :: second :: rest => isHex first && isHex second && isEscaped accepts rest
        | _ => false
      else accepts c && isEscaped accepts rest

abbrev EscapedText (accepts : UInt8 → Bool) : Type :=
  { text : List UInt8 // isEscaped accepts text = true }

/-- What a request asks for. -/
inductive Target where
  | asterisk
  | origin (path : EscapedText isPathByte) (query : Option (EscapedText isUriByte))
  | absolute (scheme : { text : List UInt8 // text.all isSchemeByte = true })
      (rest : EscapedText isUriByte)

namespace Target

/-- The path begins with a slash. -/
def path (path : EscapedText isPathByte) : List UInt8 := 47 :: path.1

def uri : Target → List UInt8
  | .asterisk => [42]
  | .origin path none => Target.path path
  | .origin path (some query) => Target.path path ++ 63 :: query.1
  | .absolute scheme rest => scheme.1 ++ 58 :: rest.1

/-- The callbacks for a URI. -/
def events (target : Target) : List Event :=
  match target with
  | .origin path none => [.piece .path (Target.path path) 0, .piece .uri target.uri 0]
  | .origin path (some query) =>
      [.piece .path (Target.path path) 0, .piece .queryString query.1 0, .piece .uri target.uri 0]
  | _ => [.piece .uri target.uri 0]

end Target

abbrev Digits : Type := { text : List UInt8 // text ≠ [] ∧ text.all isDigit = true }

/-- A decimal number in `w` bits. -/
def Digits.number (w : Nat) (digits : Digits) : Nat :=
  digits.1.foldl (fun number c => Parser.addDigit w c number) 0

structure Header where
  name : Token
  named : name.1 ≠ []
  /-- The spaces before the value. -/
  blanks : Nat
  value : FieldValue
  begins : value.1.head? ≠ some 32

namespace Header

def crlf : List UInt8 := [13, 10]

def print (header : Header) : List UInt8 :=
  header.name.1 ++ 58 :: (List.replicate header.blanks 32 ++ (header.value.1 ++ crlf))

def kind (header : Header) : HeaderKind := kindOf (known (header.name.1.map lower))

/-- What a header says about the request. -/
def note (request : Request) (header : Header) : Request :=
  match header.kind with
  | .contentLength =>
      { request with
        contentLength := (header.value.1.takeWhile isDigit).foldl
          (fun number c => Parser.addDigit 64 c number) request.contentLength }
  | .connection =>
      if header.value.1.map lower = keepAliveText then { request with keepAlive := some true }
      else if header.value.1.map lower = closeText then { request with keepAlive := some false }
      else request
  | .transferEncoding =>
      { request with
        transferEncoding := if header.value.1 = identityText then .identity else .chunked }
  | .other => request

def events (header : Header) (index : Nat) : List Event :=
  [.piece .headerField header.name.1 index, .piece .headerValue header.value.1 index]

/-- The callbacks for headers that are numbered from `index` on. -/
def allEvents (index : Nat) : List Header → List Event
  | [] => []
  | header :: rest => header.events index ++ allEvents (index + 1) rest

end Header

/-- The number that hexadecimal digits stand for. -/
def hexNumber (digits : List UInt8) : Nat := digits.foldl (fun number c => number * 16 + unhex c) 0

structure Chunk where
  digits : List UInt8
  hex : digits.all isHex = true
  text : List UInt8
  nonempty : text ≠ []
  size : hexNumber digits = text.length
  short : text.length < 2 ^ 64

def Chunk.print (chunk : Chunk) : List UInt8 :=
  chunk.digits ++ (Header.crlf ++ (chunk.text ++ Header.crlf))

inductive Body where
  | plain (text : List UInt8)
  /-- The last chunk is some zeros, one more than given. -/
  | chunked (chunks : List Chunk) (zeros : Nat)

namespace Body

def print : Body → List UInt8
  | .plain text => text
  | .chunked chunks zeros =>
      chunks.flatMap Chunk.print ++
        (List.replicate (zeros + 1) 48 ++ (Header.crlf ++ Header.crlf))

def events : Body → List Event
  | .plain text => if text = [] then [] else [.body text]
  | .chunked chunks _ => chunks.map fun chunk => .body chunk.text

/-- The body is sent as the headers announce it. -/
def Announced (request : Request) : Body → Prop
  | .plain text => request.transferEncoding = .identity ∧ text.length = request.contentLength
  | .chunked _ _ => request.transferEncoding = .chunked

end Body

/-- What is known of a request when its headers are complete. -/
def requestOf (method : Method) (major minor : Digits) (headers : List Header) : Request :=
  { headers.foldl Header.note
      { Request.init with
        method := some method
        versionMajor := major.number 32
        versionMinor := minor.number 32 } with
    numberOfHeaders := headers.length }

/-- A request as it is sent. -/
structure Message where
  method : Method
  target : Target
  fragment : Option (EscapedText isUriByte)
  major : Digits
  minor : Digits
  headers : List Header
  body : Body
  announced : body.Announced (requestOf method major minor headers)

namespace Message

def request (message : Message) : Request :=
  requestOf message.method message.major message.minor message.headers

def httpText : List UInt8 := ascii "HTTP/"

/-- The request line behind the URI. -/
def printVersion (message : Message) : List UInt8 :=
  32 :: (httpText ++ (message.major.1 ++ 46 :: (message.minor.1 ++ Header.crlf)))

def print (message : Message) : List UInt8 :=
  word message.method ++ 32 :: (message.target.uri ++
    ((message.fragment.map fun fragment => 35 :: fragment.1).getD [] ++ (message.printVersion ++
      (message.headers.flatMap Header.print ++ (Header.crlf ++ message.body.print)))))

/-- The callbacks for a request that is received in one piece. -/
def events (message : Message) : List Event :=
  .newRequest :: (message.target.events ++
    ((message.fragment.map fun fragment => .piece .fragment fragment.1 0).toList ++
      (Header.allEvents 0 message.headers ++
        (.headersComplete message.request :: (message.body.events ++ [.complete])))))

end Message

end Ebb
