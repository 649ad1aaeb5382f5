import Webroar.Scgi.RoundTrip

/-! # A request in the head

The head is called back by libebb with the pieces of an HTTP request and takes them down in an
SCGI object: client headers as they come, and, once the headers are complete, the headers it
adds itself. A callback that breaks a limit rejects the request, and no callback is made after
that. What libebb guarantees of the text it passes is part of the argument types.
-/

/-- Text without NUL. -/
abbrev Text := { bytes : List UInt8 // (0 : UInt8) ∉ bytes }

theorem noNul_nil : (0 : UInt8) ∉ ([] : List UInt8) :=
  List.not_mem_nil

def Text.append (first second : Text) : Text :=
  ⟨first.1 ++ second.1, fun member =>
    (List.mem_append.mp member).elim first.2 second.2⟩

/-- The bytes a header name is made of: visible ASCII without the separators. -/
def isToken (byte : UInt8) : Bool :=
  32 < byte && byte < 127 && byte ∉ ascii "()<>@,;:\\\"/[]?=\x7b\x7d"

/-- A piece of a header name. -/
abbrev Token := { bytes : List UInt8 // ∀ byte ∈ bytes, isToken byte = true }

/-- A piece of a header value: any bytes but CR. -/
abbrev FieldValue := { bytes : List UInt8 // (13 : UInt8) ∉ bytes }

/-- The position of the first occurrence of `needle` in `text`. -/
def strstr (text needle : List UInt8) : Option Nat :=
  match text with
  | [] => if needle = [] then some 0 else none
  | byte :: rest =>
      if needle.isPrefixOf (byte :: rest) then some 0 else (strstr rest needle).map (· + 1)

/-- The methods libebb knows. -/
inductive Method where
  | copy | delete | get | head | lock | mkcol | move | options | post | propfind | proppatch
  | put | trace | unlock
deriving DecidableEq, Repr

namespace Method

/-- The text that goes into `REQUEST_METHOD`; there is none for `OPTIONS`. -/
def text : Method → Option (List UInt8)
  | copy => some (ascii "COPY")
  | delete => some (ascii "DELETE")
  | get => some (ascii "GET")
  | head => some (ascii "HEAD")
  | lock => some (ascii "LOCK")
  | mkcol => some (ascii "MKCOL")
  | move => some (ascii "MOVE")
  | options => none
  | post => some (ascii "POST")
  | propfind => some (ascii "PROPFIND")
  | proppatch => some (ascii "PROPPATCH")
  | put => some (ascii "PUT")
  | trace => some (ascii "TRACE")
  | unlock => some (ascii "UNLOCK")

end Method

inductive TransferEncoding where
  | identity
  | chunked
deriving DecidableEq, Repr

/-- What libebb knows about a request when its headers are complete. -/
structure EbbRequest where
  method : Method
  transferEncoding : TransferEncoding
  versionMajor : Nat
  versionMinor : Nat
  contentLength : Nat

/-- The connection a request comes in on. -/
structure Connection where
  port : { text : Text // text.1.length ≤ 5 }
  ip : { text : Text // text.1.length ≤ 15 }
  /-- Whether it came in on the TLS port. -/
  secure : Bool

/-- The path of a static file, as it fits into the buffer it is printed to. -/
abbrev FilePath := { text : Text // text.1.length < 2048 }

namespace Config

/-! The limits on a request; only the limit on a body in memory can be configured. -/

def maxUriSize : Nat := 12288
def maxPathSize : Nat := 1024
def maxFragSize : Nat := 1024
def maxQuerySize : Nat := 1024
def maxFieldSize : Nat := 256
def maxValueSize : Nat := 81920
def maxHeaderSize : Nat := 112640
def maxHeaderCount : Nat := 40

end Config

namespace Request

/-- The names of the headers the head adds. -/
def hostName : List UInt8 := ascii "HTTP_HOST"
def hiddenHostName : List UInt8 := ascii "TTTP_HOST"
def reqUriName : List UInt8 := ascii "REQUEST_URI"
def reqPathName : List UInt8 := ascii "REQUEST_PATH"
def queryStrName : List UInt8 := ascii "QUERY_STRING"
def fragmentName : List UInt8 := ascii "FRAGMENT"
def httpsName : List UInt8 := ascii "HTTPS"
def chunkedName : List UInt8 := ascii "CHUNKED"
def reqMethodName : List UInt8 := ascii "REQUEST_METHOD"
def svrPortName : List UInt8 := ascii "SERVER_PORT"
def httpCliIpName : List UInt8 := ascii "REMOTE_ADDR"
def httpVerName : List UInt8 := ascii "HTTP_VERSION"
def filePathName : List UInt8 := ascii "FILE_PATH"

/-- The prefix of every client header name. -/
def httpPrefix : List UInt8 := ascii "HTTP_"

/-- A rejection: the status and the message. -/
abbrev Rejection := Nat × List UInt8

/-- A piece of the URI: where it starts, unless that is NULL, and its length. -/
structure Span where
  str : Option Nat
  len : Nat

/-- What is known from the request line. -/
structure Line where
  uri : Text
  /-- The length that is passed on for the URI. -/
  uriLen : Nat
  path : Span
  query : Span
  fragment : Option Text

namespace Line

/-- The text of a piece of the URI; none where the source would read outside of it. -/
def read (line : Line) (str : Option Nat) (len : Nat) : Option (List UInt8) :=
  match str with
  | none => if len = 0 then some [] else none
  | some start =>
      if start + len ≤ line.uri.1.length then some ((line.uri.1.drop start).take len) else none

/-- The header with a piece of the URI, unless the piece is NULL. -/
def header (line : Line) (name : List UInt8) (span : Span) : Option (List Scgi.Entry) :=
  match span.str with
  | none => some []
  | some start => (line.read (some start) span.len).map fun text => [(name, text)]

/-- The headers that are made from the request line. -/
def headers (line : Line) : Option (List Scgi.Entry) :=
  (line.read line.path.str line.uriLen).bind fun uri =>
    (line.header reqPathName line.path).bind fun path =>
      (line.header queryStrName line.query).map fun query =>
        (reqUriName, uri) :: (path ++ query ++
          (line.fragment.map fun fragment => (fragmentName, fragment.1)).toList)

/-- The URI's length as it is passed on: that of the path and the query string. -/
def shorten (line : Line) : Line :=
  { line with uriLen := line.path.len + if line.query.len ≠ 0 then line.query.len + 1 else 0 }

/-- Find query string, path and host of a URI for which libebb reported no path. -/
def absolute (line : Line) : Except Rejection (Line × Option (List UInt8)) :=
  let uri := line.uri.1
  let query : Span :=
    match strstr uri (ascii "?") with
    | some start => ⟨some (start + 1), line.uriLen - (start + 1)⟩
    | none => ⟨none, line.query.len⟩
  let line := { line with query := query }
  if Config.maxQuerySize < query.len then
    .error (413, ascii "The request query string is too large.")
  else
    match strstr uri (ascii "://") with
    | none => .ok (line.shorten, none)
    | some start =>
        let ptr := start + 3
        match strstr (uri.drop ptr) (ascii "/") with
        | some offset =>
            let str := ptr + offset
            let len :=
              match query.str with
              | some queryStr => Decimal.sizeSub queryStr (str + 1)
              | none => line.uriLen - str
            if Config.maxPathSize < len then
              .error (413, ascii "The request path is too large.")
            else
              .ok ({ line with path := ⟨some str, len⟩ }.shorten,
                some ((uri.drop ptr).take offset))
        | none => .ok (line.shorten, some (uri.drop ptr))

end Line

end Request

open Request in
/-- What a request meets in the head. -/
structure Head where
  /-- What fresh memory contains. -/
  junk : Nat → UInt8
  /-- What lies behind a buffer that is read past its end. -/
  heap : Nat → UInt8
  maxBodySize : Nat
  positive : 0 < maxBodySize
  connection : Connection
  /-- The static file the resolver finds for a request line and the headers so far. -/
  staticFile : Line → List Scgi.Entry → Option FilePath

open Request in
/-- A request that is being received. -/
structure Request where
  line : Line
  scgi : Scgi
  uploadFile : Option (List UInt8)
  /-- The rejection, after which there are no callbacks. -/
  rejected : Option Rejection

namespace Request

variable (head : Head)

def new : Request where
  line := ⟨⟨[], List.not_mem_nil⟩, 0, ⟨none, 0⟩, ⟨none, 0⟩, none⟩
  scgi := Scgi.new head.junk
  uploadFile := none
  rejected := none

/-- Reject the request and disable its callbacks. -/
def invalid (req : Request) (rejection : Rejection) : Request :=
  { req with rejected := some rejection }

/-- A piece of the request's path; only its length is used. -/
def pathCb (length : Nat) (req : Request) : Request :=
  let path := { req.line.path with len := req.line.path.len + length }
  let req := { req with line := { req.line with path := path } }
  if Config.maxPathSize < path.len then
    req.invalid (413, ascii "The request path is too large.")
  else
    req

/-- A piece of the query string; only its length is used. -/
def queryStringCb (length : Nat) (req : Request) : Request :=
  let query := { req.line.query with len := req.line.query.len + length }
  let req := { req with line := { req.line with query := query } }
  if Config.maxQuerySize < query.len then
    req.invalid (413, ascii "The request query string is too large.")
  else
    req

/-- A piece of the request URI. -/
def uriCb (text : Text) (req : Request) : Request :=
  if Config.maxUriSize < req.line.uriLen + text.1.length then
    req.invalid (414, ascii "The request URI is too large.")
  else
    { req with line := { req.line with
        uri := Text.append req.line.uri text
        uriLen := req.line.uriLen + text.1.length } }

/-- A piece of the fragment. -/
def fragmentCb (text : Text) (req : Request) : Request :=
  if Config.maxFragSize < ((req.line.fragment.map fun old => old.1.length).getD 0) +
      text.1.length then
    req.invalid (413, ascii "The request fragment is too large.")
  else
    { req with line := { req.line with
        fragment := some ((req.line.fragment.map fun old => Text.append old text).getD text) } }

/-- Check the limits for a piece of a header name and start a header with its prefix. -/
def headerLengthCheck (length : Nat) (index : Nat) (req : Request) : Request :=
  let recorded := (req.scgi.headerList.head?.map ScgiHeader.fieldLength).getD 0
  if Config.maxHeaderCount ≤ index then
    req.invalid (413, ascii "The number of request header is too large.")
  else if req.scgi.index = index ∧ Config.maxFieldSize < recorded + length then
    req.invalid (413, ascii "The request field name is too large.")
  else if req.scgi.index ≠ index ∧ Config.maxFieldSize < length + 5 then
    req.invalid (413, ascii "The request field name is too large.")
  else
    let scgi :=
      if req.scgi.index = index then req.scgi
      else req.scgi.call (.headerFieldAdd httpPrefix index)
    if Config.maxHeaderSize < scgi.headerOffset + length then
      { req with scgi := scgi }.invalid (413, ascii "The request is too large.")
    else
      { req with scgi := scgi }

/-- A piece of a header name. -/
def headerFieldCb (text : Token) (index : Nat) (req : Request) : Request :=
  let req := req.headerLengthCheck text.1.length index
  if req.rejected.isSome then
    req
  else
    { req with scgi := req.scgi.call (.headerFieldAdd text.1 index) }

/-- Check the limits for a piece of a header value. -/
def headerValueCheck (length : Nat) (index : Nat) (req : Request) : Request :=
  let recorded := (req.scgi.headerList.head?.map ScgiHeader.valueLength).getD 0
  if req.scgi.index = index ∧ Config.maxValueSize < recorded + length then
    req.invalid (413, ascii "The request field value is too large.")
  else if req.scgi.index ≠ index ∧ Config.maxValueSize < length then
    req.invalid (413, ascii "The request field value is too large.")
  else if Config.maxHeaderSize < req.scgi.headerOffset + length then
    req.invalid (413, ascii "The request is too large.")
  else
    req

/-- A piece of a header value. -/
def headerValueCb (text : FieldValue) (index : Nat) (req : Request) : Request :=
  let req := req.headerValueCheck text.1.length index
  if req.rejected.isSome then
    req
  else
    { req with scgi := req.scgi.call (.headerValueAdd text.1 index) }

/-- Hide the host header of the client and add the host of the URI. -/
def hostSet (scgi : Scgi) (host : List UInt8) : Scgi :=
  let scgi :=
    match scgi.headerGet hostName with
    | some header => { scgi with header := scgi.header.write header.fieldOffset [84] }
    | none => scgi
  scgi.headerAdd hostName host

/-- Find path, query string and host. -/
def pathSet (req : Request) : Request :=
  let line := req.line
  if line.path.len ≠ 0 then
    if req.scgi.headerValueGet hostName = none then
      req.invalid (400, ascii "The request host is missing.")
    else
      { req with line := { line with
          path := { line.path with str := some 0 }
          query := if line.query.len ≠ 0 then ⟨some (line.path.len + 1), line.query.len⟩
            else line.query } }
  else if line.uriLen ≠ 0 then
    match line.absolute with
    | .error rejection => req.invalid rejection
    | .ok (line, some host) => { req with line := line, scgi := hostSet req.scgi host }
    | .ok (line, none) => { req with line := line }
  else
    req

/-- The version as it is printed. -/
def versionPrinted (request : EbbRequest) : List UInt8 :=
  ascii "HTTP/" ++ Decimal.format request.versionMajor ++ ascii "." ++
    Decimal.format request.versionMinor

/-- The version as it is read from the 16 bytes it is printed to: what does not fit is cut off,
and the value goes on behind the buffer. -/
def versionText (request : EbbRequest) : List UInt8 :=
  let text := versionPrinted request
  if text.length < 16 then
    text
  else
    text.take 15 ++ 0 :: (List.range (text.length - 16)).map head.heap

/-- The headers that follow those of the request line: before the content length is set. -/
def secureHeaders : List Scgi.Entry :=
  if head.connection.secure then [(httpsName, ascii "on")] else []

/-- The headers added behind the content length. -/
def connectionHeaders (request : EbbRequest) (method : List UInt8) : List Scgi.Entry :=
  [(reqMethodName, method), (svrPortName, head.connection.port.1.1),
    (httpCliIpName, head.connection.ip.1.1), (httpVerName, versionText head request)]

def chunkedHeader (request : EbbRequest) : Scgi.Entry :=
  match request.transferEncoding with
  | .chunked => (chunkedName, ascii "Yes")
  | .identity => (chunkedName, ascii "No")

/-- Add whole headers one after the other. -/
def headersAdd (scgi : Scgi) (entries : List Scgi.Entry) : Scgi :=
  entries.foldl (fun scgi entry => scgi.headerAdd entry.1 entry.2) scgi

/-- The header that names a static file. -/
def fileHeader (file : Option FilePath) : List Scgi.Entry :=
  (file.map fun file => (filePathName, file.1.1)).toList

/-- Find the application; when the request is for a static file its path is added. -/
def resolveHttpReq (req : Request) : Request :=
  { req with
    scgi := headersAdd req.scgi (fileHeader (head.staticFile req.line req.scgi.entries)) }

/-- The headers are complete: add those of the head and find the application. -/
def headersCompleteCb (request : EbbRequest) (req : Request) : Option Request :=
  let req := req.pathSet
  if req.rejected.isSome then
    some req
  else
    req.line.headers.map fun headers =>
      let scgi := headersAdd (headersAdd req.scgi headers) (secureHeaders head)
      let scgi := scgi.contentLengthAdd request.contentLength
      let scgi := headersAdd scgi [chunkedHeader request]
      match request.method.text with
      | none => { req with scgi := scgi }.invalid (501, [])
      | some method =>
          resolveHttpReq head { req with
            scgi := headersAdd scgi (connectionHeaders head request method)
            uploadFile := if head.maxBodySize < request.contentLength then some [] else none }

/-- A piece of the body goes to the upload file or into the object. -/
def bodyCb (text : List UInt8) (req : Request) : Request :=
  if text.length > 0 then
    match req.uploadFile with
    | some file => { req with uploadFile := some (file ++ text) }
    | none => { req with scgi := req.scgi.bodyAdd text }
  else
    req

/-- The request is complete. -/
def completeCb (req : Request) : Request := { req with scgi := req.scgi.build }

/-- The callbacks libebb makes for the pieces of a request line. -/
inductive LinePiece where
  | path (length : Nat)
  | queryString (length : Nat)
  | uri (text : Text)
  | fragment (text : Text)

def lineCb (req : Request) : LinePiece → Request
  | .path length => req.pathCb length
  | .queryString length => req.queryStringCb length
  | .uri text => req.uriCb text
  | .fragment text => req.fragmentCb text

/-- The callbacks libebb makes for a request. -/
inductive Callback where
  | line (piece : LinePiece)
  | headerField (text : Token) (index : Nat)
  | headerValue (text : FieldValue) (index : Nat)
  | headersComplete (request : EbbRequest)
  | body (text : List UInt8)
  | complete

/-- One callback; none where the source reads outside the URI. -/
def step (req : Request) (callback : Callback) : Option Request :=
  if req.rejected.isSome then
    some req
  else
    match callback with
    | .line piece => some (req.lineCb piece)
    | .headerField text index => some (req.headerFieldCb text index)
    | .headerValue text index => some (req.headerValueCb text index)
    | .headersComplete request => headersCompleteCb head request req
    | .body text => some (req.bodyCb text)
    | .complete => some req.completeCb

/-- Callbacks one after the other. -/
def run (req : Request) (callbacks : List Callback) : Option Request :=
  callbacks.foldlM (step head) req

end Request
