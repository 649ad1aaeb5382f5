import Mathlib.Data.List.Nodup
import Webroar.Worker.Writer

/-! # Answering a request

What an application returns is a status, a hash of headers and a body; when it raises, an error page
takes the place of them. The handler works out the length of the body, writes the header block and
then the body, piece by piece, into the response of the worker. It signals the end of a response
without a body from `writeHeaders`, and that of any other from `writeBody`; what raises in between
ends it early.

Strings are their bytes. A number that no `int` holds raises where it is handed to C.
-/

namespace Worker

open Decimal (isDigit isSpace)

/-! ### Strings and numbers -/

/-- The digits behind the first one; an underscore may stand between two of them. -/
def readInteger (acc : Nat) : List UInt8 → Nat
  | [] => acc
  | 95 :: byte :: rest =>
      if isDigit byte then readInteger (10 * acc + (byte.toNat - 48)) rest else acc
  | byte :: rest =>
      if isDigit byte then readInteger (10 * acc + (byte.toNat - 48)) rest else acc

/-- The number a text begins with, and 0 when it begins with none. -/
def readNatural : List UInt8 → Nat
  | [] => 0
  | byte :: rest => if isDigit byte then readInteger (byte.toNat - 48) rest else 0

/-- The same, behind the mark of a decimal number. -/
def readMarked : List UInt8 → Nat
  | 48 :: 100 :: rest => readNatural rest
  | 48 :: 68 :: rest => readNatural rest
  | text => readNatural text

/-- `String#to_i`. -/
def toI (text : List UInt8) : Int :=
  match text.dropWhile isSpace with
  | 45 :: rest => -(readMarked rest : Int)
  | 43 :: rest => readMarked rest
  | rest => readMarked rest

/-- `String#each_line`: the lines with their ends. -/
def eachLine : List UInt8 → List (List UInt8)
  | [] => []
  | 10 :: rest => [10] :: eachLine rest
  | byte :: rest =>
      match eachLine rest with
      | [] => [[byte]]
      | line :: lines => (byte :: line) :: lines

/-- `String#chomp`. -/
def chomp (line : List UInt8) : List UInt8 :=
  match line.reverse with
  | 10 :: 13 :: rest => rest.reverse
  | 10 :: rest => rest.reverse
  | 13 :: rest => rest.reverse
  | _ => line

/-- A byte of a word. -/
def isWord (byte : UInt8) : Bool :=
  isDigit byte || byte = 95 || (65 ≤ byte && byte ≤ 90) || (97 ≤ byte && byte ≤ 122)

def downcase (byte : UInt8) : UInt8 := if 65 ≤ byte && byte ≤ 90 then byte + 32 else byte

/-- A text holds a word, in any case; `inside` says that a byte of a word stands in front of it. -/
def holdsWord (word : List UInt8) (inside : Bool) : List UInt8 → Bool
  | [] => false
  | byte :: rest =>
      (!inside && ((byte :: rest).take word.length).map downcase = word &&
          !(((byte :: rest).drop word.length).head?.any isWord)) ||
        holdsWord word (isWord byte) rest

def crlf : List UInt8 := [13, 10]

/-! ### Headers -/

/-- The value of a header: a string, or something that yields strings. -/
inductive Values where
  | string (text : List UInt8)
  | each (texts : List (List UInt8))
deriving DecidableEq, Repr

/-- A hash of headers, in the order in which it is iterated. -/
structure Headers where
  pairs : List (List UInt8 × Values)
  distinct : (pairs.map Prod.fst).Nodup

namespace Headers

def get (headers : Headers) (field : List UInt8) : Option Values :=
  (headers.pairs.find? fun pair => pair.1 = field).map Prod.snd

/-- The pairs of a hash after a field is set. -/
def setPairs (pairs : List (List UInt8 × Values)) (field : List UInt8) (values : Values) :
    List (List UInt8 × Values) :=
  match pairs with
  | [] => [(field, values)]
  | pair :: pairs =>
      if pair.1 = field then (field, values) :: pairs else pair :: setPairs pairs field values

theorem mem_setPairs {pairs : List (List UInt8 × Values)} {field name : List UInt8}
    {values : Values} (member : name ∈ (setPairs pairs field values).map Prod.fst) :
    name = field ∨ name ∈ pairs.map Prod.fst := by
  induction pairs with
  | nil => exact Or.inl (List.mem_singleton.mp member)
  | cons pair pairs ih =>
      rw [setPairs] at member
      split at member
      · next same =>
          rcases List.mem_cons.mp member with first | later
          · exact Or.inl first
          · exact Or.inr (List.mem_cons_of_mem _ later)
      · rcases List.mem_cons.mp member with first | later
        · exact Or.inr (first ▸ List.mem_cons_self)
        · exact (ih later).imp_right (List.mem_cons_of_mem _)

theorem nodup_setPairs {pairs : List (List UInt8 × Values)} (field : List UInt8) (values : Values)
    (distinct : (pairs.map Prod.fst).Nodup) :
    ((setPairs pairs field values).map Prod.fst).Nodup := by
  induction pairs with
  | nil => exact List.nodup_singleton field
  | cons pair pairs ih =>
      obtain ⟨fresh, distinct⟩ := List.nodup_cons.mp distinct
      rw [setPairs]
      split
      · next same => exact List.nodup_cons.mpr ⟨same ▸ fresh, distinct⟩
      · next other =>
          refine List.nodup_cons.mpr ⟨fun member => ?_, ih distinct⟩
          rcases mem_setPairs member with same | old
          · exact other same
          · exact fresh old

/-- Set a field: in its place when it is there, else at the end. -/
def set (headers : Headers) (field : List UInt8) (values : Values) : Headers where
  pairs := setPairs headers.pairs field values
  distinct := nodup_setPairs field values headers.distinct

end Headers

def contentType : List UInt8 := ascii "Content-Type"
def contentLength : List UInt8 := ascii "Content-Length"
def transferEncoding : List UInt8 := ascii "Transfer-Encoding"
def connection : List UInt8 := ascii "Connection"
def serverField : List UInt8 := ascii "Server"
def chunkedWord : List UInt8 := ascii "chunked"
def keepAliveValue : List UInt8 := ascii "Keep-Alive"
def closeValue : List UInt8 := ascii "close"
def serverValue : List UInt8 := ascii "WebROaR-0.7.1"

/-! ### Bodies -/

/-- What an iteration yields, and whether it raises after that. -/
structure Each where
  chunks : List (List UInt8)
  raises : Bool
deriving DecidableEq, Repr

def readChunkSize : Nat := 4096

/-- The chunks in which a file is read. -/
def fileChunks (content : List UInt8) : List (List UInt8) :=
  if content = [] then
    []
  else
    content.take readChunkSize :: fileChunks (content.drop readChunkSize)
termination_by content.length
decreasing_by
  next some =>
    have positive := List.length_pos_of_ne_nil some
    have size : readChunkSize = 4096 := rfl
    rw [List.length_drop]
    omega

/-- A file; reading it raises after some chunks, or never. -/
structure Stored where
  content : List UInt8
  failsAfter : Option Nat
deriving DecidableEq, Repr

def Stored.reads (file : Stored) : Each :=
  match file.failsAfter with
  | none => ⟨fileChunks file.content, false⟩
  | some count => ⟨(fileChunks file.content).take count, true⟩

/-- A body is a string, has a path, or can only be iterated. The path may lead to no file, and what
has a path need not be iterable. -/
inductive Body where
  | string (text : List UInt8)
  | path (file : Option Stored) (each : Option Each)
  | each (each : Each)
deriving DecidableEq, Repr

/-- What is read from a body when it is written. -/
def Body.yields : Body → Each
  | .string text => ⟨[text], false⟩
  | .path (some file) _ => file.reads
  | .path none (some found) => found
  | .path none none => ⟨[], false⟩
  | .each found => found

/-- The bytes of a body. -/
def Body.bytes (body : Body) : List UInt8 := body.yields.chunks.flatten

/-- A status is a number, or a text that begins with one. -/
inductive Status where
  | number (n : Int)
  | text (text : List UInt8)
deriving DecidableEq, Repr

def Status.toI : Status → Int
  | .number n => n
  | .text digits => Worker.toI digits

/-- What an application returns. -/
structure Result where
  status : Status
  headers : Headers
  body : Body
  /-- Does the body respond to `close`? -/
  closes : Bool

/-! ### The response of the worker -/

/-- The response that is filled, and what became of it. -/
structure Client where
  resp : HttpResp
  /-- The size of the buffer for the body. -/
  bodySize : Nat
  /-- The responses that were handed to the writer. -/
  completed : List HttpResp
  /-- How often a body was closed. -/
  closed : Nat

/-- A response that was set back, before anything is handed over. -/
def Client.new : Client where
  resp := HttpResp.new
  bodySize := 0
  completed := []
  closed := 0

/-- An `int` holds the number. -/
def FitsInt (n : Int) : Prop := -2 ^ 31 ≤ n ∧ n < 2 ^ 31

instance (n : Int) : Decidable (FitsInt n) := inferInstanceAs (Decidable (_ ∧ _))

namespace Client

/-- Take the header block, and a buffer for the body. -/
def reqWriteHeaders (header : List UInt8) (status bodyLength : Int) (client : Client) :
    Except Client Client :=
  if ¬ FitsInt status then
    .error client
  else
    let client := { client with
      resp := { client.resp with respCode := UInt16.ofInt status } }
    if ¬ FitsInt bodyLength then
      .error client
    else
      let client := { client with resp := { client.resp with header := header } }
      if 0 < Decimal.toSize bodyLength then
        .ok { client with
          resp := { client.resp with bodyStr := some [], bodyLen := 0 }
          bodySize := Decimal.toSize bodyLength }
      else
        .ok client

/-- Add bytes to the body, as far as the buffer has room for them. -/
def reqWriteBody (string : List UInt8) (client : Client) : Client :=
  let count := min string.length (Decimal.sizeSub client.bodySize client.resp.bodyLen)
  { client with
    resp := { client.resp with
      bodyStr := client.resp.bodyStr.map (· ++ string.take count)
      bodyLen := client.resp.bodyLen + count } }

/-- Hand the response to the writer. -/
def reqRespCompleted (client : Client) : Client :=
  { client with completed := client.completed ++ [client.resp] }

end Client

def statusCodes : List (Int × List UInt8) :=
  [(100, ascii "Continue"), (101, ascii "Switching Protocols"), (200, ascii "OK"),
    (201, ascii "Created"), (202, ascii "Accepted"),
    (203, ascii "Non-Authoritative Information"), (204, ascii "No Content"),
    (205, ascii "Reset Content"), (206, ascii "Partial Content"),
    (300, ascii "Multiple Choices"), (301, ascii "Moved Permanently"),
    (302, ascii "Moved Temporarily"), (303, ascii "See Other"), (304, ascii "Not Modified"),
    (305, ascii "Use Proxy"), (400, ascii "Bad Request"), (401, ascii "Unauthorized"),
    (402, ascii "Payment Required"), (403, ascii "Forbidden"), (404, ascii "Not Found"),
    (405, ascii "Method Not Allowed"), (406, ascii "Not Acceptable"),
    (407, ascii "Proxy Authentication Required"), (408, ascii "Request Time-out"),
    (409, ascii "Conflict"), (410, ascii "Gone"), (411, ascii "Length Required"),
    (412, ascii "Precondition Failed"), (413, ascii "Request Entity Too Large"),
    (414, ascii "Request-URI Too Large"), (415, ascii "Unsupported Media Type"),
    (500, ascii "Internal Server Error"), (501, ascii "Not Implemented"),
    (502, ascii "Bad Gateway"), (503, ascii "Service Unavailable"),
    (504, ascii "Gateway Time-out"), (505, ascii "HTTP Version not supported")]

def statusLine (status : Int) : List UInt8 :=
  ascii "HTTP/1.1 " ++ Decimal.ofInt status ++ ascii " " ++
    (statusCodes.lookup status).getD [] ++ crlf

/-- The lines of a header. -/
def fieldLines (field : List UInt8) (values : Values) : List UInt8 :=
  let lines := match values with
    | .string text => eachLine text
    | .each texts => texts
  lines.flatMap fun line => field ++ ascii ": " ++ chomp line ++ crlf

/-- The header block of a response. -/
def respHeader (headers : Headers) (status : Int) : List UInt8 :=
  statusLine status ++ headers.pairs.flatMap (fun pair => fieldLines pair.1 pair.2) ++ crlf

namespace Client

def writeHeaders (headers : Headers) (status length : Int) (client : Client) :
    Except Client Client := do
  let client ← client.reqWriteHeaders (respHeader headers status) status length
  if length ≤ 0 then
    pure client.reqRespCompleted
  else
    pure client

/-- Write what an iteration yields, until it ends or raises. -/
def writeEach (each : Each) (client : Client) : Except Client Client :=
  let client := each.chunks.foldl (fun client chunk => client.reqWriteBody chunk) client
  if each.raises then .error client else .ok client

def writeBody (body : Body) (client : Client) : Except Client Client := do
  let client ← match body with
    | .path (some file) _ => client.writeEach file.reads
    | .path none (some found) => client.writeEach found
    -- There is no method to iterate it.
    | .path none none => .error client
    | .string text => pure (client.reqWriteBody text)
    | .each found => client.writeEach found
  pure client.reqRespCompleted

end Client

/-! ### The handler -/

/-- A status of a response without a body. -/
def silent (status : Int) : Bool :=
  status = 304 || status = 204 || (100 ≤ status && status ≤ 199)

/-- The transfer encoding is a string that holds the word. -/
def chunked (headers : Headers) : Bool :=
  match headers.get transferEncoding with
  | some (.string text) => holdsWord chunkedWord false text
  | _ => false

/-- A body is a string, or responds to `each`. -/
def Body.iterable : Body → Bool
  | .string _ => true
  | .path _ found => found.isSome
  | .each _ => true

def needContentLength (status : Int) (headers : Headers) (body : Body) : Bool :=
  if (headers.get contentLength).isSome then
    false
  else if silent status then
    false
  else if chunked headers then
    false
  else
    body.iterable

/-- The length of a body as a text, and its chunks when it had to be iterated for that; nothing when
that raises. -/
def calculateContentLength : Body → Option (List UInt8 × Option (List (List UInt8)))
  | .path (some file) _ => some (Decimal.ofNat file.content.length, none)
  | .path none _ => some (Decimal.ofNat 0, none)
  | .string text => some (Decimal.ofNat text.length, none)
  | .each found =>
      if found.raises then
        none
      else
        some (Decimal.ofNat (found.chunks.map List.length).sum, some found.chunks)

/-- The headers with a content length, and the chunks of the body if it was iterated. -/
def lengthHeaders (status : Int) (headers : Headers) (body : Body) :
    Option (Headers × Option (List (List UInt8))) :=
  if silent status then
    some (headers.set contentLength (.string (Decimal.ofNat 0)), none)
  else if needContentLength status headers body then
    (calculateContentLength body).map fun found =>
      (headers.set contentLength (.string found.1), found.2)
  else
    some (headers, none)

/-- The headers that the server sets. -/
def serverHeaders (keepAlive : Bool) (headers : Headers) : Headers :=
  (headers.set connection (.string (if keepAlive then keepAliveValue else closeValue))).set
    serverField (.string serverValue)

/-- The content length as a number; what is no string raises. -/
def lengthOf (headers : Headers) : Option Int :=
  match headers.get contentLength with
  | none => some 0
  | some (.string text) => some (toI text)
  | some (.each _) => none

/-- Write a response; what raises ends it. -/
def respond (keepAlive : Bool) (result : Result) (client : Client) : Except Client Client :=
  let status := result.status.toI
  match lengthHeaders status result.headers result.body with
  | none => .error client
  | some (headers, actual) =>
      let headers := serverHeaders keepAlive headers
      match lengthOf headers with
      | none => .error client
      | some length => do
          let client ← client.writeHeaders headers status length
          if 0 < length then
            match actual with
            | some chunks => client.writeBody (.each ⟨chunks, false⟩)
            | none => client.writeBody result.body
          else
            pure client

/-- The page for an application that raises. -/
def errorPage : Result where
  status := .number 500
  headers := ⟨[(contentType, .string (ascii "text/html"))], List.nodup_singleton _⟩
  body := .string <|
    ascii "<!DOCTYPE HTML PUBLIC \"-//IETF//DTD HTML 2.0//EN\">\r\n" ++
    ascii "                <html><head>\r\n" ++
    ascii "                <title>Internal Server Error</title>\r\n" ++
    ascii "                </head><body>\r\n" ++
    ascii "                <h1>Internal Server Error</h1>\r\n" ++
    ascii "                <p>The server encountered an unexpected condition which " ++
    ascii "prevented it from fulfilling the request.</p>\r\n" ++
    ascii "                <br><br><hr>" ++ serverValue ++
    ascii "                </body></html>"
  closes := false

/-- Answer a request with what an application returned, or with the error page if it raised. -/
def process (keepAlive : Bool) (called : Option Result) (client : Client) : Client :=
  let result := called.getD errorPage
  let client := match respond keepAlive result client with
    | .ok client => client
    | .error client => client
  if result.closes then { client with closed := client.closed + 1 } else client

end Worker
