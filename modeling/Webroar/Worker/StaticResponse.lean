import Webroar.Library.HttpHead
import Webroar.Worker.Compression
import Webroar.Worker.Conditional
import Webroar.Worker.Writer

/-! # Responses of the static worker

The static worker answers a request for a file in one of four ways. Each of the responders prints
the head of its response into a buffer of 512 bytes; the head has the value of the client's
`Connection` field in it.
-/

open Worker (HttpResp)
open Calendar (Tm)
open HttpHead (crlf colon line)

namespace StaticServer

/-- `STR_SIZE512`. -/
def strSize512 : Nat := 512

/-- A static worker, with what it asks of the system: what is known of a path, and what a file holds
that opens. -/
structure Server where
  dict : Dictionary
  compress : Compress
  zlib : Zlib
  timezone : Int
  memory : Tm
  stat : List UInt8 → Option Stat
  content : List UInt8 → Option (List UInt8)

/-- The entry of `http_status`: the code, the phrase, and the message. -/
def RespStatus.entry : RespStatus → UInt16 × List UInt8 × List UInt8
  | .status200 => (200, ascii "200 OK", [])
  | .status304 => (304, ascii "304 Not Modified", [])
  | .status403 => (403, ascii "403 Forbidden", ascii "The requested page is forbidden.")
  | .status404 => (404, ascii "404 Not Found", ascii "The requested page could not be found.")

def RespStatus.phrase (status : RespStatus) : List UInt8 := status.entry.2.1

/-- `SERVER_NAME` and `SERVER_VERSION`, as they stand in a response. -/
def serverText : List UInt8 := ascii "WebROaR" ++ ascii "-" ++ ascii "0.7.1"

/-- The value a response gives its `Connection` field. -/
def connection (values : Values) : List UInt8 :=
  ((values (ascii "HTTP_CONNECTION")).map fun text => text.1).getD (ascii "Close")

/-- The value of a `Content-Encoding` field. -/
def ContentEncoding.text : ContentEncoding → List UInt8
  | .gzip => ascii "gzip"
  | .deflate => ascii "deflate"

/-- What `http_resp_200` prints. -/
def print200 (currentDate modifyDate : List UInt8) (expireDate : Option (List UInt8))
    (connHeader : List UInt8) (encoding : Option ContentEncoding) (mimeType : List UInt8)
    (length : Nat) : List UInt8 :=
  ascii "HTTP/1.1 200 OK\r\nDate: " ++ currentDate ++ ascii "\r\nServer: " ++ serverText ++
    ascii "\r\nLast-Modified: " ++ modifyDate ++
    (expireDate.elim [] fun date => ascii "\r\nExpires: " ++ date) ++
    ascii "\r\nConnection: " ++ connHeader ++ ascii "\r\n" ++
    (encoding.elim [] fun encoding =>
      ascii "Content-Encoding: " ++ encoding.text ++ ascii "\r\n") ++
    ascii "Content-Type: " ++ mimeType ++ ascii "\r\nContent-Length: " ++ Decimal.format length ++
    ascii "\r\n\r\n"

/-- What `http_resp_304` prints. -/
def print304 (currentDate : List UInt8) (expireDate : Option (List UInt8))
    (connHeader : List UInt8) : List UInt8 :=
  ascii "HTTP/1.1 304 Not Modified\r\nDate: " ++ currentDate ++ ascii "\r\nServer: " ++ serverText ++
    (expireDate.elim [] fun date => ascii "\r\nExpires: " ++ date) ++
    ascii "\r\nConnection: " ++ connHeader ++ ascii "\r\n\r\n"

/-- `HTTP_RESP_ERR_HEADERS`, with the text behind the version and the one behind `Date`. -/
def printErr (first second connHeader : List UInt8) (length : Nat) : List UInt8 :=
  ascii "HTTP/1.1 " ++ first ++ ascii "\r\nDate: " ++ second ++ ascii "\r\nServer: " ++ serverText ++
    ascii "\r\nContent-Type: text/html\r\nConnection: " ++ connHeader ++
    ascii "\r\nContent-Length: " ++ Decimal.format length ++ ascii "\r\n\r\n"

/-- `HTTP_RESP_ERR_BODY`. -/
def printBody (phrase message : List UInt8) : List UInt8 :=
  ascii "<!DOCTYPE HTML PUBLIC \"-//IETF//DTD HTML 2.0//EN\">\r\n<html><head>\r\n<title>" ++ phrase ++
    ascii "</title>\r\n</head><body>\r\n<h1>" ++ phrase.drop 4 ++ ascii "</h1>\r\n<p>" ++ message ++
    ascii "</p>\r\n<br><hr>" ++ serverText ++ ascii "</body></html>"

/-- The date that a response expires at, when its type says so. -/
def expireDate (now : Int) (ext : StaticFile) : Option (List UInt8) :=
  if 0 < ext.expires then some (timeToHttpdate (now + ext.expires)) else none

section Responders

variable (server : Server) (fuel : Nat) (now : Int) (values : Values)

/-- `http_resp_200`, behind the call of `file_compress`. -/
def respond200 (path : List UInt8) (buf : Stat) (ext : StaticFile)
    (body : Option (ContentEncoding × List UInt8)) (resp : HttpResp) : HttpResp :=
  let resp := match body with
    | some (_, written) => { resp with bodyStr := some written, bodyLen := written.length }
    | none => { resp with bodyLen := buf.size, file := server.content path }
  { resp with
    header := print200 (timeToHttpdate now) (timeToHttpdate buf.mtime) (expireDate now ext)
      (connection values) (body.map Prod.fst) ext.mimeType.1 resp.bodyLen
    respCode := 200 }

/-- `http_resp_200`; nothing when the type is missing or the file is still read. -/
def httpResp200 (path : List UInt8) (buf : Stat) (resp : HttpResp) : Option HttpResp :=
  (getMimeType server.dict path).bind fun ext =>
    (fileCompress server.zlib server.compress fuel values ext.mimeType.1 buf.size
      (server.content path)).map fun body => respond200 server now values path buf ext body resp

/-- `http_resp_304`. -/
def httpResp304 (path : List UInt8) (resp : HttpResp) : Option HttpResp :=
  (getMimeType server.dict path).map fun ext =>
    { resp with
      header := print304 (timeToHttpdate now) (expireDate now ext) (connection values)
      respCode := 304 }

/-- `http_resp_403` and `http_resp_404`. -/
def httpRespErr (status : RespStatus) (resp : HttpResp) : HttpResp :=
  let body := printBody status.phrase status.entry.2.2
  { resp with
    bodyStr := some body
    bodyLen := body.length
    header := printErr (timeToHttpdate now) status.phrase (connection values) body.length
    respCode := status.entry.1 }

def httpResp403 (resp : HttpResp) : HttpResp := httpRespErr now values .status403 resp

def httpResp404 (resp : HttpResp) : HttpResp := httpRespErr now values .status404 resp

/-- The response of `static_file_process`. -/
def staticFileProcess (resp : HttpResp) : Option HttpResp :=
  let path := (values Request.filePathName).map fun text => text.1
  let modify := (values (ascii "HTTP_IF_MODIFIED_SINCE")).map fun text => text.1
  match getRespCode server.timezone server.memory server.stat path modify with
  | .status200 => path.bind fun path => (server.stat path).bind fun buf =>
      httpResp200 server fuel now values path buf resp
  | .status304 => path.bind fun path => httpResp304 server now values path resp
  | .status403 => some (httpResp403 now values resp)
  | .status404 => some (httpResp404 now values resp)

end Responders

/-! ### The heads that are printed -/

/-- The field a response has when there is a value for it. -/
def optional (name : List UInt8) (value : Option (List UInt8)) : List (List UInt8 × List UInt8) :=
  (value.map fun value => (name, value)).toList

/-- The head of a response with a file. -/
def head200 (currentDate modifyDate : List UInt8) (expireDate : Option (List UInt8))
    (connHeader : List UInt8) (encoding : Option ContentEncoding) (mimeType : List UInt8)
    (length : Nat) : HttpHead where
  status := RespStatus.status200.phrase
  fields := (ascii "Date", currentDate) :: (ascii "Server", serverText) ::
    (ascii "Last-Modified", modifyDate) :: (optional (ascii "Expires") expireDate ++
      (ascii "Connection", connHeader) :: (optional (ascii "Content-Encoding")
        (encoding.map ContentEncoding.text) ++ [(ascii "Content-Type", mimeType),
          (ascii "Content-Length", Decimal.format length)]))

/-- The head of a response to a client that has the file. -/
def head304 (currentDate : List UInt8) (expireDate : Option (List UInt8))
    (connHeader : List UInt8) : HttpHead where
  status := RespStatus.status304.phrase
  fields := (ascii "Date", currentDate) :: (ascii "Server", serverText) ::
    (optional (ascii "Expires") expireDate ++ [(ascii "Connection", connHeader)])

/-- The texts between the values that are printed, taken apart. -/
theorem start200_eq : ascii "HTTP/1.1 200 OK\r\nDate: " =
    ascii "HTTP/1.1 " ++ (ascii "200 OK" ++ (crlf ++ (ascii "Date" ++ colon))) := by
  decide +kernel

theorem start304_eq : ascii "HTTP/1.1 304 Not Modified\r\nDate: " =
    ascii "HTTP/1.1 " ++ (ascii "304 Not Modified" ++ (crlf ++ (ascii "Date" ++ colon))) := by
  decide +kernel

theorem labels_eq :
    ascii "\r\nServer: " = crlf ++ (ascii "Server" ++ colon) ∧
    ascii "\r\nLast-Modified: " = crlf ++ (ascii "Last-Modified" ++ colon) ∧
    ascii "\r\nExpires: " = crlf ++ (ascii "Expires" ++ colon) ∧
    ascii "\r\nConnection: " = crlf ++ (ascii "Connection" ++ colon) ∧
    ascii "Content-Encoding: " = ascii "Content-Encoding" ++ colon ∧
    ascii "Content-Type: " = ascii "Content-Type" ++ colon ∧
    ascii "\r\nContent-Length: " = crlf ++ (ascii "Content-Length" ++ colon) ∧
    ascii "\r\n\r\n" = crlf ++ crlf ∧ ascii "\r\n" = crlf := by
  decide +kernel

theorem print200_eq (currentDate modifyDate : List UInt8) (expireDate : Option (List UInt8))
    (connHeader : List UInt8) (encoding : Option ContentEncoding) (mimeType : List UInt8)
    (length : Nat) : print200 currentDate modifyDate expireDate connHeader encoding mimeType length =
      (head200 currentDate modifyDate expireDate connHeader encoding mimeType length).render := by
  obtain ⟨server, modified, expires, connected, encoded, typed, counted, ended, lineEnd⟩ := labels_eq
  have phrase : RespStatus.status200.phrase = ascii "200 OK" := rfl
  unfold print200 HttpHead.render head200 optional
  rw [start200_eq, server, modified, expires, connected, encoded, typed, counted, ended, lineEnd,
    phrase]
  cases expireDate <;> cases encoding <;>
    simp only [Option.elim_none, Option.elim_some, Option.map_none, Option.map_some,
      Option.toList_none, Option.toList_some, HttpHead.lines_cons, HttpHead.lines_nil, line,
      List.append_assoc, List.cons_append, List.nil_append, List.append_nil]

theorem print304_eq (currentDate : List UInt8) (expireDate : Option (List UInt8))
    (connHeader : List UInt8) : print304 currentDate expireDate connHeader =
      (head304 currentDate expireDate connHeader).render := by
  obtain ⟨server, -, expires, connected, -, -, -, ended, -⟩ := labels_eq
  unfold print304 HttpHead.render head304 optional
  rw [start304_eq, server, expires, connected, ended]
  cases expireDate <;>
    simp only [RespStatus.phrase, RespStatus.entry, Option.elim_none, Option.elim_some,
      Option.map_none, Option.map_some, Option.toList_none, Option.toList_some,
      HttpHead.lines_cons, HttpHead.lines_nil, line, List.append_assoc, List.cons_append,
      List.nil_append, List.append_nil]

/-! ### Responses that come back -/

namespace Server

/-- The encoding that a file is to be sent in. -/
def wanted (server : Server) (values : Values) (path : List UInt8) (buf : Stat) :
    Option ContentEncoding :=
  (getMimeType server.dict path).bind fun ext =>
    server.compress.wanted values ext.mimeType.1 buf.size

/-- The body a file of less than 4 GiB is compressed to. -/
def body (server : Server) (values : Values) (path : List UInt8) (buf : Stat) :
    Option (ContentEncoding × List UInt8) :=
  (server.wanted values path buf).bind fun encoding =>
    (server.content path).bind fun content => compressed server.zlib content encoding

/-- A file that is compressed has less than 4 GiB. -/
def Reads (server : Server) (values : Values) (path : List UInt8) (buf : Stat) : Prop :=
  server.wanted values path buf ≠ none → server.content path ≠ none → buf.size < 2 ^ 32

/-- A file has as many bytes when it is read as `stat` says. -/
def Unchanged (server : Server) (path : List UInt8) (buf : Stat) : Prop :=
  ∀ content, server.content path = some content → content.length = buf.size

end Server

section Back

variable {server : Server} {now : Int} {values : Values} {path : List UInt8} {buf : Stat}
  {ext : StaticFile} {start : HttpResp}

/-- What comes back from a call with fuel comes back with more of it. -/
theorem httpResp200_add {fuel : Nat} {resp : HttpResp}
    (back : httpResp200 server fuel now values path buf start = some resp) (more : Nat) :
    httpResp200 server (fuel + more) now values path buf start = some resp := by
  unfold httpResp200 at back ⊢
  obtain ⟨ext, found, compressed⟩ := Option.bind_eq_some_iff.mp back
  obtain ⟨body, made, rfl⟩ := Option.map_eq_some_iff.mp compressed
  rw [found, Option.bind_some, fileCompress_add made, Option.map_some]

/-- The response to a request for a file that is not too large. -/
theorem httpResp200_eq (contract : server.zlib.Contract) (unchanged : server.Unchanged path buf)
    (found : getMimeType server.dict path = some ext) (reads : server.Reads values path buf)
    (fuel : Nat) : httpResp200 server (fuel + 2) now values path buf start =
      some (respond200 server now values path buf ext (server.body values path buf) start) := by
  have wanted : server.wanted values path buf =
      server.compress.wanted values ext.mimeType.1 buf.size := by
    rw [Server.wanted, found, Option.bind_some]
  unfold Server.Reads at reads
  rw [wanted] at reads
  rw [httpResp200, found, Option.bind_some, Server.body, wanted]
  cases opened : server.content path with
  | none =>
      unfold fileCompress
      cases server.compress.wanted values ext.mimeType.1 buf.size with
      | none => rfl
      | some encoding => rfl
  | some content =>
      rw [opened] at reads
      rw [fileCompress_eq contract (unchanged content opened)
        (fun wants => reads wants (Option.some_ne_none content)) fuel, Option.map_some]
      rfl

/-- There is no response without a type or while a file is read for ever, and else the one. -/
theorem httpResp200_iff (contract : server.zlib.Contract) (unchanged : server.Unchanged path buf)
    (P : HttpResp → Prop) :
    (∃ fuel resp, httpResp200 server fuel now values path buf start = some resp ∧ P resp) ↔
      ∃ ext, getMimeType server.dict path = some ext ∧ server.Reads values path buf ∧
        P (respond200 server now values path buf ext (server.body values path buf) start) := by
  constructor
  · rintro ⟨fuel, resp, back, right⟩
    cases found : getMimeType server.dict path with
    | none =>
        rw [httpResp200, found] at back
        cases back
    | some ext =>
        have reads : server.Reads values path buf := by
          intro wants opens
          by_contra large
          obtain ⟨content, opened⟩ := Option.ne_none_iff_exists'.mp opens
          obtain ⟨encoding, wanted⟩ := Option.ne_none_iff_exists'.mp wants
          rw [Server.wanted, found, Option.bind_some] at wanted
          rw [httpResp200, found, Option.bind_some, opened, fileCompress_large
            (unchanged content opened) (Nat.le_of_not_lt large) wanted] at back
          cases back
        have same := (httpResp200_add back 2).symm.trans
          (httpResp200_eq contract unchanged found reads fuel)
        exact ⟨ext, rfl, reads, Option.some.inj same ▸ right⟩
  · rintro ⟨ext, found, reads, right⟩
    exact ⟨2, _, httpResp200_eq contract unchanged found reads 0, right⟩

end Back

/-! ### Texts on one line -/

section Plain

variable {server : Server} {now : Int} {values : Values} {path : List UInt8} {ext : StaticFile}

/-- What the head lets through: the value of a field is on one line. -/
def Admitted (values : Values) : Prop :=
  ∀ text, values (ascii "HTTP_CONNECTION") = some text → (13 : UInt8) ∉ text.1

/-- The types of the dictionary are on one line. -/
def Dictionary.OnLines (dict : Dictionary) : Prop :=
  ∀ path ext, getMimeType dict path = some ext → (13 : UInt8) ∉ ext.mimeType.1

theorem not_mem_timeToHttpdate (time : Int) : (13 : UInt8) ∉ timeToHttpdate time :=
  Calendar.not_mem_strftime (Calendar.gmtime_valid time)

theorem not_mem_connection (admitted : Admitted values) : (13 : UInt8) ∉ connection values := by
  unfold connection
  cases given : values (ascii "HTTP_CONNECTION") with
  | none => exact (by decide +kernel : (13 : UInt8) ∉ ascii "Close")
  | some text => exact admitted text given

theorem not_mem_format (length : Nat) : (13 : UInt8) ∉ Decimal.format length := by
  intro member
  rcases Decimal.mem_format member with digit | sign
  · cases digit
  · cases sign

/-- A name that a field can have. -/
def PlainName (name : List UInt8) : Prop := (58 : UInt8) ∉ name ∧ (13 : UInt8) ∉ name

instance (name : List UInt8) : Decidable (PlainName name) :=
  inferInstanceAs (Decidable ((58 : UInt8) ∉ name ∧ (13 : UInt8) ∉ name))

/-- The names of the fields are plain, and so is what the server says of itself. -/
theorem names_plain : PlainName (ascii "Date") ∧ PlainName (ascii "Server") ∧
    PlainName (ascii "Last-Modified") ∧ PlainName (ascii "Expires") ∧
    PlainName (ascii "Connection") ∧ PlainName (ascii "Content-Encoding") ∧
    PlainName (ascii "Content-Type") ∧ PlainName (ascii "Content-Length") := by
  decide +kernel

theorem texts_plain : (13 : UInt8) ∉ serverText ∧ (13 : UInt8) ∉ ascii "gzip" ∧
    (13 : UInt8) ∉ ascii "deflate" ∧ (13 : UInt8) ∉ RespStatus.status200.phrase ∧
    (13 : UInt8) ∉ RespStatus.status304.phrase := by
  decide +kernel

theorem mem_optional {name : List UInt8} {value : Option (List UInt8)}
    {field : List UInt8 × List UInt8} :
    field ∈ optional name value ↔ ∃ text, value = some text ∧ field = (name, text) := by
  unfold optional
  cases value with
  | none => simp
  | some text => simp

/-- The fields of a response with a file. -/
theorem mem_head200 {currentDate modifyDate connHeader mimeType : List UInt8}
    {expireDate : Option (List UInt8)} {encoding : Option ContentEncoding} {length : Nat}
    {field : List UInt8 × List UInt8} :
    field ∈ (head200 currentDate modifyDate expireDate connHeader encoding mimeType
        length).fields ↔
      field = (ascii "Date", currentDate) ∨ field = (ascii "Server", serverText) ∨
      field = (ascii "Last-Modified", modifyDate) ∨
      (∃ date, expireDate = some date ∧ field = (ascii "Expires", date)) ∨
      field = (ascii "Connection", connHeader) ∨
      (∃ used, encoding = some used ∧ field = (ascii "Content-Encoding", used.text)) ∨
      field = (ascii "Content-Type", mimeType) ∨
      field = (ascii "Content-Length", Decimal.format length) := by
  unfold head200
  simp only [List.mem_cons, List.mem_append, mem_optional, List.not_mem_nil, or_false,
    Option.map_eq_some_iff]
  have used : (∃ text, (∃ used, encoding = some used ∧ ContentEncoding.text used = text) ∧
        field = (ascii "Content-Encoding", text)) ↔
      ∃ used, encoding = some used ∧ field = (ascii "Content-Encoding", used.text) := by
    constructor
    · rintro ⟨text, ⟨used, given, rfl⟩, rfl⟩
      exact ⟨used, given, rfl⟩
    · rintro ⟨used, given, rfl⟩
      exact ⟨_, ⟨used, given, rfl⟩, rfl⟩
  rw [used]

/-- The fields of a response to a client that has the file. -/
theorem mem_head304 {currentDate connHeader : List UInt8} {expireDate : Option (List UInt8)}
    {field : List UInt8 × List UInt8} :
    field ∈ (head304 currentDate expireDate connHeader).fields ↔
      field = (ascii "Date", currentDate) ∨ field = (ascii "Server", serverText) ∨
      (∃ date, expireDate = some date ∧ field = (ascii "Expires", date)) ∨
      field = (ascii "Connection", connHeader) := by
  unfold head304
  simp only [List.mem_cons, List.mem_append, mem_optional, List.not_mem_nil, or_false]

theorem not_mem_expireDate {date : List UInt8} (set : expireDate now ext = some date) :
    (13 : UInt8) ∉ date := by
  unfold expireDate at set
  by_cases later : 0 < ext.expires
  · rw [if_pos later] at set
    have same := Option.some_inj.mp set
    subst same
    exact not_mem_timeToHttpdate (now + ext.expires)
  · rw [if_neg later] at set
    exact absurd set.symm (Option.some_ne_none date)

theorem plain_part {field : List UInt8 × List UInt8} {name value : List UInt8}
    (same : field = (name, value)) (plain : PlainName name) (onLine : (13 : UInt8) ∉ value) :
    PlainName field.1 ∧ (13 : UInt8) ∉ field.2 := by
  subst same
  exact ⟨plain, onLine⟩

theorem head200_plain (admitted : Admitted values) (types : server.dict.OnLines)
    (found : getMimeType server.dict path = some ext) (now modified : Int)
    (encoding : Option ContentEncoding) (length : Nat) :
    (head200 (timeToHttpdate now) (timeToHttpdate modified) (expireDate now ext)
      (connection values) encoding ext.mimeType.1 length).Plain := by
  obtain ⟨text, gzip, deflate, phrase, -⟩ := texts_plain
  obtain ⟨date, name, change, expiry, connected, coding, type, count⟩ := names_plain
  have parts : ∀ field ∈ (head200 (timeToHttpdate now) (timeToHttpdate modified)
      (expireDate now ext) (connection values) encoding ext.mimeType.1 length).fields,
      PlainName field.1 ∧ (13 : UInt8) ∉ field.2 := by
    intro field member
    rcases mem_head200.mp member with same | same | same | ⟨expires, set, same⟩ | same |
      ⟨used, -, same⟩ | same | same
    · exact plain_part same date (not_mem_timeToHttpdate now)
    · exact plain_part same name text
    · exact plain_part same change (not_mem_timeToHttpdate modified)
    · exact plain_part same expiry (not_mem_expireDate set)
    · exact plain_part same connected (not_mem_connection admitted)
    · cases used with
      | gzip => exact plain_part same coding gzip
      | deflate => exact plain_part same coding deflate
    · exact plain_part same type (types path ext found)
    · exact plain_part same count (not_mem_format length)
  exact ⟨phrase, fun field member => (parts field member).1, fun field member => (parts field member).2⟩

theorem head304_plain (admitted : Admitted values) (now : Int) (ext : StaticFile) :
    (head304 (timeToHttpdate now) (expireDate now ext) (connection values)).Plain := by
  obtain ⟨text, -, -, -, phrase⟩ := texts_plain
  obtain ⟨date, name, -, expiry, connected, -, -, -⟩ := names_plain
  have parts : ∀ field ∈ (head304 (timeToHttpdate now) (expireDate now ext)
      (connection values)).fields,
      PlainName field.1 ∧ (13 : UInt8) ∉ field.2 := by
    intro field member
    rcases mem_head304.mp member with same | same | ⟨expires, set, same⟩ | same
    · exact plain_part same date (not_mem_timeToHttpdate now)
    · exact plain_part same name text
    · exact plain_part same expiry (not_mem_expireDate set)
    · exact plain_part same connected (not_mem_connection admitted)
  exact ⟨phrase, fun field member => (parts field member).1, fun field member => (parts field member).2⟩

end Plain

end StaticServer
