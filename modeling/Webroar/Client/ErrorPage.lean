import Webroar.Client.Reports
import Webroar.Scgi.Parser

/-! # Error pages

A page that reports an error is printed to one buffer and the response with it to another. While a
request is parsed the head leaves a message of its own in `resp_buf`, and the page takes it up from
there; later what the worker sends comes to the same place, and the length that is set then is the
one the worker announces. So the page takes up what the worker sent when an error strikes a
response that has begun.
-/

namespace Client

/-! ### The texts -/

/-- The second and third column of `http_status`. -/
def Status.phrase : Status → List UInt8
  | .status100 => ascii "100 Continue"
  | .status400 => ascii "400 Bad Request"
  | .status403 => ascii "403 Forbidden"
  | .status404 => ascii "404 Not Found"
  | .status405 => ascii "405 Method Not Allowed"
  | .status411 => ascii "411 Length Required"
  | .status413 => ascii "413 Request Entity Too Large"
  | .status414 => ascii "414 Request-URI Too Large"
  | .status500 => ascii "500 Internal Server Error"
  | .status501 => ascii "501 Not Implemented"
  | .status503 => ascii "503 Service Unavailable"

def Status.message : Status → List UInt8
  | .status100 => []
  | .status400 =>
      ascii "The request could not be understood by the server due to malformed syntax."
  | .status403 => ascii "The requested page is forbidden."
  | .status404 => ascii "The server has not found anything matching the Request-URI."
  | .status405 => ascii "The method specified in the Request-Line is not allowed for the " ++
      ascii "resource identified by the Request-URI."
  | .status411 => ascii "The request requires 'Content-Length'."
  | .status413 => ascii "The request entity is too large"
  | .status414 => ascii "The request URI is too large"
  | .status500 => ascii "The server encountered an unexpected condition which prevented it from " ++
      ascii "fulfilling the request."
  | .status501 => ascii "The server does not support the functionality required to fulfill the " ++
      ascii "request."
  | .status503 => ascii "The server is currently unable to handle the request due to a " ++
      ascii "temporary overloading or maintenance of the server."

/-- `SERVER_NAME` and `SERVER_VERSION`, as they stand in a page and in its head. -/
def serverText : List UInt8 := ascii "WebROaR" ++ ascii "-" ++ ascii "0.7.1"

/-- `WR_RESP_BODY` and `WR_RESPONSE_ERR_BODY`, which differ in what is shown before the rule. -/
def pageText (status : Status) (shown : List UInt8) : List UInt8 :=
  ascii "<!DOCTYPE HTML PUBLIC \"-//IETF//DTD HTML 2.0//EN\">\r\n" ++
    ascii "      <html><head>\r\n      <title>" ++ status.phrase ++
    ascii "</title>\r\n      </head><body>\r\n" ++
    ascii "      <h1>" ++ status.phrase.drop 4 ++ ascii "</h1>\r\n      <p>" ++ status.message ++
    ascii "</p>\r\n      <br>" ++ shown ++ ascii "<br><hr>" ++ serverText ++
    ascii "      </body></html>"

/-- The body that `wr_conn_err_resp` prints, with the text from `resp_buf` if its length is set. -/
def respBody (status : Status) (error : Option (List UInt8)) : List UInt8 :=
  match status, error with
  | .status100, _ => []
  | status, none => pageText status []
  | status, some text => pageText status (ascii "error:" ++ text)

/-- `WR_RESP_HEADERS`. -/
def respHeaders (status : Status) (date : List UInt8) (bodyLen : Nat) (body : List UInt8) :
    List UInt8 :=
  ascii "HTTP/1.1 " ++ status.phrase ++ ascii "\r\nDate: " ++ date ++ ascii "\r\nServer: " ++
    serverText ++ ascii "\r\nContent-Type: text/html\r\nConnection: close\r\nContent-Length: " ++
    Decimal.format bodyLen ++ ascii "\r\n\r\n" ++ body

/-- The response that `wr_conn_err_resp` prints. -/
def response (status : Status) (date : List UInt8) (error : Option (List UInt8)) : List UInt8 :=
  respHeaders status date (respBody status error).length (respBody status error)

/-- What `get_time` leaves in its buffer of 64 bytes. -/
structure Date where
  text : List UInt8
  fits : text.length < 64

/-- The checks that turn a request away while it is parsed. -/
inductive Refusal where
  | missingHost | queryString | path | headerCount | fieldName | fieldValue | requestSize | uri
  | fragment | options
deriving DecidableEq, Repr

namespace Refusal

/-- The status that goes to `wr_req_invalid`. -/
def status : Refusal → Status
  | .missingHost => .status400
  | .uri => .status414
  | .options => .status501
  | .queryString | .path | .headerCount | .fieldName | .fieldValue | .requestSize | .fragment =>
      .status413

/-- What is printed to `resp_buf` before. -/
def message : Refusal → Option (List UInt8)
  | .missingHost => some (ascii "The request host is missing.")
  | .queryString => some (ascii "The request query string is too large.")
  | .path => some (ascii "The request path is too large.")
  | .headerCount => some (ascii "The number of request header is too large.")
  | .fieldName => some (ascii "The request field name is too large.")
  | .fieldValue => some (ascii "The request field value is too large.")
  | .requestSize => some (ascii "The request is too large.")
  | .uri => some (ascii "The request URI is too large.")
  | .fragment => some (ascii "The request fragment is too large.")
  | .options => none

end Refusal

/-! ### The buffer of a request -/

/-- Who wrote a byte: nobody since the memory was allocated, the head, or the worker. -/
inductive Writer where
  | memory | head | worker
deriving DecidableEq, Repr

/-- `resp_buf` from its beginning on, and `bytes_received` while the head of the response is
awaited. -/
structure RespBuf where
  cells : List (Writer × UInt8)
  received : Nat

namespace RespBuf

/-- `WR_RESP_BUF_SIZE`. -/
def size : Nat := 1024 * 64

def write (buf : RespBuf) (writer : Writer) (offset : Nat) (bytes : List UInt8) : RespBuf :=
  { buf with
    cells := buf.cells.take offset ++ bytes.map (fun byte => (writer, byte)) ++
      buf.cells.drop (offset + bytes.length) }

/-- What `%s` prints of it. -/
def text (buf : RespBuf) : List (Writer × UInt8) := buf.cells.takeWhile fun cell => cell.2 ≠ 0

/-- The buffer of a request that was just made. -/
def fresh (memory : List UInt8) : RespBuf := ⟨memory.map fun byte => (.memory, byte), 0⟩

end RespBuf

end Client

open Client in
/-- A connection, with the buffers of its requests. -/
structure Reporting where
  client : Client
  buf : Nat → RespBuf

/-- What happens: a check turns the request away that is being parsed, the first part of a response
is received or more of it, or anything else that happens to a connection. -/
inductive Reporting.Event where
  | refuse (refusal : Client.Refusal)
  | reply (req : Nat) (read : List UInt8)
  | rest (req : Nat) (read : List UInt8)
  | other (event : Client.Event)

/-- What happens, and the date then. -/
structure Reporting.Moment where
  date : Client.Date
  event : Reporting.Event

namespace Reporting

open Client

variable (serverKeepAlive : Bool) (memory : Nat → List UInt8)

def setBuf (reporting : Reporting) (req : Nat) (buf : RespBuf) : Reporting :=
  { reporting with buf := Function.update reporting.buf req buf }

/-- The message is printed to `resp_buf`, and `resp_buf_len` is its length. -/
def say (reporting : Reporting) (req : Nat) (message : List UInt8) : Reporting :=
  { client := reporting.client.setReq req
      { reporting.client.reqs req with respBufLen := message.length }
    buf := Function.update reporting.buf req
      ((reporting.buf req).write .head 0 (message ++ [0])) }

/-- `recv` of `wr_resp_len_read_cb`, which sets `bytes_received` to what it read last. -/
def receive (reporting : Reporting) (req : Nat) (read : List UInt8) : Reporting :=
  reporting.setBuf req
    { (reporting.buf req).write .worker (reporting.buf req).received read with
      received := read.length }

/-- The length of the response that an object of a worker announces. -/
def announced (scgi : Scgi) : Nat :=
  match scgi.headerValueGet Scgi.contentLengthName with
  | some value => Decimal.toSize (Decimal.atoi value)
  | none => 0

/-- What `wr_resp_len_read_cb` does with the bytes it read: without any the worker is at fault, and
with a part of an object only it waits for more. -/
def readHead (reporting : Reporting) (req : Nat) (read : List UInt8) :
    Reporting × Option Client.Event :=
  let read := read.take (RespBuf.size - (reporting.buf req).received)
  if read = [] then (reporting, some (.death req))
  else
    let reporting := reporting.receive req read
    match Scgi.parse (((reporting.buf req).cells.take read.length).map Prod.snd) with
    | none => (reporting, none)
    | some scgi => (reporting, some (.head req (announced scgi) (scgi.body.getD [])))

/-- What `wr_resp_read_cb` does with the bytes it read, before it passes them on. -/
def readRest (reporting : Reporting) (req : Nat) (read : List UInt8) :
    Reporting × Option Client.Event :=
  let record := reporting.client.reqs req
  let read := read.take
    (min RespBuf.size (Decimal.sizeSub record.respBufLen record.bytesReceived))
  (reporting.setBuf req ((reporting.buf req).write .worker 0 read), some (.part req read))

/-- What comes before a callback of the connection, and which one it is. -/
def prepare (reporting : Reporting) : Event → Reporting × Option Client.Event
  | .refuse refusal =>
      match reporting.client.executing, reporting.client.conn.currentRequest, refusal.message with
      | true, some req, some message => (reporting.say req message, some (.reject refusal.status))
      | true, some _, none => (reporting, some (.reject refusal.status))
      | _, _, _ => (reporting, none)
  | .reply req read =>
      if reporting.client.executing = false ∧ reporting.client.Held req ∧
          (reporting.client.reqs req).respBufLen = 0 then
        reporting.readHead req read
      else (reporting, none)
  | .rest req read =>
      if reporting.client.executing = false ∧ reporting.client.Held req ∧
          (reporting.client.reqs req).respBufLen ≠ 0 then
        reporting.readRest req read
      else (reporting, none)
  | .other (.reject _) | .other (.head _ _ _) | .other (.part _ _) => (reporting, none)
  | .other .start =>
      if reporting.client.executing = true ∧ reporting.client.conn.parsing = none ∧
          ¬ 0 < reporting.client.conn.respToWrite then
        let req := reporting.client.nextReq
        (reporting.setBuf req (RespBuf.fresh (memory req)), some .start)
      else (reporting, some .start)
  | .other event => (reporting, some event)

/-- The text that `wr_conn_err_resp` finds in `resp_buf`, if the length of the response is set. -/
def said (reporting : Reporting) : Option (List (Writer × UInt8)) :=
  match reporting.client.conn.req with
  | none => none
  | some req =>
      if 0 < (reporting.client.reqs req).respBufLen then some (reporting.buf req).text else none

/-- That text without its origin. -/
def shown (reporting : Reporting) : Option (List UInt8) :=
  reporting.said.map fun text => text.map Prod.snd

/-- One callback. -/
def step (moment : Moment) (reporting : Reporting) : Option Reporting :=
  match reporting.prepare memory moment.event with
  | (reporting, none) => some reporting
  | (reporting, some event) =>
      (reporting.client.step serverKeepAlive
        (fun _ status => response status moment.date.text reporting.shown) event).map
          fun client => { reporting with client := client }

/-- A connection that was accepted. -/
def accepted : Reporting := ⟨Client.accepted, fun req => RespBuf.fresh (memory req)⟩

def after (input : Nat → Moment) (count : Nat) : Option Reporting :=
  Machine.after (Machine.attempt (step serverKeepAlive memory)) input (some (accepted memory)) count

/-- `wr_conn_err_resp` finds its objects, its buffers are large enough, and what it shows is a
message that the head has written. -/
structure Fits (date : Date) (status : Status) (reporting : Reporting) : Prop where
  conn : reporting.client.conn.freed = false
  req : ∀ req, reporting.client.conn.req = some req → (reporting.client.reqs req).live = true
  body : (respBody status reporting.shown).length < 512
  response : (response status date.text reporting.shown).length < 1024
  own : ∀ text, reporting.said = some text → (∀ cell ∈ text, cell.1 = .head) ∧
    ∃ refusal : Refusal, refusal.message = some (text.map Prod.snd)

/-- Every call of `wr_conn_err_resp` in a run is fit. -/
def AllFit (input : Nat → Moment) : Prop :=
  ∀ count reporting, after serverKeepAlive memory input count = some reporting →
    ∀ before event status, reporting.prepare memory (input count).event = (before, some event) →
      event.reports before.client = some status → before.Fits (input count).date status

/-- No worker dies that has announced the length of its response, nor one whose request has lost its
connection; and the parser does not fail when the worker of the request has announced it. -/
structure Quiet (event : Client.Event) (client : Client) : Prop where
  worker : ∀ req, event.Kills client req →
    client.conn.freed = false ∧ (client.reqs req).respBufLen = 0
  parser : event = .parseError → client.executing = true →
    ∀ req, client.conn.req = some req → (client.reqs req).respBufLen = 0

/-- So it is throughout a run. -/
def AllQuiet (input : Nat → Moment) : Prop :=
  ∀ count reporting, after serverKeepAlive memory input count = some reporting →
    ∀ before event, reporting.prepare memory (input count).event = (before, some event) →
      Quiet event before.client

end Reporting

namespace Client

/-! ### Lengths -/

theorem length_status (status : Status) :
    status.phrase.length ≤ 28 ∧ status.message.length ≤ 118 := by
  cases status <;> decide +kernel

/-- A page is as long as what is put into it. -/
theorem length_pageText (status : Status) (shown : List UInt8) :
    (pageText status shown).length = 199 + status.phrase.length + (status.phrase.length - 4) +
      status.message.length + shown.length := by
  have texts :
      (ascii "<!DOCTYPE HTML PUBLIC \"-//IETF//DTD HTML 2.0//EN\">\r\n").length = 52 ∧
      (ascii "      <html><head>\r\n      <title>").length = 33 ∧
      (ascii "</title>\r\n      </head><body>\r\n").length = 31 ∧
      (ascii "      <h1>").length = 10 ∧ (ascii "</h1>\r\n      <p>").length = 16 ∧
      (ascii "</p>\r\n      <br>").length = 16 ∧ (ascii "<br><hr>").length = 8 ∧
      serverText.length = 13 ∧ (ascii "      </body></html>").length = 20 := by
    decide +kernel
  obtain ⟨doctype, title, head, heading, paragraph, rule, line, server, close⟩ := texts
  unfold pageText
  simp only [List.length_append, List.length_drop, doctype, title, head, heading, paragraph, rule,
    line, server, close]
  omega

theorem length_respBody_le (status : Status) (error : Option (List UInt8)) :
    (respBody status error).length ≤ 375 + (error.getD []).length := by
  obtain ⟨phrase, message⟩ := length_status status
  have label : (ascii "error:").length = 6 := by decide +kernel
  unfold respBody
  split
  · exact Nat.zero_le _
  · rw [length_pageText, List.length_nil]
    omega
  · rw [length_pageText, List.length_append, label, Option.getD_some]
    omega

theorem Refusal.message_spec (refusal : Refusal) : (refusal.message.all fun message =>
    decide (message.length ≤ 43 ∧ message ≠ [] ∧ (0 : UInt8) ∉ message)) = true := by
  cases refusal <;> decide +kernel

/-- The page with a message of the head fits, and the message is not empty. -/
theorem Refusal.fits {refusal : Refusal} {message : List UInt8}
    (found : refusal.message = some message) :
    (respBody refusal.status (some message)).length < 512 ∧ message ≠ [] ∧
      (0 : UInt8) ∉ message := by
  have spec := refusal.message_spec
  rw [found, Option.all_some] at spec
  obtain ⟨short, rest⟩ := of_decide_eq_true spec
  have most := length_respBody_le refusal.status (some message)
  rw [Option.getD_some] at most
  exact ⟨by omega, rest⟩

/-- With a page that fits its buffer the response fits its own. -/
theorem length_response {status : Status} {error : Option (List UInt8)} (date : Date)
    (fits : (respBody status error).length < 512) :
    (response status date.text error).length < 1024 := by
  have phrase := (length_status status).1
  have dated := date.fits
  have length := Decimal.length_format_le (respBody status error).length
  have texts : (ascii "HTTP/1.1 ").length = 9 ∧ (ascii "\r\nDate: ").length = 8 ∧
      (ascii "\r\nServer: ").length = 10 ∧ serverText.length = 13 ∧
      (ascii "\r\nContent-Type: text/html\r\nConnection: close\r\nContent-Length: ").length = 62 ∧
      (ascii "\r\n\r\n").length = 4 := by
    decide +kernel
  obtain ⟨version, label, named, server, fields, empty⟩ := texts
  unfold response respHeaders
  simp only [List.length_append, version, label, named, server, fields, empty]
  omega

/-! ### The buffer -/

namespace RespBuf

variable {buf : RespBuf} {bytes : List UInt8}

/-- What is written at the beginning with a NUL behind it is what `%s` prints. -/
theorem text_write (writer : Writer) (visible : (0 : UInt8) ∉ bytes) :
    (buf.write writer 0 (bytes ++ [0])).text = bytes.map fun byte => (writer, byte) := by
  have goes : ∀ cell ∈ bytes.map (fun byte => (writer, byte)), decide (cell.2 ≠ 0) = true := by
    intro cell member
    obtain ⟨byte, known, rfl⟩ := List.mem_map.mp member
    have other : byte ≠ 0 := fun zero => visible (zero ▸ known)
    exact decide_eq_true other
  unfold text write
  dsimp only
  rw [List.take_zero, List.nil_append, List.map_append, List.append_assoc,
    List.takeWhile_append_of_pos goes]
  exact List.append_nil _

/-- The worker wrote what is at the beginning. -/
def Begun (buf : RespBuf) : Prop := ∃ byte, buf.cells.head? = some (.worker, byte)

theorem begun_write_zero (some : bytes ≠ []) : (buf.write .worker 0 bytes).Begun := by
  obtain ⟨byte, rest, rfl⟩ := List.exists_cons_of_ne_nil some
  exact ⟨byte, rfl⟩

theorem Begun.write (begun : buf.Begun) {offset : Nat} (later : 0 < offset) :
    (buf.write .worker offset bytes).Begun := by
  obtain ⟨byte, first⟩ := begun
  refine ⟨byte, ?_⟩
  unfold RespBuf.write
  dsimp only
  rw [List.append_assoc, List.head?_append, List.head?_take, if_neg (Nat.ne_of_gt later), first]
  rfl

/-- What the worker wrote is no message of the head. -/
theorem Begun.foreign (begun : buf.Begun) :
    ¬ ((∀ cell ∈ buf.text, cell.1 = .head) ∧
      ∃ refusal : Refusal, refusal.message = some (buf.text.map Prod.snd)) := by
  rintro ⟨own, refusal, found⟩
  obtain ⟨byte, first⟩ := begun
  obtain ⟨rest, same⟩ := List.head?_eq_some_iff.mp first
  have visible := (Refusal.fits found).2.1
  unfold text at own visible
  rw [same] at own visible
  by_cases zero : byte = 0
  · rw [List.takeWhile_cons_of_neg (by simpa using zero)] at visible
    exact visible rfl
  · rw [List.takeWhile_cons_of_pos (by simpa using zero)] at own
    exact nomatch own _ List.mem_cons_self

end RespBuf

end Client

namespace Reporting

open Client

variable {serverKeepAlive : Bool} {memory : Nat → List UInt8} {reporting before : Reporting}
  {req : Nat}

/-! ### What a run keeps -/

/-- Only a request that was given to a worker has something of a response in its buffer, and then
the worker wrote the beginning. -/
structure Inv (reporting : Reporting) : Prop where
  settled : reporting.client.Settled
  tidy : reporting.client.Tidy
  begun : ∀ req, (reporting.client.reqs req).live = true → 0 < (reporting.buf req).received →
    (reporting.client.reqs req).wkr = true ∧ (reporting.buf req).Begun
  known : ∀ req, (reporting.client.reqs req).live = true →
    0 < (reporting.client.reqs req).respBufLen → 0 < (reporting.buf req).received

/-- What a callback of the connection finds: an empty buffer for a request that is made now, and
something in that of a request whose response is announced. -/
structure Ready (event : Client.Event) (reporting : Reporting) : Prop where
  inv : reporting.Inv
  begins : event = .start → reporting.client.executing = true →
    reporting.client.conn.parsing = none → ¬ 0 < reporting.client.conn.respToWrite →
      (reporting.buf reporting.client.nextReq).received = 0
  heads : ∀ req announced body, event = .head req announced body →
    0 < (reporting.buf req).received

theorem accepted_inv : (accepted memory).Inv where
  settled := accepted_settled
  tidy := ⟨nofun, fun _ _ => rfl, fun _ failed => nomatch failed⟩
  begun := fun _ live => nomatch live
  known := fun _ live => nomatch live

namespace Inv

/-- The buffer of one request is written to. -/
theorem setBuf (inv : reporting.Inv) {buf : RespBuf}
    (begun : (reporting.client.reqs req).live = true → 0 < buf.received →
      (reporting.client.reqs req).wkr = true ∧ buf.Begun)
    (known : (reporting.client.reqs req).live = true →
      0 < (reporting.client.reqs req).respBufLen → 0 < buf.received) :
    (reporting.setBuf req buf).Inv := by
  refine ⟨inv.settled, inv.tidy, fun other live some => ?_, fun other live some => ?_⟩
  · unfold Reporting.setBuf at some ⊢
    dsimp only at some ⊢
    by_cases same : other = req
    · subst same
      rw [Function.update_self] at some ⊢
      exact begun live some
    · rw [Function.update_of_ne same] at some ⊢
      exact inv.begun other live some
  · unfold Reporting.setBuf
    dsimp only
    by_cases same : other = req
    · subst same
      rw [Function.update_self]
      exact known live some
    · rw [Function.update_of_ne same]
      exact inv.known other live some

/-- No request is being made while there is one. -/
theorem unborn (inv : reporting.Inv) (executing : reporting.client.executing = true)
    (between : reporting.client.conn.parsing = none)
    (unowed : ¬ 0 < reporting.client.conn.respToWrite) :
    ∀ req, (reporting.client.reqs req).live = false := by
  obtain ⟨who, phase⟩ := inv.settled.executes executing
  cases phase with
  | idle shows unowned owed current done => exact done
  | parsing req parses => exact nomatch between.symm.trans parses.text
  | busy req used hand =>
      rw [hand.owed] at unowed
      exact absurd Int.one_pos unowed
  | failed req shows own owed current stopped => exact nomatch executing.symm.trans stopped.2
  | gone shut still => exact nomatch executing.symm.trans still

theorem readHead (inv : reporting.Inv) (held : reporting.client.Held req) (read : List UInt8) :
    (reporting.readHead req read).1.Inv ∧
      ∀ event, (reporting.readHead req read).2 = some event →
        Ready event (reporting.readHead req read).1 := by
  unfold Reporting.readHead
  dsimp only
  split
  · refine ⟨inv, fun event same => ?_⟩
    cases same
    exact ⟨inv, nofun, nofun⟩
  · next some =>
      have length := List.length_pos_of_ne_nil some
      generalize read.take _ = read at *
      have begun : (reporting.client.reqs req).live = true → 0 < read.length →
          (reporting.client.reqs req).wkr = true ∧
            ((reporting.buf req).write .worker (reporting.buf req).received read).Begun := by
        intro live _
        refine ⟨inv.settled.served inv.tidy held, ?_⟩
        rcases Nat.eq_zero_or_pos (reporting.buf req).received with none | more
        · rw [none]
          exact RespBuf.begun_write_zero some
        · exact (inv.begun req live more).2.write more
      have received : (reporting.receive req read).Inv := inv.setBuf begun fun _ _ => length
      split
      · exact ⟨received, nofun⟩
      · refine ⟨received, fun event same => ?_⟩
        cases same
        refine ⟨received, nofun, fun other announced body same => ?_⟩
        cases same
        unfold Reporting.receive Reporting.setBuf
        dsimp only
        rw [Function.update_self]
        exact length

theorem readRest (inv : reporting.Inv) (read : List UInt8) :
    (reporting.readRest req read).1.Inv ∧
      ∀ event, (reporting.readRest req read).2 = some event →
        Ready event (reporting.readRest req read).1 := by
  unfold Reporting.readRest
  dsimp only
  generalize read.take _ = read
  have written : (reporting.setBuf req ((reporting.buf req).write .worker 0 read)).Inv := by
    refine inv.setBuf (fun live more => ?_) (inv.known req)
    obtain ⟨served, begun⟩ := inv.begun req live more
    refine ⟨served, ?_⟩
    by_cases none : read = []
    · subst none
      exact begun
    · exact RespBuf.begun_write_zero none
  refine ⟨written, fun event same => ?_⟩
  cases same
  exact ⟨written, nofun, nofun⟩

/-- A callback of the connection keeps it. -/
theorem run {event : Client.Event} (ready : Ready event reporting)
    {page : Nat → Status → List UInt8} {client : Client}
    (ran : reporting.client.step serverKeepAlive page event = some client) :
    Inv { reporting with client := client } := by
  have inv := ready.inv
  refine ⟨inv.settled.step ran, Tidy.step event _ _ inv.tidy ran, ?_, ?_⟩
  · intro req live more
    dsimp only at live more ⊢
    rcases changes_step ran with leads | ⟨same, executing, between, unowed, reqs⟩ |
      ⟨known, announced, body, same, held, some, leads⟩
    · obtain ⟨served, begun⟩ := inv.begun req ((leads req).live live) more
      exact ⟨(leads req).served served, begun⟩
    · by_cases new : req = reporting.client.nextReq
      · subst new
        rw [ready.begins same executing between unowed] at more
        exact absurd more (Nat.lt_irrefl 0)
      · rw [reqs, Function.update_of_ne new] at live ⊢
        exact inv.begun req live more
    · have before : (reporting.client.reqs req).live = true ∧
          ((reporting.client.reqs req).wkr = true → (client.reqs req).wkr = true) := by
        have led := leads req
        by_cases own : req = known
        · subst own
          rw [announce_self] at led
          exact ⟨led.live live, led.served⟩
        · rw [announce_of_ne own] at led
          exact ⟨led.live live, led.served⟩
      obtain ⟨served, begun⟩ := inv.begun req before.1 more
      exact ⟨before.2 served, begun⟩
  · intro req live more
    dsimp only at live more ⊢
    rcases changes_step ran with leads | ⟨same, executing, between, unowed, reqs⟩ |
      ⟨known, announced, body, same, held, some, leads⟩
    · exact inv.known req ((leads req).live live) ((leads req).length ▸ more)
    · by_cases new : req = reporting.client.nextReq
      · subst new
        rw [reqs, Function.update_self] at more
        exact absurd more (Nat.lt_irrefl 0)
      · rw [reqs, Function.update_of_ne new] at live more
        exact inv.known req live more
    · by_cases own : req = known
      · subst own
        exact ready.heads _ _ _ same
      · have led := leads req
        rw [announce_of_ne own] at led
        exact inv.known req (led.live live) (led.length ▸ more)

/-- A message for the request that is being parsed, which is turned away then. -/
theorem refuse (inv : reporting.Inv) (executing : reporting.client.executing = true)
    (parses : reporting.client.Parses req) (message : List UInt8) {status : Status}
    {page : Nat → Status → List UInt8} {client : Client}
    (ran : (reporting.say req message).client.step serverKeepAlive page (.reject status) =
      some client) :
    Inv { reporting.say req message with client := client } := by
  let record : Req := { reporting.client.reqs req with respBufLen := message.length }
  have place : record.At false false :=
    ⟨parses.place.created, parses.place.live, parses.place.queued, parses.place.wkr,
      parses.place.usingWkr, parses.place.connErr⟩
  have parses : (reporting.say req message).client.Parses req := {
    parses with
    place := by
      unfold Reporting.say Client.setReq
      dsimp only
      rw [Function.update_self]
      exact place
    others := fun other differs =>
      (congrArg Req.live (Function.update_of_ne differs _ _)).trans (parses.others other differs) }
  have settled : (reporting.say req message).client.Settled := .inl ⟨none, .parsing req parses⟩
  have tidy : (reporting.say req message).client.Tidy :=
    inv.tidy.set (fun _ => ⟨place.queued, place.wkr, place.connErr⟩) (inv.tidy.served req)
      (inv.tidy.failed req)
  have dead := parses.reject_dead executing ran
  have leads : (reporting.say req message).client.Leads client := by
    rcases changes_step ran with leads | ⟨same, -⟩ | ⟨known, announced, body, same, -⟩
    · exact leads
    · exact nomatch same
    · exact nomatch same
  refine ⟨settled.step ran, Tidy.step _ _ _ tidy ran, ?_, ?_⟩
  · intro other live more
    dsimp only at live more ⊢
    have differs : other ≠ req := fun same => nomatch (same ▸ dead).symm.trans live
    have led := leads other
    unfold Reporting.say Client.setReq at led more ⊢
    dsimp only at led more ⊢
    rw [Function.update_of_ne differs] at led more ⊢
    obtain ⟨served, begun⟩ := inv.begun other (led.live live) more
    exact ⟨led.served served, begun⟩
  · intro other live more
    dsimp only at live more ⊢
    have differs : other ≠ req := fun same => nomatch (same ▸ dead).symm.trans live
    have led := leads other
    unfold Reporting.say Client.setReq at led ⊢
    dsimp only at led ⊢
    rw [Function.update_of_ne differs] at led ⊢
    exact inv.known other (led.live live) (led.length ▸ more)

/-- The request that is being parsed is told why it is turned away, or what comes before the
callback keeps what holds. -/
theorem prepare (inv : reporting.Inv) {event : Event} {next : Option Client.Event}
    (prepared : reporting.prepare memory event = (before, next)) :
    (∃ (req : Nat) (refusal : Refusal) (message : List UInt8), refusal.message = some message ∧
      reporting.client.executing = true ∧ reporting.client.Parses req ∧
      before = reporting.say req message ∧ next = some (.reject refusal.status)) ∨
    (before.Inv ∧ ∀ event, next = some event → Ready event before) := by
  have same : ∀ event, (∀ req announced body, event ≠ Client.Event.head req announced body) →
      event ≠ .start →
        reporting.Inv ∧ ∀ other, some event = some other → Ready other reporting := by
    intro event unread begun
    refine ⟨inv, fun other same => ?_⟩
    cases same
    exact ⟨inv, fun same => absurd same begun, fun req announced body same =>
      absurd same (unread req announced body)⟩
  unfold Reporting.prepare at prepared
  split at prepared
  · next refusal =>
      split at prepared
      · next req message executing current found =>
          cases prepared
          obtain ⟨who, phase⟩ := inv.settled.executes executing
          exact .inl ⟨req, refusal, message, found, executing, (phase.parses executing current).2,
            rfl, rfl⟩
      · cases prepared
        exact .inr (same _ nofun nofun)
      · cases prepared
        exact .inr ⟨inv, fun _ same => nomatch same⟩
  · next req read =>
      split at prepared
      · next due =>
          have ready := inv.readHead due.2.1 read
          rw [prepared] at ready
          exact .inr ready
      · cases prepared
        exact .inr ⟨inv, fun _ same => nomatch same⟩
  · next req read =>
      split at prepared
      · have ready := @readRest reporting req inv read
        rw [prepared] at ready
        exact .inr ready
      · cases prepared
        exact .inr ⟨inv, fun _ same => nomatch same⟩
  · cases prepared
    exact .inr ⟨inv, fun _ same => nomatch same⟩
  · cases prepared
    exact .inr ⟨inv, fun _ same => nomatch same⟩
  · cases prepared
    exact .inr ⟨inv, fun _ same => nomatch same⟩
  · split at prepared
    · next due =>
        cases prepared
        obtain ⟨executing, between, unowed⟩ := due
        have unborn := inv.unborn executing between unowed
        have made : (reporting.setBuf reporting.client.nextReq
            (RespBuf.fresh (memory reporting.client.nextReq))).Inv :=
          inv.setBuf (fun live => (nomatch (unborn _).symm.trans live))
            fun live => (nomatch (unborn _).symm.trans live)
        refine .inr ⟨made, fun event same => ?_⟩
        cases same
        refine ⟨made, fun _ _ _ _ => ?_, nofun⟩
        unfold Reporting.setBuf
        dsimp only
        rw [Function.update_self]
        rfl
    · next undue =>
        cases prepared
        refine .inr ⟨inv, fun event same => ?_⟩
        cases same
        exact ⟨inv, fun _ executing between unowed =>
          absurd ⟨executing, between, unowed⟩ undue, nofun⟩
  · next event unrefused unread unreceived begun =>
      cases prepared
      exact .inr (same event (fun req announced body same => unread req announced body same)
        begun)

theorem step (moment : Moment) (reporting after : Reporting) (inv : reporting.Inv)
    (ran : reporting.step serverKeepAlive memory moment = some after) : after.Inv := by
  unfold Reporting.step at ran
  split at ran
  · next before prepared =>
      cases ran
      rcases inv.prepare prepared with ⟨_, _, _, _, _, _, _, none⟩ | kept
      · exact nomatch none
      · exact kept.1
  · next before event prepared =>
      obtain ⟨client, stepped, rfl⟩ := Option.map_eq_some_iff.mp ran
      rcases inv.prepare prepared with ⟨req, refusal, message, _, executing, parses, rfl, same⟩ |
        kept
      · cases same
        exact inv.refuse executing parses message stepped
      · exact run (kept.2 event rfl) stepped

end Inv

theorem inv_after (input : Nat → Moment) (count : Nat) (reporting : Reporting)
    (reached : after serverKeepAlive memory input count = some reporting) : reporting.Inv :=
  Machine.attempt_invariant Inv accepted_inv Inv.step count reporting reached

/-! ### Calls -/

/-- What `wr_conn_err_resp` prints when the length of a response is not set. -/
theorem fits_unsaid (date : Date) (status : Status) (kept : reporting.client.conn.freed = false)
    (live : ∀ req, reporting.client.conn.req = some req →
      (reporting.client.reqs req).live = true ∧ (reporting.client.reqs req).respBufLen = 0) :
    reporting.Fits date status := by
  have unsaid : reporting.said = none := by
    unfold said
    split
    · rfl
    · next req own =>
        rw [(live req own).2]
        exact if_neg (Nat.lt_irrefl 0)
  have unshown : reporting.shown = none := by
    unfold shown
    rw [unsaid]
    rfl
  have fits : (respBody status none).length < 512 :=
    Nat.lt_of_le_of_lt (length_respBody_le status none) (by decide)
  refine ⟨kept, fun req own => (live req own).1, ?_, ?_, ?_⟩
  · rw [unshown]
    exact fits
  · rw [unshown]
    exact length_response date fits
  · rw [unsaid]
    nofun

namespace Inv

/-- Nothing of a response is known for a request that no worker was given. -/
theorem unknown (inv : reporting.Inv) (live : (reporting.client.reqs req).live = true)
    (unserved : (reporting.client.reqs req).wkr = false) :
    (reporting.client.reqs req).respBufLen = 0 := by
  by_contra some
  have received := inv.known req live (Nat.pos_of_ne_zero some)
  exact nomatch unserved.symm.trans (inv.begun req live received).1

/-- A call is fit when no worker is at fault that announced its response. -/
theorem fits (inv : reporting.Inv) {event : Client.Event} {status : Status} (date : Date)
    (quiet : Quiet event reporting.client)
    (reports : event.reports reporting.client = some status) : reporting.Fits date status := by
  rcases reports_cases reports with ⟨executing, req, current⟩ | ⟨executing, same⟩ |
    ⟨req, kills⟩ | ⟨still, req, waits⟩
  · obtain ⟨who, phase⟩ := inv.settled.executes executing
    obtain ⟨-, parses⟩ := phase.parses executing current
    refine fits_unsaid date status parses.shows.kept fun other own => ?_
    cases parses.own.symm.trans own
    exact ⟨parses.place.live, inv.unknown parses.place.live parses.place.wkr⟩
  · obtain ⟨who, phase⟩ := inv.settled.executes executing
    refine fits_unsaid date status (phase.opened_of_executing executing).kept fun req own =>
      ⟨?_, quiet.parser same executing req own⟩
    cases phase with
    | idle shows unowned => exact nomatch unowned.symm.trans own
    | parsing known parses =>
        cases parses.own.symm.trans own
        exact parses.place.live
    | busy known used hand place =>
        cases hand.own.symm.trans own
        exact place.live
    | failed known shows _ owed current stopped => exact nomatch executing.symm.trans stopped.2
    | gone shut still => exact nomatch executing.symm.trans still
  · obtain ⟨kept, unread⟩ := quiet.worker req kills
    refine fits_unsaid date status kept fun other own => ?_
    cases (inv.settled.own kills.2.1 kept).symm.trans own
    exact ⟨kills.2.1.1, unread⟩
  · rcases inv.settled with ⟨who, phase⟩ | abandoned
    · obtain ⟨-, hand, place⟩ := phase.waiting waits
      refine fits_unsaid date status hand.kept fun other own => ?_
      cases hand.own.symm.trans own
      exact ⟨place.live, inv.unknown place.live place.wkr⟩
    · exact nomatch (abandoned.left req waits.1).1.symm.trans waits.2

/-- A call that shows what the worker sent is not fit. -/
theorem unread_of_fits (inv : reporting.Inv) {date : Date} {status : Status}
    (fits : reporting.Fits date status) (own : reporting.client.conn.req = some req) :
    (reporting.client.reqs req).respBufLen = 0 := by
  have live := fits.req req own
  by_contra announced
  have some := Nat.pos_of_ne_zero announced
  have said : reporting.said = Option.some (reporting.buf req).text := by
    unfold Reporting.said
    rw [own]
    exact if_pos some
  exact (inv.begun req live (inv.known req live some)).2.foreign (fits.own _ said)

theorem quiet (inv : reporting.Inv) {event : Client.Event} {date : Date}
    (fit : ∀ status, event.reports reporting.client = some status → reporting.Fits date status) :
    Quiet event reporting.client := by
  constructor
  · intro req kills
    have fits := fit _ (reports_of_kills kills)
    exact ⟨fits.conn, inv.unread_of_fits fits (inv.settled.own kills.2.1 fits.conn)⟩
  · intro same executing req own
    subst same
    exact inv.unread_of_fits (fit _ (reports_parseError executing)) own

end Inv

/-- The page with which the parser turns a request away. -/
theorem fits_say (date : Date) {refusal : Refusal} {message : List UInt8}
    (found : refusal.message = some message) (parses : reporting.client.Parses req) :
    (reporting.say req message).Fits date refusal.status := by
  obtain ⟨body, some, visible⟩ := Refusal.fits found
  have record : (reporting.say req message).client.reqs req =
      { reporting.client.reqs req with respBufLen := message.length } :=
    Function.update_self _ _ _
  have text : ((reporting.say req message).buf req).text =
      message.map fun byte => (Writer.head, byte) := by
    unfold say
    dsimp only
    rw [Function.update_self]
    exact RespBuf.text_write .head visible
  have said : (reporting.say req message).said =
      Option.some (message.map fun byte => (Writer.head, byte)) := by
    have own : (reporting.say req message).client.conn.req = Option.some req := parses.own
    unfold Reporting.said
    rw [own]
    dsimp only
    rw [record, if_pos (List.length_pos_of_ne_nil some), text]
  have plain : (message.map fun byte => (Writer.head, byte)).map Prod.snd = message := by
    rw [List.map_map]
    exact List.map_id' message
  have shown : (reporting.say req message).shown = Option.some message := by
    unfold Reporting.shown
    rw [said, Option.map_some, plain]
  refine ⟨parses.shows.kept, fun other own => ?_, ?_, ?_, fun known same => ?_⟩
  · cases parses.own.symm.trans own
    rw [record]
    exact parses.place.live
  · rw [shown]
    exact body
  · rw [shown]
    exact length_response date body
  · cases said.symm.trans same
    rw [plain]
    refine ⟨fun cell member => ?_, refusal, found⟩
    obtain ⟨byte, -, rfl⟩ := List.mem_map.mp member
    rfl

/-- The parser turns a request away whoever is at fault otherwise. -/
theorem quiet_reject {client : Client} {status : Status} (executing : client.executing = true) :
    Quiet (.reject status) client :=
  ⟨fun _ kills => (nomatch executing.symm.trans kills.1), nofun⟩

/-- Error pages fit and show messages of the head only, if and only if no error strikes a response
that a worker has announced. -/
theorem all_fit_iff (serverKeepAlive : Bool) (memory : Nat → List UInt8)
    (input : Nat → Moment) :
    AllFit serverKeepAlive memory input ↔ AllQuiet serverKeepAlive memory input := by
  constructor
  · intro fit count reporting reached before event prepared
    have inv := inv_after input count reporting reached
    rcases inv.prepare prepared with ⟨req, refusal, message, _, executing, _, rfl, same⟩ | kept
    · cases same
      exact quiet_reject executing
    · exact (kept.1).quiet fun status reports =>
        fit count reporting reached before event status prepared reports
  · intro quiet count reporting reached before event status prepared reports
    have inv := inv_after input count reporting reached
    rcases inv.prepare prepared with ⟨req, refusal, message, found, executing, parses, rfl, same⟩ |
      kept
    · cases same
      have working : (reporting.say req message).client.executing = true := executing
      unfold Event.reports at reports
      rw [if_pos working] at reports
      dsimp only at reports
      obtain ⟨-, -, rfl⟩ := Option.map_eq_some_iff.mp reports
      exact fits_say _ found parses
    · exact (kept.1).fits _ (quiet count reporting reached before event prepared) reports

/-- A worker announces a response of 1000 bytes, sends 600 of them, and dies. -/
def brokenInput (count : Nat) : Moment where
  date := ⟨ascii "Thu, 01 Jan 1970 00:00:00 GMT", by decide +kernel⟩
  event :=
    match count with
    | 0 => .other .readable
    | 1 => .other .start
    | 2 => .other (.headers true)
    | 3 => .other (.finish true true true)
    | 4 => .other .consumed
    | 5 => .reply 0 (ascii "20:CONTENT_LENGTH" ++ [0] ++ ascii "1000" ++ [0] ++ ascii ",")
    | 6 => .rest 0 (List.replicate 600 65)
    | _ => .other (.death 0)

theorem not_all_fit : ¬ AllFit true (fun _ => []) brokenInput := by
  intro fit
  have overflows : (after true (fun _ => []) brokenInput 7).any (fun reporting =>
      !reporting.client.executing && decide (reporting.client.Held 0) &&
        decide (512 ≤ (respBody .status500 reporting.shown).length)) = true := by
    decide +kernel
  obtain ⟨reporting, reached, fails⟩ := Option.any_eq_true _ _ |>.mp overflows
  simp only [Bool.and_eq_true, Bool.not_eq_true', decide_eq_true_eq] at fails
  obtain ⟨⟨still, held⟩, long⟩ := fails
  have kills : (Event.death 0).Kills reporting.client 0 := ⟨still, held, rfl⟩
  have fits := fit 7 reporting reached reporting (.death 0) .status500 rfl (reports_of_kills kills)
  exact absurd fits.body (Nat.not_lt.mpr long)

end Reporting
