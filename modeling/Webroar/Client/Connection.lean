import Mathlib.Data.List.Basic
import Mathlib.Logic.Function.Basic
import Webroar.Library.Transition

/-! # A client connection

libebb reads the requests of a connection and writes one buffer at a time to it. The head keeps
the response as a list of buffers, of which the first is being written, counts the responses it
owes, and points to the request it works on. The request points back, for as long as a worker uses
it even beyond the end of the connection; then a flag of the request says that the connection has
failed.

A request belongs to one connection only, so here is one connection with all its requests. Each
callback is a function; it has no result when it follows a pointer to an object that was freed.
-/

namespace Client

/-- `wr_resp_status_t`. -/
inductive Status where
  | status100 | status400 | status403 | status404 | status405 | status411 | status413 | status414
  | status500 | status501 | status503
deriving DecidableEq, Repr

/-- What a buffer is of the response it belongs to: a portion with more to come, the last portion,
or the whole page that reports an error. -/
inductive Kind where
  | part | last | error
deriving DecidableEq, Repr

/-- A buffer that was added to the response of a connection, with the number of the request it
answers. -/
structure Piece where
  owner : Nat
  kind : Kind
  bytes : List UInt8
deriving DecidableEq

/-- What `wr_req_t` holds for the response. `created` and `live` say whether the object was
allocated and is not freed yet, `queued` whether it waits in the message queue of its application,
`wkr` and `app` whether these pointers are set. -/
structure Req where
  created : Bool
  live : Bool
  app : Bool
  queued : Bool
  wkr : Bool
  usingWkr : Bool
  connErr : Bool
  respBufLen : Nat
  bytesReceived : Nat
deriving DecidableEq

namespace Req

/-- A number no request has yet. -/
def absent : Req := ⟨false, false, false, false, false, false, false, 0, 0⟩

/-- `wr_req_new`. -/
def new : Req := ⟨true, true, false, false, false, false, false, 0, 0⟩

end Req

/-- `wr_conn_t` with its `ebb_connection`. `toWrite` is the buffer that is being written while the
write watcher is active, `parsing` the number of the request in whose text the parser is. `pieces`
and `writes` record the buffers added to the response, and those that libebb took. -/
structure Conn where
  resp : List (List UInt8)
  respToWrite : Int
  keepAlive : Bool
  isClosed : Bool
  req : Option Nat
  freed : Bool
  opened : Bool
  reading : Bool
  toWrite : Option (List UInt8)
  currentRequest : Option Nat
  parsing : Option Nat
  pieces : List Piece
  writes : List (List UInt8)
deriving DecidableEq

end Client

open Client in
/-- A connection and its requests. `executing` says that the parser is at work; no other callback
runs then. -/
structure Client where
  conn : Conn
  reqs : Nat → Req
  nextReq : Nat
  executing : Bool

namespace Client

/-! ### The connection alone -/

namespace Conn

/-- `ebb_connection_write`, which takes nothing while it writes. -/
def ebbWrite (conn : Conn) (bytes : List UInt8) : Conn :=
  match conn.toWrite with
  | some _ => conn
  | none => { conn with toWrite := some bytes, writes := conn.writes ++ [bytes] }

/-- `wr_conn_free`. -/
def free (conn : Conn) : Conn := { conn with freed := true, resp := [] }

/-- A buffer is added to the response; the first one is written at once. -/
def add (conn : Conn) (piece : Piece) : Conn :=
  match conn.resp with
  | [] =>
      { conn with resp := [piece.bytes], pieces := conn.pieces ++ [piece] }.ebbWrite piece.bytes
  | _ :: _ =>
      { conn with resp := conn.resp ++ [piece.bytes], pieces := conn.pieces ++ [piece] }

/-- `wr_conn_resp_body_add`. -/
def respBodyAdd (conn : Conn) (piece : Piece) : Option Conn :=
  if conn.freed then none
  else if conn.isClosed then
    if conn.respToWrite = 0 then some conn.free else some conn
  else some (conn.add piece)

/-- `wr_conn_close_cb`. -/
def closeCb (conn : Conn) : Conn :=
  if conn.respToWrite ≤ 0 then conn.free else { conn with isClosed := true, keepAlive := false }

/-- `ebb_connection_schedule_close`: the watchers stop, and the head is told. -/
def scheduleClose (conn : Conn) : Conn :=
  { conn with opened := false, reading := false, toWrite := none }.closeCb

/-- `wr_conn_after_write_cb`, once libebb has written its buffer. -/
def afterWriteCb (serverKeepAlive : Bool) (conn : Conn) : Conn :=
  let conn := { conn with toWrite := none, resp := conn.resp.tail }
  match conn.resp, conn.isClosed with
  | next :: _, false => conn.ebbWrite next
  | _, _ =>
      if conn.respToWrite ≤ 0 then
        if serverKeepAlive && conn.keepAlive then conn else conn.scheduleClose
      else conn

/-- What `wr_req_free` does to the connection. -/
def release (conn : Conn) : Conn :=
  let conn := { conn with respToWrite := conn.respToWrite - 1, req := none }
  if conn.isClosed ∧ conn.respToWrite = 0 then conn.free else conn

/-- Reading stops and the parser forgets its request: `ebb_connection_stop_read` and what goes with
it in `wr_req_invalid`. -/
def stopRead (conn : Conn) : Conn :=
  { conn with
    keepAlive := false
    reading := false
    currentRequest := none
    respToWrite := if conn.respToWrite = 0 then 1 else conn.respToWrite }

end Conn

/-! ### Requests -/

variable (serverKeepAlive : Bool) (page : Nat → Status → List UInt8)

def setReq (client : Client) (req : Nat) (record : Req) : Client :=
  { client with reqs := Function.update client.reqs req record }

/-- The request object is freed, the connection is left alone. -/
def forget (client : Client) (req : Nat) : Client :=
  client.setReq req { client.reqs req with live := false }

/-- `wr_req_free`. -/
def reqFree (client : Client) (req : Nat) : Option Client :=
  if (client.reqs req).live then
    if (client.reqs req).connErr then some (client.forget req)
    else if client.conn.freed then none
    else some { client.forget req with conn := client.conn.release }
  else none

/-- What `wr_conn_err_resp` does with the request of the connection. -/
def dropRequest (client : Client) : Option Client :=
  if client.conn.freed then none
  else
    match client.conn.req with
    | none =>
        some { client with
          conn := { client.conn with respToWrite := client.conn.respToWrite - 1 } }
    | some req =>
        if (client.reqs req).live then
          if (client.reqs req).wkr && (client.reqs req).usingWkr then
            some { client.setReq req { client.reqs req with connErr := true } with
              conn := { client.conn with respToWrite := client.conn.respToWrite - 1 } }
          else (client.setReq req { client.reqs req with queued := false }).reqFree req
        else none

/-- `wr_conn_err_resp`, on account of a request. The page may depend on everything, so it goes by
the number of buffers that were added before. -/
def errResp (client : Client) (owner : Nat) (status : Status) : Option Client :=
  match { client.conn with keepAlive := false }.respBodyAdd
      ⟨owner, .error, page client.conn.pieces.length status⟩ with
  | some conn => { client with conn := conn }.dropRequest
  | none => none

/-- `wr_req_invalid`. -/
def reqInvalid (client : Client) (owner : Nat) (status : Status) : Option Client :=
  if client.conn.freed then none
  else { client with conn := client.conn.stopRead }.errResp page owner status

/-- `wr_new_req_cb`, when the parser finds the beginning of a request. While a response is owed the
request is not taken. -/
def newReqCb (client : Client) : Client :=
  let conn := { client.conn with parsing := some client.nextReq }
  if 0 < client.conn.respToWrite then
    { client with conn := conn, nextReq := client.nextReq + 1 }
  else
    { client.setReq client.nextReq Req.new with
      conn := { conn with req := some client.nextReq, currentRequest := some client.nextReq }
      nextReq := client.nextReq + 1 }

/-- The end of `wr_headers_complete_cb`: the application is looked up. -/
def resolve (client : Client) (req : Nat) (app : Bool) : Option Client :=
  if (client.reqs req).live then
    some (client.setReq req { client.reqs req with app := app })
  else none

/-- A worker takes the request: `wr_wkr_req_processing`. -/
def take (client : Client) (req : Nat) : Client :=
  client.setReq req { client.reqs req with queued := false, wkr := true, usingWkr := true }

/-- `wr_req_complete_cb`. The request is queued if its application is known and there is room, and a
worker may be there to take it. -/
def reqCompleteCb (client : Client) (req : Nat) (keepAlive room taken : Bool) : Option Client :=
  if (client.reqs req).live then
    let client := { client with conn := { client.conn with
      keepAlive := keepAlive, respToWrite := client.conn.respToWrite + 1 } }
    if (client.reqs req).app then
      if room then
        let client := client.setReq req { client.reqs req with queued := true }
        some (if taken then client.take req else client)
      else client.reqInvalid page req .status503
    else client.reqInvalid page req .status404
  else none

/-- `END_REQUEST` of the parser. -/
def endRequest (client : Client) (keepAlive room taken : Bool) : Option Client :=
  let conn := { client.conn with parsing := none }
  match client.conn.currentRequest with
  | none => some { client with conn := conn }
  | some req =>
      match { client with conn := conn }.reqCompleteCb page req keepAlive room taken with
      | some client => some { client with conn := { client.conn with currentRequest := none } }
      | none => none

/-- The number of the request that is at fault when the parser fails: the one the head works on,
otherwise the one in whose text the parser is, otherwise one that never began. -/
def faulty (client : Client) : Nat :=
  match client.conn.req with
  | some req => req
  | none => client.conn.parsing.getD client.nextReq

/-- `wr_req_parse_err_cb`. -/
def parseErrCb (client : Client) : Option Client :=
  let owner := client.faulty
  ({ client with
    executing := false
    nextReq := if owner = client.nextReq then client.nextReq + 1 else client.nextReq
    conn := { client.conn with keepAlive := false } }).reqInvalid page owner .status400

/-- `wr_conn_timeout_cb`; unless it asks to wait, libebb closes the connection. -/
def timeoutCb (client : Client) : Option Client :=
  if 0 < client.conn.respToWrite ∨ client.conn.resp ≠ [] then some client
  else
    match client.conn.req with
    | none => some { client with conn := client.conn.scheduleClose }
    | some req =>
        match client.reqFree req with
        | some client => some { client with conn := client.conn.scheduleClose }
        | none => none

/-! ### What a worker does with a request -/

/-- The part of `wr_wkr_free` that deals with the request. -/
def wkrFree (client : Client) (req : Nat) : Option Client :=
  (client.setReq req { client.reqs req with usingWkr := false }).errResp page req .status500

/-- The bytes go to the connection unless it has failed. -/
def passOn (client : Client) (req : Nat) (kind : Kind) (bytes : List UInt8) : Option Client :=
  if (client.reqs req).connErr then some client
  else
    match client.conn.respBodyAdd ⟨req, kind, bytes⟩ with
    | some conn => some { client with conn := conn }
    | none => none

/-- `wr_wkr_set_req` and the rest of `wr_resp_len_read_cb`: the length of the response is known, and
some of it may have come. -/
def setRespLen (client : Client) (req : Nat) (announced : Nat) (body : List UInt8) :
    Option Client :=
  if announced = 0 then client.wkrFree page req
  else
    let client := client.setReq req { client.reqs req with
      respBufLen := announced, bytesReceived := body.length }
    let kind := if announced = body.length then .last else .part
    match if body = [] then some client else client.passOn req kind body with
    | some client => if announced = body.length then client.reqFree req else some client
    | none => none

/-- `wr_resp_read_cb` with the bytes it read; none is an error of the worker. -/
def respReadCb (client : Client) (req : Nat) (read : List UInt8) : Option Client :=
  if read = [] then client.wkrFree page req
  else
    let received := (client.reqs req).bytesReceived + read.length
    let ended := (client.reqs req).respBufLen ≤ received
    let client := client.setReq req { client.reqs req with bytesReceived := received }
    match client.passOn req (if ended then .last else .part) read with
    | some client => if ended then client.reqFree req else some client
    | none => none

/-- `wr_app_free` for a request that waits in the queue. -/
def appFree (client : Client) (req : Nat) : Option Client :=
  (client.setReq req { client.reqs req with queued := false }).errResp page req .status500

end Client

/-! ### The system -/

/-- The callbacks. `readable` starts the parser on what was received, the ones up to `parseError`
are its own, and the others come from libebb, from workers, or with the end of the application. A
worker dies on one of several paths, all of which lead to `wr_wkr_free`. -/
inductive Client.Event where
  | readable
  | start
  | headers (app : Bool)
  | tempFail
  | reject (status : Client.Status)
  | finish (keepAlive room taken : Bool)
  | consumed
  | parseError
  | written
  | lost
  | timeout
  | taken (req : Nat)
  | head (req announced : Nat) (body : List UInt8)
  | part (req : Nat) (read : List UInt8)
  | death (req : Nat)
  | removed (req : Nat)

namespace Client

variable (serverKeepAlive : Bool) (page : Nat → Status → List UInt8)

/-- A worker uses the request. -/
def Held (client : Client) (req : Nat) : Prop :=
  (client.reqs req).live = true ∧ (client.reqs req).usingWkr = true

instance (client : Client) (req : Nat) : Decidable (client.Held req) :=
  inferInstanceAs (Decidable (_ ∧ _))

/-- The request waits in the queue of its application. -/
def Waits (client : Client) (req : Nat) : Prop :=
  (client.reqs req).live = true ∧ (client.reqs req).queued = true

instance (client : Client) (req : Nat) : Decidable (client.Waits req) :=
  inferInstanceAs (Decidable (_ ∧ _))

/-- A callback of the parser for the request that it is parsing. -/
def parse (client : Client) (callback : Nat → Option Client) : Option Client :=
  match client.conn.currentRequest with
  | some req => callback req
  | none => some client

/-- What happens while the parser is at work. When the temporary file for a large body cannot be
opened the request is freed, but the parser goes on with it. -/
def stepParser (event : Event) (client : Client) : Option Client :=
  match event with
  | .start => if client.conn.parsing = none then some client.newReqCb else some client
  | .headers app => client.parse fun req => client.resolve req app
  | .tempFail => client.parse fun _ => none
  | .reject status => client.parse fun req => client.reqInvalid page req status
  | .finish keepAlive room taken =>
      if client.conn.parsing = none then some client
      else client.endRequest page keepAlive room taken
  | .consumed => some { client with executing := false }
  | .parseError => client.parseErrCb page
  | _ => some client

/-- What happens otherwise. -/
def stepOther (event : Event) (client : Client) : Option Client :=
  match event with
  | .readable =>
      some (if client.conn.opened && client.conn.reading then { client with executing := true }
        else client)
  | .written =>
      some (if client.conn.opened ∧ client.conn.toWrite.isSome then
          { client with conn := client.conn.afterWriteCb serverKeepAlive }
        else client)
  | .lost =>
      some (if client.conn.opened ∧ (client.conn.reading ∨ client.conn.toWrite.isSome) then
          { client with conn := client.conn.scheduleClose }
        else client)
  | .timeout => if client.conn.opened then client.timeoutCb else some client
  | .taken req => some (if client.Waits req then client.take req else client)
  | .head req announced body =>
      if client.Held req ∧ (client.reqs req).respBufLen = 0 then
        client.setRespLen page req announced body
      else some client
  | .part req read =>
      if client.Held req ∧ (client.reqs req).respBufLen ≠ 0 then client.respReadCb page req read
      else some client
  | .death req => if client.Held req then client.wkrFree page req else some client
  | .removed req => if client.Waits req then client.appFree page req else some client
  | _ => some client

/-- One callback. What is not due in a state has no effect. -/
def step (event : Event) (client : Client) : Option Client :=
  if client.executing then client.stepParser page event
  else client.stepOther serverKeepAlive page event

/-- A connection that was accepted: `wr_conn_new`. -/
def accepted : Client where
  conn := ⟨[], 0, false, false, none, false, true, true, none, none, none, [], []⟩
  reqs := fun _ => Req.absent
  nextReq := 0
  executing := false

/-- The connection after some callbacks, unless one of them followed a pointer to a freed object. -/
def after (input : Nat → Event) (count : Nat) : Option Client :=
  Machine.after (Machine.attempt (step serverKeepAlive page)) input (some accepted) count

end Client
