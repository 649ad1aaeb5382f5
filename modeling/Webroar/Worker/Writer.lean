import Webroar.Scgi.Rename
import Webroar.Scgi.Send
import Webroar.Worker.Response

/-! # Writing a response

A worker writes a response to its data socket with four callbacks: one for the block, one for the
header, one for a body in memory and one for a body in a file. Each of them goes on where its last
call ended, and registers the next one when its part is written; the progress counter is set back in
between. Behind the last byte the response is set back and the socket waits for a request again.

A callback is called when there is room on the socket; `send` and `sendfile` take what there is room
for, and do not fail here.
-/

namespace Worker

open Scgi (scgiEntry)

/-- A response. -/
structure HttpResp where
  respCode : UInt16
  bytesWrite : Nat
  scgi : Option Scgi
  /-- The bytes of the body, NULL when there is none or when it is in the file. -/
  bodyStr : Option (List UInt8)
  bodyLen : Nat
  header : List UInt8
  /-- What the file behind the descriptor holds; there is none when the descriptor is 0. -/
  file : Option (List UInt8)

namespace HttpResp

def new : HttpResp where
  respCode := 0
  bytesWrite := 0
  scgi := none
  bodyStr := none
  bodyLen := 0
  header := []
  file := none

/-- Set a response back; the file is closed, but its descriptor stays. -/
def set (resp : HttpResp) : HttpResp := { new with file := resp.file }

/-- Build the block of a response. -/
def process (junk : Nat → UInt8) (resp : HttpResp) : HttpResp :=
  { resp with
    scgi := some
      (httpRespProcess junk resp.respCode.toNat resp.bodyLen resp.header.length) }

/-- The block that announces a response. -/
def block (junk : Nat → UInt8) (resp : HttpResp) : List UInt8 :=
  (httpRespProcess junk resp.respCode.toNat resp.bodyLen resp.header.length).block

end HttpResp

/-- The callback that is registered for the data socket. -/
inductive Watcher where
  | scgi
  | header
  | body
  | file
  /-- A request is read. -/
  | request
  | stopped
deriving DecidableEq, Repr

/-- A response that is being written, and what was written to the data socket so far. -/
structure Writer where
  resp : HttpResp
  /-- Is this a worker for static files? -/
  static : Bool
  watcher : Watcher
  written : List UInt8

namespace Writer

/-- All is written: the response is set back and the socket waits for a request. -/
def done (writer : Writer) : Writer :=
  { writer with resp := writer.resp.set, watcher := .request }

/-- Send a part of the body. -/
def bodySend (bytes : List UInt8) (room : Nat) (writer : Writer) : Writer :=
  let resp := writer.resp
  let sent := Stream.send ((bytes.drop resp.bytesWrite).take (resp.bodyLen - resp.bytesWrite)) room
  let writer := { writer with
    resp := { resp with bytesWrite := resp.bytesWrite + sent.length }
    written := writer.written ++ sent }
  if writer.resp.bodyLen ≤ writer.resp.bytesWrite then writer.done else writer

def httpRespBodyWriteCb (room : Nat) (writer : Writer) : Writer :=
  writer.bodySend (writer.resp.bodyStr.getD []) room

def httpRespFileSendCb (room : Nat) (writer : Writer) : Writer :=
  writer.bodySend (writer.resp.file.getD []) room

def httpRespHeaderWriteCb (room : Nat) (writer : Writer) : Writer :=
  let resp := writer.resp
  let sent := Stream.send (resp.header.drop resp.bytesWrite) room
  let writer := { writer with
    resp := { resp with bytesWrite := resp.bytesWrite + sent.length }
    written := writer.written ++ sent }
  if writer.resp.header.length ≤ writer.resp.bytesWrite then
    if 0 < writer.resp.bodyLen then
      { writer with
        resp := { writer.resp with bytesWrite := 0 }
        watcher :=
          if writer.static && writer.resp.respCode == 200 && writer.resp.bodyStr.isNone then .file
          else .body }
    else
      writer.done
  else
    writer

def httpRespScgiWriteCb (room : Nat) (writer : Writer) : Writer :=
  match writer.resp.scgi with
  | none => { writer with watcher := .stopped }
  | some scgi =>
      let (scgi, result, sent) := scgi.send room
      let writer := { writer with
        resp := { writer.resp with scgi := some scgi }
        written := writer.written ++ sent }
      if result ≤ 0 then
        { writer with watcher := .stopped }
      else if scgi.length ≤ scgi.bytesSent then
        { writer with resp := { writer.resp with bytesWrite := 0 }, watcher := .header }
      else
        writer

/-- There is room on the socket. -/
def event (room : Nat) (writer : Writer) : Writer :=
  match writer.watcher with
  | .scgi => writer.httpRespScgiWriteCb room
  | .header => writer.httpRespHeaderWriteCb room
  | .body => writer.httpRespBodyWriteCb room
  | .file => writer.httpRespFileSendCb room
  | .request => writer
  | .stopped => writer

/-- A response that is complete: its block is built and the first callback is registered. -/
def start (junk : Nat → UInt8) (static : Bool) (resp : HttpResp) : Writer where
  resp := resp.process junk
  static := static
  watcher := .scgi
  written := []

/-- The response after some events, when the n-th finds room for `rooms n` bytes. -/
def after (writer : Writer) (rooms : Nat → Nat) (count : Nat) : Writer :=
  Machine.after event rooms writer count

variable {writer : Writer} {block header body : List UInt8} {file : Option (List UInt8)}
  {room : Nat}

/-! ### What is on its way -/

/-- A response carries its body in memory or in a file, or there is none. -/
def Carries (static : Bool) (resp : HttpResp) (body : List UInt8) : Prop :=
  resp.bodyLen = body.length ∧
    (resp.bodyStr = some body ∨ resp.bodyStr = none ∧ body = [] ∨
      static = true ∧ resp.respCode = 200 ∧ resp.bodyStr = none ∧ resp.file = some body)

/-- What stays as it is while a response is written. -/
structure Holding (writer : Writer) (header body : List UInt8) (file : Option (List UInt8)) :
    Prop where
  carries : Carries writer.static writer.resp body
  header : writer.resp.header = header
  built : writer.resp.scgi ≠ none
  file : writer.resp.file = file

/-- How far a response is. -/
def At (writer : Writer) (block header body : List UInt8) (file : Option (List UInt8)) : Prop :=
  match writer.watcher with
  | .scgi => writer.Holding header body file ∧ ∃ scgi, writer.resp.scgi = some scgi ∧
      scgi.length = block.length ∧ scgi.block = block ∧ scgi.body.getD [] = [] ∧
      scgi.bytesSent < block.length ∧ writer.written = block.take scgi.bytesSent
  | .header => writer.Holding header body file ∧ writer.resp.bytesWrite < header.length ∧
      writer.written = block ++ header.take writer.resp.bytesWrite
  | .body => writer.Holding header body file ∧ writer.resp.bodyStr = some body ∧
      writer.resp.bytesWrite < body.length ∧
      writer.written = block ++ (header ++ body.take writer.resp.bytesWrite)
  | .file => writer.Holding header body file ∧ writer.resp.file = some body ∧
      writer.resp.bytesWrite < body.length ∧
      writer.written = block ++ (header ++ body.take writer.resp.bytesWrite)
  | .request => writer.written = block ++ (header ++ body) ∧
      writer.resp = { HttpResp.new with file := file }
  | .stopped => False

/-- A part of which something is left is brought on, and what was written of it grows by that. -/
theorem send_part {part : List UInt8} {sent : Nat} (missing : sent < part.length)
    (arrived : 0 < room) :
    ∃ piece, Stream.send (part.drop sent) room = piece ∧ 0 < piece.length ∧
      sent + piece.length ≤ part.length ∧ part.take (sent + piece.length) = part.take sent ++ piece := by
  obtain ⟨shape, -, positive⟩ := Stream.send_spec (part.drop sent) room
  have some : part.drop sent ≠ [] := by
    apply List.ne_nil_of_length_pos
    rw [List.length_drop]
    omega
  refine ⟨_, rfl, positive some arrived, ?_, Stream.take_piece shape⟩
  have measured := congrArg List.length shape
  rw [List.length_drop, List.length_append] at measured
  omega

theorem At.httpRespScgiWriteCb (going : writer.At block header body file)
    (registered : writer.watcher = .scgi) (positive : header ≠ []) (arrived : 0 < room) :
    (writer.httpRespScgiWriteCb room).At block header body file ∧
      writer.written.length < (writer.httpRespScgiWriteCb room).written.length := by
  rw [At, registered] at going
  obtain ⟨holding, scgi, found, length, finished, held, missing, written⟩ := going
  have total : scgi.length = block.length + ([] : List UInt8).length := length
  obtain ⟨piece, rest, some, small, left, result⟩ :=
    Scgi.send_unfinished total finished held missing arrived
  rw [List.append_nil] at left
  have extended := Stream.take_piece left
  have measured := congrArg List.length left
  rw [List.length_drop, List.length_append] at measured
  have taken : ¬ Decimal.toInt32 piece.length ≤ 0 := by
    rw [Decimal.toInt32_of_lt small]
    omega
  unfold Writer.httpRespScgiWriteCb
  rw [found]
  simp only [result, if_neg taken]
  have longer : writer.written.length < (writer.written ++ piece).length := by
    rw [List.length_append]
    omega
  by_cases last : scgi.length ≤ scgi.bytesSent + piece.length
  · rw [if_pos last]
    have whole : scgi.bytesSent + piece.length = block.length := by omega
    refine ⟨⟨⟨holding.carries, holding.header, nofun, holding.file⟩, ?_, ?_⟩, longer⟩
    · exact List.length_pos_of_ne_nil positive
    · dsimp only
      rw [written, ← extended, whole, List.take_length, List.take_zero, List.append_nil]
  · rw [if_neg last]
    refine ⟨?_, longer⟩
    rw [At]
    dsimp only
    rw [registered]
    refine ⟨⟨holding.carries, holding.header, nofun, holding.file⟩, _, rfl, length, finished,
      held, length ▸ Nat.lt_of_not_le last, ?_⟩
    rw [written, extended]

theorem At.httpRespHeaderWriteCb (going : writer.At block header body file)
    (registered : writer.watcher = .header) (arrived : 0 < room) :
    (writer.httpRespHeaderWriteCb room).At block header body file ∧
      writer.written.length < (writer.httpRespHeaderWriteCb room).written.length := by
  rw [At, registered] at going
  obtain ⟨⟨⟨bodyLen, carried⟩, rfl, built, kept⟩, missing, written⟩ := going
  obtain ⟨piece, result, some, within, extended⟩ := send_part missing arrived
  unfold Writer.httpRespHeaderWriteCb
  dsimp only
  rw [result]
  have longer : writer.written.length < (writer.written ++ piece).length := by
    rw [List.length_append]
    omega
  have more : writer.written ++ piece =
      block ++ writer.resp.header.take (writer.resp.bytesWrite + piece.length) := by
    rw [written, extended, List.append_assoc]
  by_cases last : writer.resp.header.length ≤ writer.resp.bytesWrite + piece.length
  · rw [if_pos last]
    rw [List.take_of_length_le last] at more
    by_cases nonempty : 0 < writer.resp.bodyLen
    · rw [if_pos nonempty]
      refine ⟨?_, longer⟩
      have start : writer.written ++ piece =
          block ++ (writer.resp.header ++ body.take 0) := by
        rw [more, List.take_zero, List.append_nil]
      have positive : 0 < body.length := bodyLen ▸ nonempty
      have holding := carried
      unfold At
      dsimp only
      rcases carried with memory | ⟨-, empty⟩ | ⟨static, code, null, stored⟩
      · have chosen : (writer.static && writer.resp.respCode == 200 &&
            writer.resp.bodyStr.isNone) = false := by
          rw [memory, Option.isNone_some, Bool.and_false]
        rw [chosen, if_neg Bool.false_ne_true]
        exact ⟨⟨⟨bodyLen, holding⟩, rfl, built, kept⟩, memory, positive, start⟩
      · rw [empty] at positive
        exact absurd positive (Nat.lt_irrefl 0)
      · have chosen : (writer.static && writer.resp.respCode == 200 &&
            writer.resp.bodyStr.isNone) = true := by
          rw [static, code, null]
          rfl
        rw [chosen, if_pos rfl]
        exact ⟨⟨⟨bodyLen, holding⟩, rfl, built, kept⟩, stored, positive, start⟩
    · rw [if_neg nonempty]
      have empty : body = [] := List.eq_nil_of_length_eq_zero (by omega)
      refine ⟨⟨?_, ?_⟩, longer⟩
      · dsimp only [done]
        rw [more, empty, List.append_nil]
      · dsimp only [done, HttpResp.set]
        rw [kept]
  · rw [if_neg last]
    refine ⟨?_, longer⟩
    unfold At
    dsimp only
    rw [registered]
    exact ⟨⟨⟨bodyLen, carried⟩, rfl, built, kept⟩, Nat.lt_of_not_le last, more⟩

/-- A part of the body is sent, and behind the last one the response is done. -/
theorem bodySend_spec (bodyLen : writer.resp.bodyLen = body.length)
    (missing : writer.resp.bytesWrite < body.length)
    (written : writer.written = block ++ (header ++ body.take writer.resp.bytesWrite))
    (arrived : 0 < room) :
    writer.written.length < (writer.bodySend body room).written.length ∧
    ((writer.bodySend body room).written = block ++ (header ++ body) ∧
        (writer.bodySend body room).watcher = .request ∧
        (writer.bodySend body room).resp = writer.resp.set ∨
      ∃ count < body.length, writer.bodySend body room =
        { writer with
          resp := { writer.resp with bytesWrite := count }
          written := block ++ (header ++ body.take count) }) := by
  obtain ⟨piece, result, some, within, extended⟩ := send_part missing arrived
  have left : (body.drop writer.resp.bytesWrite).take
      (writer.resp.bodyLen - writer.resp.bytesWrite) = body.drop writer.resp.bytesWrite :=
    List.take_of_length_le (by rw [List.length_drop, bodyLen])
  have more : writer.written ++ piece =
      block ++ (header ++ body.take (writer.resp.bytesWrite + piece.length)) := by
    rw [written, extended, List.append_assoc, List.append_assoc]
  have longer : writer.written.length < (writer.written ++ piece).length := by
    rw [List.length_append]
    omega
  unfold bodySend
  dsimp only
  rw [left, result, more]
  rw [more] at longer
  by_cases last : writer.resp.bodyLen ≤ writer.resp.bytesWrite + piece.length
  · rw [if_pos last]
    refine ⟨longer, .inl ⟨?_, rfl, rfl⟩⟩
    dsimp only [done]
    rw [List.take_of_length_le (bodyLen ▸ last)]
  · rw [if_neg last]
    exact ⟨longer, .inr ⟨_, bodyLen ▸ Nat.lt_of_not_le last, rfl⟩⟩

theorem At.httpRespBodyWriteCb (going : writer.At block header body file)
    (registered : writer.watcher = .body) (arrived : 0 < room) :
    (writer.httpRespBodyWriteCb room).At block header body file ∧
      writer.written.length < (writer.httpRespBodyWriteCb room).written.length := by
  rw [At, registered] at going
  obtain ⟨holding, memory, missing, written⟩ := going
  obtain ⟨longer, outcome⟩ := bodySend_spec holding.carries.1 missing written arrived
  rw [Writer.httpRespBodyWriteCb, memory, Option.getD_some]
  refine ⟨?_, longer⟩
  rcases outcome with ⟨all, request, reset⟩ | ⟨count, short, going⟩
  · rw [At, request, reset, HttpResp.set, holding.file]
    exact ⟨all, rfl⟩
  · rw [going, At]
    dsimp only
    rw [registered]
    exact ⟨⟨holding.carries, holding.header, holding.built, holding.file⟩, memory, short, rfl⟩

theorem At.httpRespFileSendCb (going : writer.At block header body file)
    (registered : writer.watcher = .file) (arrived : 0 < room) :
    (writer.httpRespFileSendCb room).At block header body file ∧
      writer.written.length < (writer.httpRespFileSendCb room).written.length := by
  rw [At, registered] at going
  obtain ⟨holding, stored, missing, written⟩ := going
  obtain ⟨longer, outcome⟩ := bodySend_spec holding.carries.1 missing written arrived
  rw [Writer.httpRespFileSendCb, stored, Option.getD_some]
  refine ⟨?_, longer⟩
  rcases outcome with ⟨all, request, reset⟩ | ⟨count, short, going⟩
  · rw [At, request, reset, HttpResp.set, holding.file]
    exact ⟨all, rfl⟩
  · rw [going, At]
    dsimp only
    rw [registered]
    exact ⟨⟨holding.carries, holding.header, holding.built, holding.file⟩, stored, short, rfl⟩

/-- Room on the socket brings a response on. -/
theorem At.event (going : writer.At block header body file) (positive : header ≠ [])
    (arrived : 0 < room) :
    (writer.event room).At block header body file ∧
      (writer.watcher ≠ .request →
        writer.written.length < (writer.event room).written.length) := by
  unfold Writer.event
  cases registered : writer.watcher with
  | scgi =>
      obtain ⟨next, longer⟩ := going.httpRespScgiWriteCb registered positive arrived
      exact ⟨next, fun _ => longer⟩
  | header =>
      obtain ⟨next, longer⟩ := going.httpRespHeaderWriteCb registered arrived
      exact ⟨next, fun _ => longer⟩
  | body =>
      obtain ⟨next, longer⟩ := going.httpRespBodyWriteCb registered arrived
      exact ⟨next, fun _ => longer⟩
  | file =>
      obtain ⟨next, longer⟩ := going.httpRespFileSendCb registered arrived
      exact ⟨next, fun _ => longer⟩
  | request => exact ⟨going, fun other => absurd rfl other⟩
  | stopped =>
      rw [At, registered] at going
      exact going.elim

/-! ### A whole response -/

/-- What was written is a beginning of the response, and the socket waits for a request exactly when
that is the whole response. -/
theorem At.prefixed (going : writer.At block header body file) (positive : header ≠ []) :
    writer.written <+: block ++ (header ++ body) ∧
      (writer.watcher = .request ↔ writer.written = block ++ (header ++ body)) := by
  have headed := List.length_pos_of_ne_nil positive
  unfold At at going
  cases registered : writer.watcher with
  | scgi =>
      rw [registered] at going
      obtain ⟨-, scgi, -, -, -, -, missing, written⟩ := going
      refine ⟨?_, nofun, fun same => ?_⟩
      · rw [written]
        exact (List.take_prefix _ _).trans (List.prefix_append _ _)
      · have measured := congrArg List.length (written.symm.trans same)
        simp only [List.length_take, List.length_append] at measured
        omega
  | header =>
      rw [registered] at going
      obtain ⟨-, missing, written⟩ := going
      refine ⟨?_, nofun, fun same => ?_⟩
      · rw [written, List.prefix_append_right_inj]
        exact (List.take_prefix _ _).trans (List.prefix_append _ _)
      · have measured := congrArg List.length (written.symm.trans same)
        simp only [List.length_take, List.length_append] at measured
        omega
  | body =>
      rw [registered] at going
      obtain ⟨-, -, missing, written⟩ := going
      refine ⟨?_, nofun, fun same => ?_⟩
      · rw [written, List.prefix_append_right_inj, List.prefix_append_right_inj]
        exact List.take_prefix _ _
      · have measured := congrArg List.length (written.symm.trans same)
        simp only [List.length_take, List.length_append] at measured
        omega
  | file =>
      rw [registered] at going
      obtain ⟨-, -, missing, written⟩ := going
      refine ⟨?_, nofun, fun same => ?_⟩
      · rw [written, List.prefix_append_right_inj, List.prefix_append_right_inj]
        exact List.take_prefix _ _
      · have measured := congrArg List.length (written.symm.trans same)
        simp only [List.length_take, List.length_append] at measured
        omega
  | request =>
      rw [registered] at going
      exact ⟨going.1 ▸ List.prefix_rfl, fun _ => going.1, fun _ => rfl⟩
  | stopped =>
      rw [registered] at going
      exact going.elim

/-- A response that is not done has its block. -/
theorem At.resp_eq (going : writer.At block header body file) :
    writer.resp = HttpResp.new ↔ writer.watcher = .request ∧ file = none := by
  have unfinished (holding : writer.Holding header body file) : writer.resp ≠ HttpResp.new := by
    intro same
    exact holding.built (congrArg HttpResp.scgi same)
  unfold At at going
  cases registered : writer.watcher with
  | request =>
      rw [registered] at going
      rw [going.2]
      constructor
      · intro same
        exact ⟨rfl, congrArg HttpResp.file same⟩
      · rintro ⟨-, rfl⟩
        rfl
  | stopped =>
      rw [registered] at going
      exact going.elim
  | scgi =>
      rw [registered] at going
      exact iff_of_false (unfinished going.1) nofun
  | header =>
      rw [registered] at going
      exact iff_of_false (unfinished going.1) nofun
  | body =>
      rw [registered] at going
      exact iff_of_false (unfinished going.1) nofun
  | file =>
      rw [registered] at going
      exact iff_of_false (unfinished going.1) nofun

/-- A block that is just built is not sent, and there is no body behind it. -/
theorem httpRespProcess_fresh (junk : Nat → UInt8) (respCode : Int) (bodyLen headerLen : Nat) :
    (httpRespProcess junk respCode bodyLen headerLen).body.getD [] = [] ∧
      (httpRespProcess junk respCode bodyLen headerLen).bytesSent = 0 ∧
      (httpRespProcess junk respCode bodyLen headerLen).length =
        (httpRespProcess junk respCode bodyLen headerLen).block.length := by
  have layout := (((Scgi.Layout.new junk).headerAdd respCodeName
    (Decimal.ofInt (Decimal.toInt32 respCode))).headerAdd respContentLenName
      (Decimal.format bodyLen)).contentLengthAdd (bodyLen + headerLen)
  have built : (httpRespProcess junk respCode bodyLen headerLen).length =
      (httpRespProcess junk respCode bodyLen headerLen).block.length +
        (httpRespProcess junk respCode bodyLen headerLen).bodyLength :=
    layout.build_of_length.length
  have body : (httpRespProcess junk respCode bodyLen headerLen).body = none := by
    rw [httpRespProcess, Scgi.body_build, (Scgi.frame_contentLengthAdd ..).1,
      (Scgi.frame_headerAdd ..).1, (Scgi.frame_headerAdd ..).1, (Scgi.frame_new junk).1]
  refine ⟨by rw [body]; rfl, ?_, ?_⟩
  · rw [httpRespProcess, Scgi.bytesSent_build, (Scgi.frame_contentLengthAdd ..).2,
      (Scgi.frame_headerAdd ..).2, (Scgi.frame_headerAdd ..).2, (Scgi.frame_new junk).2]
  · rw [built, Scgi.bodyLength, body, Option.getD_none, List.length_nil, Nat.add_zero]

/-- A complete response is about to be written. -/
theorem at_start (junk : Nat → UInt8) {static : Bool} {resp : HttpResp} {body : List UInt8}
    (carries : Carries static resp body) :
    (start junk static resp).At (resp.block junk) resp.header body resp.file := by
  obtain ⟨held, unsent, length⟩ :=
    httpRespProcess_fresh junk resp.respCode.toNat resp.bodyLen resp.header.length
  refine ⟨⟨carries, rfl, nofun, rfl⟩, _, rfl, length, rfl, held, ?_, ?_⟩
  · rw [unsent, HttpResp.block, block_httpRespProcess, Scgi.length_frame]
    exact Nat.succ_pos _
  · rw [unsent]
    rfl

variable {rooms : Nat → Nat}

theorem At.after (going : writer.At block header body file) (positive : header ≠ [])
    (arriving : ∀ count, 0 < rooms count) (count : Nat) :
    (writer.after rooms count).At block header body file :=
  Machine.invariant (fun next : Writer => next.At block header body file) going
    (fun count _ going => (going.event positive (arriving count)).1) count

/-- The socket comes to wait for a request, and goes on to. -/
theorem At.ends (going : writer.At block header body file) (positive : header ≠ [])
    (arriving : ∀ count, 0 < rooms count) :
    ∃ last, ∀ count, last ≤ count → (writer.after rooms count).watcher = .request := by
  obtain ⟨last, waits, -, -⟩ := Machine.reaches
    (fun next : Writer => next.At block header body file)
    (fun next => next.watcher = .request)
    (fun next => (block ++ (header ++ body)).length - next.written.length) going
    fun count next going goal => by
      obtain ⟨kept, longer⟩ := going.event positive (arriving count)
      have bound := (kept.prefixed positive).1.length_le
      have more := longer goal
      exact ⟨kept, by omega⟩
  refine ⟨last, Machine.invariant_from (fun next : Writer => next.watcher = .request) waits ?_⟩
  intro _ next waiting
  rw [Writer.event, waiting]
  exact waiting

/-- The block, the header and the body are written in order, each of them once, and the socket goes
back to waiting for a request with the last byte and not before. -/
def Writes (writer : Writer) (rooms : Nat → Nat) (stream : List UInt8) : Prop :=
  (∃ last, ∀ count, last ≤ count → (writer.after rooms count).watcher = .request) ∧
    ∀ count, (writer.after rooms count).written <+: stream ∧
      ((writer.after rooms count).watcher = .request ↔
        (writer.after rooms count).written = stream)

/-- The content length that is read from a block is `total`. -/
def Announces (block : List UInt8) (total : Nat) : Prop :=
  ((Scgi.parse block).bind fun scgi => scgi.headerValueGet Scgi.contentLengthName) =
    some (Decimal.ofNat total)

/-- A response is written as it should be: all its bytes in order, behind a block that announces
their number, and it is set back with the last byte and not before. -/
structure Rightly (junk : Nat → UInt8) (static : Bool) (resp : HttpResp) (body : List UInt8)
    (rooms : Nat → Nat) : Prop where
  writes : (start junk static resp).Writes rooms (resp.block junk ++ (resp.header ++ body))
  announces : Announces (resp.block junk) (resp.header.length + body.length)
  resets : ∀ count, ((start junk static resp).after rooms count).resp = HttpResp.new ↔
    ((start junk static resp).after rooms count).written =
      resp.block junk ++ (resp.header ++ body)

/-- The digits of two numbers are the same only for the same number. -/
theorem ofNat_inj {first second : Nat} (same : Decimal.ofNat first = Decimal.ofNat second) :
    first = second := by
  rw [← Decimal.readDigits_ofNat first, same, Decimal.readDigits_ofNat]

/-- A number prints as its digits just when an `int` holds it. -/
theorem format_eq_iff (n : Nat) : Decimal.format n = Decimal.ofNat n ↔ n < 2 ^ 31 := by
  constructor
  · intro same
    have bounds := Decimal.toInt32_bounds n
    rw [Decimal.format] at same
    cases value : Decimal.toInt32 n with
    | ofNat m =>
        rw [value] at same bounds
        obtain rfl := ofNat_inj same
        exact Int.ofNat_lt.mp bounds.2
    | negSucc m =>
        rw [value, Decimal.ofInt] at same
        have minus : (45 : UInt8) ∈ Decimal.ofNat n := same ▸ List.mem_cons_self
        exact absurd (Decimal.isDigit_of_mem_ofNat minus) (by decide)
  · exact Decimal.format_of_lt

/-- A block announces the length of the response just when an `int` holds it. -/
theorem announces_iff (junk : Nat → UInt8) (resp : HttpResp) (total : Nat)
    (length : resp.bodyLen + resp.header.length = total) :
    Announces (resp.block junk) total ↔ total < 2 ^ 31 := by
  have clean := clean_respItems resp.respCode.toNat resp.bodyLen resp.header.length
  have short : (Scgi.frame (respItems resp.respCode.toNat resp.bodyLen
      resp.header.length)).length < 2 ^ 31 := by
    have scgi : scgiEntry.1.length + scgiEntry.2.length + 2 = 7 := by decide
    have code : respCodeName.length = 9 := by decide
    have content : respContentLenName.length = 16 := by decide
    have status : (Decimal.format resp.respCode.toNat).length ≤ 11 := Decimal.length_format_le _
    have first := Scgi.length_contentLengthEntry_le (resp.bodyLen + resp.header.length)
    have second := Decimal.length_format_le resp.bodyLen
    have digits := Decimal.length_format_le (Scgi.encode (respItems resp.respCode.toNat
      resp.bodyLen resp.header.length)).length
    rw [Scgi.length_frame]
    simp only [respItems, Scgi.encode_cons, Scgi.encode_nil, List.length_append,
      Scgi.length_encodeEntry, scgi, code, content, List.length_nil] at digits first ⊢
    rw [Decimal.format] at status
    omega
  obtain ⟨scgi, parsed, back⟩ := Scgi.parse_frame _ [] clean short
  rw [List.append_nil] at parsed
  have found : scgi.headerValueGet Scgi.contentLengthName = some (Decimal.format total) := by
    rw [back.holds.headerValueGet fun item member => (clean item member).2, ← length]
    have names : ((respItems resp.respCode.toNat resp.bodyLen resp.header.length).map
        Prod.fst).Nodup := by
      change [Scgi.contentLengthName, ascii "SCGI", respCodeName, respContentLenName].Nodup
      decide
    exact Scgi.latest_of_mem names List.mem_cons_self
  rw [Announces, HttpResp.block, block_httpRespProcess, parsed, Option.bind_some, found,
    Option.some_inj]
  exact format_eq_iff total

section

variable {junk : Nat → UInt8} {static : Bool} {resp : HttpResp}

theorem writes (carries : Carries static resp body) (positive : resp.header ≠ [])
    (arriving : ∀ count, 0 < rooms count) :
    (start junk static resp).Writes rooms (resp.block junk ++ (resp.header ++ body)) :=
  ⟨(at_start junk carries).ends positive arriving,
    fun count => ((at_start junk carries).after positive arriving count).prefixed positive⟩

/-- The response is set back with the last byte just when there is no file. -/
theorem resets_iff (carries : Carries static resp body) (positive : resp.header ≠ [])
    (arriving : ∀ count, 0 < rooms count) :
    (∀ count, ((start junk static resp).after rooms count).resp = HttpResp.new ↔
      ((start junk static resp).after rooms count).written =
        resp.block junk ++ (resp.header ++ body)) ↔ resp.file = none := by
  have always := (at_start junk carries).after positive arriving
  have all : (start junk static resp).Writes rooms (resp.block junk ++ (resp.header ++ body)) :=
    writes carries positive arriving
  obtain ⟨⟨last, waits⟩, meant⟩ := all
  constructor
  · intro resets
    have written := (meant last).2.mp (waits last (Nat.le_refl _))
    exact ((always last).resp_eq.mp ((resets last).mpr written)).2
  · intro noFile count
    rw [(always count).resp_eq, ← (meant count).2]
    exact and_iff_left noFile

/-- A response is always written in order; the block announces its length just when an `int` holds
it, and the response is set back just when there is no file. -/
theorem rightly_iff (carries : Carries static resp body) (positive : resp.header ≠ [])
    (arriving : ∀ count, 0 < rooms count) :
    (start junk static resp).Writes rooms (resp.block junk ++ (resp.header ++ body)) ∧
      (Rightly junk static resp body rooms ↔
        resp.header.length + body.length < 2 ^ 31 ∧ resp.file = none) := by
  have written := @writes _ _ junk _ _ carries positive arriving
  have announced := announces_iff junk resp (resp.header.length + body.length)
    (by rw [carries.1, Nat.add_comm])
  have reset := @resets_iff _ _ junk _ _ carries positive arriving
  refine ⟨written, ?_⟩
  constructor
  · intro rightly
    exact ⟨announced.mp rightly.announces, reset.mp rightly.resets⟩
  · rintro ⟨small, noFile⟩
    exact ⟨written, announced.mpr small, reset.mpr noFile⟩

end

/-- The response `ok` with the header `h`. -/
def sampleResp : HttpResp where
  respCode := 200
  bytesWrite := 0
  scgi := none
  bodyStr := some (ascii "ok")
  bodyLen := 2
  header := ascii "h"
  file := none

theorem rightly_iff_sample :
    Rightly (fun _ => 0) false sampleResp (ascii "ok") (fun _ => 1) :=
  (rightly_iff ⟨rfl, .inl rfl⟩ (by decide) fun _ => Nat.one_pos).2.mpr ⟨by decide, rfl⟩

/-- The same response from a file. -/
def fileResp : HttpResp := { sampleResp with bodyStr := none, file := some (ascii "ok") }

/-- The descriptor of a file that was sent stays in the response. -/
theorem not_rightly :
    ¬ Rightly (fun _ => 0) true fileResp (ascii "ok") (fun _ => 1) := by
  have carries : Carries true fileResp (ascii "ok") := ⟨rfl, .inr (.inr ⟨rfl, rfl, rfl, rfl⟩)⟩
  intro rightly
  have noFile := (resets_iff carries (by decide) fun _ => Nat.one_pos).mp rightly.resets
  exact Option.some_ne_none _ noFile

end Writer

end Worker
