import Webroar.Head.Incoming
import Webroar.Scgi.Send

/-! # Sending a request

The head writes a request to a worker's data socket with two callbacks: the first sends the
header block and a body that is held in memory, the second sends a body from the upload file.
When all is sent the head waits for the response. A callback is called when there is room on
the socket; `send` takes what there is room for, and does not fail here.
-/

open Decimal (toInt32)

/-- The callback that is registered for the data socket, and what comes after them. -/
inductive Sender.Writer where
  | header
  | body
  | waiting
  | failed
deriving DecidableEq, Repr

/-- A request that is being sent, and what was written to the data socket so far. -/
structure Sender where
  scgi : Scgi
  uploadFile : Option (List UInt8)
  contentLength : Nat
  maxBodySize : Nat
  bytesSent : Nat
  writer : Sender.Writer
  written : List UInt8

namespace Sender

/-- All is sent: the head waits for the response. -/
def reqSent (sender : Sender) : Sender := { sender with writer := .waiting }

/-- The worker is given up. -/
def wkrFailed (sender : Sender) : Sender := { sender with writer := .failed }

/-- Send from the upload file. -/
def reqBodyWriteCb (room : Nat) (sender : Sender) : Sender :=
  let sent :=
    match sender.uploadFile with
    | some file => Stream.send ((file.drop sender.bytesSent).take sender.maxBodySize) room
    | none => []
  if sent = [] then
    sender.wkrFailed
  else
    let sender := { sender with
      bytesSent := sender.bytesSent + sent.length
      written := sender.written ++ sent }
    if sender.contentLength = sender.bytesSent then sender.reqSent else sender

/-- Send the header block and the body in memory. -/
def reqHearerWriteCb (room : Nat) (sender : Sender) : Sender :=
  let (scgi, result, sent) := sender.scgi.send room
  let sender := { sender with scgi := scgi, written := sender.written ++ sent }
  let sender := if result ≤ 0 then sender.wkrFailed else sender
  if scgi.bytesSent = scgi.length then
    let sender := { sender with bytesSent := 0 }
    if sender.uploadFile.isSome then { sender with writer := .body } else sender.reqSent
  else
    sender

/-- There is room on the socket. -/
def event (room : Nat) (sender : Sender) : Sender :=
  match sender.writer with
  | .header => sender.reqHearerWriteCb room
  | .body => sender.reqBodyWriteCb room
  | .waiting => sender
  | .failed => sender

/-- A complete request that is given to a worker. -/
def start (head : Head) (incoming : Request.Incoming) (req : Request) : Sender where
  scgi := req.scgi
  uploadFile := req.uploadFile
  contentLength := incoming.request.contentLength
  maxBodySize := head.maxBodySize
  bytesSent := 0
  writer := .header
  written := []

variable {sender : Sender} {block memory body : List UInt8} {room : Nat}

/-- What stays as it is while a request is sent: the finished block, the part of the body that is
in memory, and the body in the upload file. -/
structure Loaded (sender : Sender) (block memory body : List UInt8) : Prop where
  length : sender.scgi.length = block.length + memory.length
  nonempty : 0 < block.length
  finished : sender.scgi.block = block
  held : sender.scgi.body.getD [] = memory
  piece : 0 < sender.maxBodySize
  stored : (sender.uploadFile = none ∧ memory = body) ∨
    (sender.uploadFile = some body ∧ memory = [] ∧ 0 < sender.contentLength)

/-- Sending from an unfinished object takes a beginning of what is left. -/
theorem send_loaded (loaded : sender.Loaded block memory body)
    (missing : sender.scgi.bytesSent < block.length + memory.length) (arrived : 0 < room) :
    ∃ piece rest, 0 < piece.length ∧ piece.length < 2 ^ 31 ∧
      (block ++ memory).drop sender.scgi.bytesSent = piece ++ rest ∧
      sender.scgi.send room =
        ({ sender.scgi with bytesSent := sender.scgi.bytesSent + piece.length },
          toInt32 piece.length, piece) :=
  Scgi.send_unfinished loaded.length loaded.finished loaded.held missing arrived

/-- How far a request is: what was written is what was to be written so far. -/
structure Sent (sender : Sender) (block memory body : List UInt8) : Prop
    extends sender.Loaded block memory body where
  atHeader : sender.writer = .header → sender.scgi.bytesSent < block.length + memory.length ∧
    sender.written = (block ++ memory).take sender.scgi.bytesSent
  atBody : sender.writer = .body → sender.uploadFile = some body ∧
    sender.bytesSent ≤ body.length ∧ sender.bytesSent ≠ sender.contentLength ∧
    sender.written = block ++ body.take sender.bytesSent
  atEnd : sender.writer = .waiting →
    (sender.uploadFile = none ∧ sender.written = block ++ body) ∨
      (sender.uploadFile = some body ∧ sender.contentLength ≤ body.length ∧
        sender.written = block ++ body.take sender.contentLength)

/-- The body is in memory, or the upload file holds as many bytes as were announced. -/
def Exact (sender : Sender) (body : List UInt8) : Prop :=
  sender.uploadFile = none ∨ sender.contentLength = body.length

theorem Sent.reqHearerWriteCb (sent : sender.Sent block memory body)
    (registered : sender.writer = .header) (arrived : 0 < room) :
    (sender.reqHearerWriteCb room).Sent block memory body ∧
      (sender.reqHearerWriteCb room).writer ≠ .failed ∧
      sender.written.length < (sender.reqHearerWriteCb room).written.length := by
  obtain ⟨missing, written⟩ := sent.atHeader registered
  obtain ⟨piece, rest, positive, small, left, result⟩ := send_loaded sent.toLoaded missing arrived
  have extended := Stream.take_piece left
  have measured := congrArg List.length left
  rw [List.length_drop, List.length_append, List.length_append] at measured
  obtain ⟨length, nonempty, finished, held, portion, stored⟩ := sent.toLoaded
  have taken : ¬ toInt32 piece.length ≤ 0 := by
    rw [Decimal.toInt32_of_lt small]
    omega
  cases sender with
  | mk scgi uploadFile contentLength maxBodySize bytesSent writer text =>
  simp only at missing written result length finished held portion stored measured extended
  unfold Sender.reqHearerWriteCb
  simp only [result, if_neg taken]
  by_cases last : scgi.bytesSent + piece.length = scgi.length
  · have all : text ++ piece = block ++ memory := by
      rw [written, ← extended, last, length, ← List.length_append, List.take_length]
    rw [if_pos last]
    have longer : text.length < (text ++ piece).length := by
      rw [List.length_append]
      omega
    rcases stored with ⟨none, same⟩ | ⟨some, empty, announced⟩
    · rw [if_neg (by rw [none]; decide)]
      refine ⟨⟨⟨length, nonempty, finished, held, portion, Or.inl ⟨none, same⟩⟩, nofun, nofun,
        fun _ => Or.inl ⟨none, ?_⟩⟩, nofun, longer⟩
      rw [← same]
      exact all
    · rw [if_pos (by rw [some]; rfl)]
      refine ⟨⟨⟨length, nonempty, finished, held, portion, Or.inr ⟨some, empty, announced⟩⟩,
        nofun, fun _ => ⟨some, Nat.zero_le _, Nat.ne_of_lt announced, ?_⟩, nofun⟩, nofun, longer⟩
      rw [List.take_zero, ← empty]
      exact all
  · rw [if_neg last]
    refine ⟨⟨⟨length, nonempty, finished, held, portion, stored⟩, fun _ => ⟨?_, ?_⟩, ?_, ?_⟩,
      ?_, ?_⟩
    · dsimp only
      omega
    · dsimp only
      rw [extended, written]
    · intro body
      exact absurd (registered.symm.trans body) nofun
    · intro waiting
      exact absurd (registered.symm.trans waiting) nofun
    · intro failed
      exact absurd (registered.symm.trans failed) nofun
    · dsimp only
      rw [List.length_append]
      omega

theorem Sent.reqBodyWriteCb (sent : sender.Sent block memory body)
    (registered : sender.writer = .body) (arrived : 0 < room) :
    (sender.reqBodyWriteCb room).Sent block memory body ∧
      (sender.contentLength = body.length → (sender.reqBodyWriteCb room).writer ≠ .failed ∧
        sender.written.length < (sender.reqBodyWriteCb room).written.length) := by
  obtain ⟨some, reached, other, written⟩ := sent.atBody registered
  obtain ⟨length, nonempty, finished, held, portion, stored⟩ := sent.toLoaded
  cases sender with
  | mk scgi uploadFile contentLength maxBodySize bytesSent writer text =>
  simp only at some reached other written length finished held portion stored
  rw [some] at stored
  unfold Sender.reqBodyWriteCb
  simp only [some]
  obtain ⟨shape, -, positive⟩ := Stream.send_spec ((body.drop bytesSent).take maxBodySize) room
  generalize Stream.send ((body.drop bytesSent).take maxBodySize) room = piece at shape positive
  have left : body.drop bytesSent = piece ++
      (((body.drop bytesSent).take maxBodySize).drop piece.length ++
        (body.drop bytesSent).drop maxBodySize) := by
    rw [← List.append_assoc, ← shape, List.take_append_drop]
  have extended := Stream.take_piece left
  have measured := congrArg List.length left
  rw [List.length_drop, List.length_append] at measured
  by_cases nothing : piece = []
  · rw [if_pos nothing]
    refine ⟨⟨⟨length, nonempty, finished, held, portion, stored⟩, nofun, nofun, nofun⟩, ?_⟩
    intro exact
    have some : (body.drop bytesSent).take maxBodySize ≠ [] := by
      apply List.ne_nil_of_length_pos
      rw [List.length_take, List.length_drop]
      omega
    have taken := positive some arrived
    rw [nothing] at taken
    exact absurd taken (Nat.lt_irrefl 0)
  · rw [if_neg nothing]
    have taken := List.length_pos_of_ne_nil nothing
    have longer : text.length < (text ++ piece).length := by
      rw [List.length_append]
      omega
    have whole : text ++ piece = block ++ body.take (bytesSent + piece.length) := by
      rw [written, extended, List.append_assoc]
    by_cases last : contentLength = bytesSent + piece.length
    · rw [if_pos last]
      refine ⟨⟨⟨length, nonempty, finished, held, portion, stored⟩, nofun, nofun,
        fun _ => Or.inr ⟨rfl, ?_, ?_⟩⟩, fun _ => ⟨nofun, longer⟩⟩
      · dsimp only [reqSent]
        omega
      · dsimp only [reqSent]
        rw [last]
        exact whole
    · rw [if_neg last]
      refine ⟨⟨⟨length, nonempty, finished, held, portion, stored⟩, ?_,
        fun _ => ⟨rfl, ?_, Ne.symm last, whole⟩, ?_⟩, fun _ => ⟨?_, longer⟩⟩
      · intro header
        exact absurd (registered.symm.trans header) nofun
      · dsimp only
        omega
      · intro waiting
        exact absurd (registered.symm.trans waiting) nofun
      · intro failed
        exact absurd (registered.symm.trans failed) nofun

/-- Room on the socket keeps what was written right. -/
theorem Sent.event (sent : sender.Sent block memory body) (arrived : 0 < room) :
    (sender.event room).Sent block memory body := by
  unfold Sender.event
  cases registered : sender.writer with
  | header => exact (sent.reqHearerWriteCb registered arrived).1
  | body => exact (sent.reqBodyWriteCb registered arrived).1
  | waiting => exact sent
  | failed => exact sent

/-- What a request consists of stays. -/
theorem event_frame (sender : Sender) (room : Nat) :
    (sender.event room).uploadFile = sender.uploadFile ∧
      (sender.event room).contentLength = sender.contentLength := by
  unfold Sender.event
  cases sender.writer with
  | waiting => exact ⟨rfl, rfl⟩
  | failed => exact ⟨rfl, rfl⟩
  | header =>
      simp only [Sender.reqHearerWriteCb]
      split <;> split <;> try split
      all_goals exact ⟨rfl, rfl⟩
  | body =>
      simp only [Sender.reqBodyWriteCb]
      split <;> split <;> try split
      all_goals exact ⟨rfl, rfl⟩

/-- A request that is on its way as it should be: its body is in memory or as long as it was
announced, and the worker was not given up. -/
structure Sound (sender : Sender) (block memory body : List UInt8) : Prop
    extends sender.Sent block memory body where
  exact : sender.Exact body
  alive : sender.writer ≠ .failed

/-- Room on the socket brings a sound request on. -/
theorem Sound.event (sound : sender.Sound block memory body) (arrived : 0 < room) :
    (sender.event room).Sound block memory body ∧
      (sender.writer ≠ .waiting →
        sender.written.length < (sender.event room).written.length) := by
  have sent := sound.toSent.event arrived
  have exact : (sender.event room).Exact body := by
    obtain ⟨file, announced⟩ := sender.event_frame room
    rw [Exact, file, announced]
    exact sound.exact
  have step : (sender.event room).writer ≠ .failed ∧ (sender.writer ≠ .waiting →
      sender.written.length < (sender.event room).written.length) := by
    unfold Sender.event
    cases registered : sender.writer with
    | header =>
        obtain ⟨-, alive, longer⟩ := sound.toSent.reqHearerWriteCb registered arrived
        exact ⟨alive, fun _ => longer⟩
    | body =>
        obtain ⟨some, -⟩ := sound.atBody registered
        have announced := sound.exact.resolve_left (by rw [some]; nofun)
        obtain ⟨alive, longer⟩ := (sound.toSent.reqBodyWriteCb registered arrived).2 announced
        exact ⟨alive, fun _ => longer⟩
    | waiting => exact ⟨sound.alive, fun other => absurd rfl other⟩
    | failed => exact absurd registered sound.alive
  exact ⟨⟨sent, exact, step.1⟩, step.2⟩

/-- What a sound request wrote is a beginning of the stream, and it waits for the response
exactly when that is the whole stream. -/
theorem Sound.written (sound : sender.Sound block memory body) :
    sender.written <+: block ++ body ∧
      (sender.writer = .waiting ↔ sender.written = block ++ body) := by
  cases registered : sender.writer with
  | failed => exact absurd registered sound.alive
  | header =>
      obtain ⟨missing, written⟩ := sound.atHeader registered
      obtain ⟨rest, all⟩ : ∃ rest, block ++ body = block ++ memory ++ rest := by
        rcases sound.stored with ⟨-, same⟩ | ⟨-, empty, -⟩
        · exact ⟨[], by rw [same, List.append_nil]⟩
        · exact ⟨body, by rw [empty, List.append_nil]⟩
      have short : sender.written.length < (block ++ body).length := by
        simp only [all, written, List.length_take, List.length_append]
        omega
      refine ⟨?_, nofun, fun same => ?_⟩
      · rw [written, all]
        exact (List.take_prefix _ _).trans (List.prefix_append _ _)
      · rw [same] at short
        exact absurd short (Nat.lt_irrefl _)
  | body =>
      obtain ⟨some, reached, other, written⟩ := sound.atBody registered
      have announced := sound.exact.resolve_left (by rw [some]; nofun)
      refine ⟨?_, nofun, fun same => ?_⟩
      · rw [written, List.prefix_append_right_inj]
        exact List.take_prefix _ _
      · have counted := congrArg List.length (List.append_cancel_left (written.symm.trans same))
        rw [List.length_take] at counted
        omega
  | waiting =>
      have all : sender.written = block ++ body := by
        rcases sound.atEnd registered with ⟨-, written⟩ | ⟨some, -, written⟩
        · exact written
        · rw [written, sound.exact.resolve_left (by rw [some]; nofun), List.take_length]
      exact ⟨all ▸ List.prefix_rfl, fun _ => all, fun _ => rfl⟩

/-- The request after some events, when the n-th finds room for `rooms n` bytes. -/
def after (sender : Sender) (rooms : Nat → Nat) (count : Nat) : Sender :=
  Machine.after event rooms sender count

/-- The bytes of a stream are written and no others, and the head comes to wait for the response
exactly with the last of them. -/
def Sends (sender : Sender) (rooms : Nat → Nat) (stream : List UInt8) : Prop :=
  (∃ last, ∀ count, last ≤ count → (sender.after rooms count).writer = .waiting) ∧
  ∀ count, (sender.after rooms count).written <+: stream ∧
    ((sender.after rooms count).writer = .waiting ↔ (sender.after rooms count).written = stream)

variable {rooms : Nat → Nat}

theorem after_frame (sender : Sender) (rooms : Nat → Nat) (count : Nat) :
    (sender.after rooms count).uploadFile = sender.uploadFile ∧
      (sender.after rooms count).contentLength = sender.contentLength := by
  induction count with
  | zero => exact ⟨rfl, rfl⟩
  | succ count ih =>
      obtain ⟨file, announced⟩ := (sender.after rooms count).event_frame (rooms count)
      exact ⟨file.trans ih.1, announced.trans ih.2⟩

/-- A sound request is sent, and then waits. -/
theorem Sound.sends (sound : sender.Sound block memory body)
    (arriving : ∀ count, 0 < rooms count) : sender.Sends rooms (block ++ body) := by
  have always : ∀ count, (sender.after rooms count).Sound block memory body :=
    Machine.invariant (fun next : Sender => next.Sound block memory body) sound
      fun count _ sound => (sound.event (arriving count)).1
  obtain ⟨last, waits, -, -⟩ := Machine.reaches (fun next : Sender => next.Sound block memory body)
    (fun next => next.writer = .waiting)
    (fun next => (block ++ body).length - next.written.length) sound fun count next sound goal => by
      obtain ⟨kept, longer⟩ := sound.event (arriving count)
      have bound := kept.written.1.length_le
      have more := longer goal
      exact ⟨kept, by omega⟩
  refine ⟨⟨last, ?_⟩, fun count => (always count).written⟩
  exact Machine.invariant_from (fun next : Sender => next.writer = .waiting) waits
    fun _ next waiting => by
      rw [Sender.event, waiting]
      exact waiting

/-- A request is sent as it should be exactly when its body is in memory or as long as it was
announced. -/
theorem Sent.sends_iff (sent : sender.Sent block memory body) (fresh : sender.writer = .header)
    (arriving : ∀ count, 0 < rooms count) :
    sender.Sends rooms (block ++ body) ↔ sender.Exact body := by
  constructor
  · rintro ⟨⟨last, waits⟩, meant⟩
    have waiting := waits last (Nat.le_refl _)
    have all := (meant last).2.mp waiting
    have later : (sender.after rooms last).Sent block memory body :=
      Machine.invariant (fun next : Sender => next.Sent block memory body) sent
        (fun count _ sent => sent.event (arriving count)) last
    obtain ⟨file, announced⟩ := sender.after_frame rooms last
    rcases later.atEnd waiting with ⟨none, -⟩ | ⟨-, reached, written⟩
    · exact Or.inl (file.symm.trans none)
    · have counted := congrArg List.length (List.append_cancel_left (written.symm.trans all))
      rw [List.length_take] at counted
      refine Or.inr ?_
      omega
  · intro exact
    have alive : sender.writer ≠ .failed := by
      rw [fresh]
      nofun
    exact Sound.sends ⟨sent, exact, alive⟩ arriving

end Sender
