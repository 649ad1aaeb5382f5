import Webroar.Library.Intake
import Webroar.Worker.Receive

/-! # Control messages and their readers

The head and its workers exchange SCGI objects on their control connections. Both ends collect
what comes in a buffer of 1 KB and look at it after every read: the head parses all of it and
takes it when the body has the announced length, the worker measures the block first. Both then
give up the whole buffer.
-/

open Scgi (Entry encode frame latest contentLengthName Clean)

/-- A well-formed control message: a block that announces the length of the body behind it, both
together no longer than the buffers of the readers. -/
structure CtlMessage where
  items : List Entry
  body : List UInt8
  clean : Clean items
  announced : ∃ value, latest items contentLengthName = some value ∧
    Decimal.atoi value = body.length
  fits : (frame items ++ body).length ≤ 1024

namespace CtlMessage

/-- The bytes of a message. -/
def wire (message : CtlMessage) : List UInt8 := frame message.items ++ message.body

/-- `STR_SIZE1KB`, the size of `ctl->msg` at both ends. -/
def msgSize : Nat := 1024

/-- What `wr_ctl_msg_read_cb` makes of the `ctl_nbytes` bytes in `ctl->msg`. Without a
`CONTENT_LENGTH` the call of `atoi` ends the head. -/
def headLook (msg : List UInt8) : Look Scgi :=
  match Scgi.parse msg with
  | none => .wait
  | some request =>
      match request.headerValueGet contentLengthName with
      | none => .refuse
      | some value =>
          if request.bodyLength ≠ Decimal.toSize (Decimal.atoi value) then
            .wait
          else
            .take request

/-- What `ctl_read_cb` makes of a block that ends at `msg_size`. -/
def blockLook (msg : List UInt8) (msgSize : Nat) : Look Scgi :=
  if msgSize ≤ msg.length then
    match Scgi.parse (msg.take msgSize) with
    | none => .refuse
    | some request =>
        match request.headerValueGet contentLengthName with
        | none => .refuse
        | some value =>
            if msg.length < (msgSize + Decimal.toSize (Decimal.atoi value)) % 2 ^ 64 then
              .wait
            else
              .take request
  else
    .wait

/-- What `ctl_read_cb` makes of the `bytes_read` bytes in `ctl->msg`. -/
def workerLook (msg : List UInt8) : Look Scgi :=
  let i := msg.findIdx (· = 58)
  if msg.length ≤ i then
    .wait
  else
    blockLook msg (Decimal.toSize (Decimal.atoi msg + i + 2))

/-- `ctl_msg_process` of a worker on a request whose headers are read with `get`: whether the
worker goes on. `configured` says whether it does after `application_config_read_cb`. -/
def ctlMsgProcess (configured : Bool) (get : List UInt8 → Option (List UInt8)) : Bool :=
  match get (ascii "METHOD") with
  | none => true
  | some value =>
      if value = ascii "ADD" then
        get (ascii "STATUS") = some (ascii "OK")
      else if value = ascii "REMOVE" then
        false
      else if value = ascii "PING" then
        true
      else if value = ascii "ACK" then
        false
      else if value = ascii "CONF_REQ" then
        match get (ascii "STATUS") with
        | none => configured
        | some status => if status ≠ ascii "OK" then false else configured
      else
        true

/-- `wr_ctl_msg_read_cb`, when `available` bytes have arrived. `kept` says which of the messages
that are handed over leave the connection in place. -/
def wrCtlMsgReadCb (kept : Nat → Bool) (ctl : Intake UInt8 Scgi) (available : Nat) :
    Intake UInt8 Scgi :=
  ctl.read msgSize headLook (fun index _ => kept index) available

/-- `ctl_read_cb`. -/
def ctlReadCb (configured : Nat → Bool) (ctl : Intake UInt8 Scgi) (available : Nat) :
    Intake UInt8 Scgi :=
  ctl.read msgSize workerLook
    (fun index request => ctlMsgProcess (configured index) request.headerValueGet) available

variable (message : CtlMessage)

theorem length_wire :
    message.wire.length = (frame message.items).length + message.body.length :=
  List.length_append

theorem wire_ne_nil : message.wire ≠ [] := by
  have measured := Scgi.length_frame message.items
  have whole := message.length_wire
  exact List.ne_nil_of_length_pos (by omega)

theorem length_wire_le : message.wire.length ≤ msgSize := message.fits

/-- An object that holds the headers of a message announces the body. -/
theorem announced_get {request : Scgi} {offset : Nat}
    (holds : request.Holds offset message.items) :
    ∃ value, request.headerValueGet contentLengthName = some value ∧
      Decimal.toSize (Decimal.atoi value) = message.body.length := by
  obtain ⟨value, found, length⟩ := message.announced
  have fits := message.fits
  rw [List.length_append] at fits
  refine ⟨value, ?_, ?_⟩
  · rw [holds.headerValueGet fun item member => (message.clean item member).2]
    exact found
  · rw [length]
    exact Decimal.toSize_natCast (by omega)

end CtlMessage

namespace Scgi

/-- The beginning of a frame is no object. -/
theorem parse_take_frame {items : List Entry} (clean : Clean items)
    (short : (frame items).length < 2 ^ 31) {count : Nat} (missing : count < (frame items).length) :
    parse ((frame items).take count) = none := by
  have measured := length_frame items
  have read : parseRun ((frame items).take count) =
      parseBytes ((frame items).take count) 0 ((frame items).take count)
        (parseStart ((frame items).take count)) := by
    unfold parseRun
    rw [List.take_take, Nat.min_eq_right (by omega)]
  have cut : ∃ rest, Decimal.format (encode items).length ++ 58 :: encode items =
      (frame items).take count ++ rest := by
    refine ⟨(Decimal.format (encode items).length ++ 58 :: encode items).drop count, ?_⟩
    have shape : frame items =
        (Decimal.format (encode items).length ++ 58 :: encode items) ++ [44] := by
      rw [frame, List.append_assoc, List.cons_append]
    rw [shape, List.take_append_of_le_length, List.take_append_drop]
    rw [List.length_append, List.length_cons]
    omega
  obtain ⟨rest, cut⟩ := cut
  obtain ⟨number, -, ready, -⟩ := parseBytes_frame ((frame items).take count) items clean
    (by omega)
  unfold parse
  split
  · rfl
  · rw [if_neg]
    intro done
    rw [read] at done
    -- a finished parser would stay finished up to the comma
    have past := past_parseBytes ((frame items).take count)
      (0 + ((frame items).take count).length) rest _ (Or.inr (Or.inr done))
    rw [← parseBytes_append, ← cut, ready.state] at past
    rcases past with state | state | state <;> cases state

end Scgi
