import Webroar.Control.Message

/-! # The control stream message by message

Neither reader can tell where a message ends once bytes of the next one are in its buffer: the
head waits for a length that never comes, and the worker drops them with the message. The head
also does not get a body of one byte. Apart from that every message of a stream is handed over
once and in order, however the stream is cut.
-/

open Scgi (encode frame latest contentLengthName)

namespace CtlMessage

variable (message : CtlMessage)

/-! ### The head -/

/-- What the head gets of a message. -/
def HeadGives (request : Scgi) (message : CtlMessage) : Prop :=
  request.entries = message.items ∧ request.body.getD [] = message.body

theorem headLook_parsed {msg value : List UInt8} {request : Scgi} {length : Nat}
    (parsed : Scgi.parse msg = some request)
    (found : request.headerValueGet contentLengthName = some value)
    (announced : Decimal.toSize (Decimal.atoi value) = length) :
    headLook msg = if request.bodyLength ≠ length then .wait else .take request := by
  subst announced
  unfold headLook
  rw [parsed]
  dsimp only
  rw [found]

/-- The head measures what follows the block, which counts from two bytes on. -/
theorem headLook_frame (part : List UInt8) :
    ∃ request, request.Parsed message.items part ∧
      headLook (frame message.items ++ part) =
        if (if 2 ≤ part.length then part.length else 0) ≠ message.body.length then
          .wait
        else
          .take request := by
  have measured := message.length_wire
  have fits := message.length_wire_le
  unfold msgSize at fits
  obtain ⟨request, parsed, held⟩ :=
    Scgi.parse_frame message.items part message.clean (by omega)
  obtain ⟨value, found, length⟩ := message.announced_get held.holds
  have counted : request.bodyLength = if 2 ≤ part.length then part.length else 0 := by
    rw [Scgi.bodyLength, held.body]
    split
    · rfl
    · rfl
  refine ⟨request, held, ?_⟩
  rw [headLook_parsed parsed found length]
  simp only [counted]

/-- Every message is recognised, except for those with a body of one byte. -/
theorem headProtocol (kept : Nat → Bool) :
    Intake.Protocol wire HeadGives (fun message => message.body.length ≠ 1)
      (fun index _ => kept index = true) msgSize headLook (fun index _ => kept index) where
  nonempty := wire_ne_nil
  fits := length_wire_le
  early := by
    intro message count missing
    have measured := message.length_wire
    have fits := message.length_wire_le
    unfold msgSize at fits
    rcases lt_or_ge count (frame message.items).length with inside | behind
    · have part : message.wire.take count = (frame message.items).take count :=
        List.take_append_of_le_length (Nat.le_of_lt inside)
      rw [part, headLook, Scgi.parse_take_frame message.clean (by omega) inside]
    · have part : message.wire.take count = frame message.items ++
          message.body.take (count - (frame message.items).length) := by
        rw [wire, List.take_append, List.take_of_length_le behind]
      obtain ⟨request, -, look⟩ := message.headLook_frame
        (message.body.take (count - (frame message.items).length))
      rw [part, look, if_pos]
      rw [List.length_take]
      split
      · omega
      · omega
  whole := by
    intro message whole
    obtain ⟨request, parsed, look⟩ := message.headLook_frame message.body
    refine ⟨request, ?_, parsed.holds.entries, ?_⟩
    · rw [wire, look, if_neg]
      split
      · exact not_not_intro rfl
      · omega
    · rw [parsed.body]
      split
      · rfl
      · have none : message.body.length = 0 := by omega
        exact (List.eq_nil_of_length_eq_zero none).symm
  blocked := by
    intro message one request took
    have single : message.body.length = 1 := Decidable.not_not.mp one
    obtain ⟨known, -, look⟩ := message.headLook_frame message.body
    rw [wire, look, single] at took
    cases took
  stays := fun _ _ _ _ => Iff.rfl

/-! ### A worker -/

/-- What a worker gets of a message: it does not look at the body. -/
def WorkerGives (request : Scgi) (message : CtlMessage) : Prop :=
  request.entries = message.items

/-- Before the colon there is nothing to measure. -/
theorem workerLook_digits {text : List UInt8} (noColon : ∀ byte ∈ text, byte ≠ 58) :
    workerLook text = .wait := by
  have none : text.findIdx (· = 58) = text.length := by
    rw [List.findIdx_eq_length_of_false]
    exact fun byte member => decide_eq_false (noColon byte member)
  unfold workerLook
  simp only
  rw [none, if_pos (Nat.le_refl _)]

/-- Behind the colon the block is measured. -/
theorem workerLook_measured {digits rest : List UInt8} (noColon : ∀ byte ∈ digits, byte ≠ 58)
    {length : Nat} (read : Decimal.atoi (digits ++ 58 :: rest) = length)
    (small : length + digits.length + 2 < 2 ^ 64) :
    workerLook (digits ++ 58 :: rest) =
      blockLook (digits ++ 58 :: rest) (length + digits.length + 2) := by
  have colon : (digits ++ 58 :: rest).findIdx (· = 58) = digits.length := by
    rw [List.findIdx_append, if_neg, List.findIdx_cons]
    · simp
    · rw [List.findIdx_lt_length]
      rintro ⟨byte, member, same⟩
      exact noColon byte member (of_decide_eq_true same)
  have sum : (length : Int) + digits.length + 2 = (length + digits.length + 2 : Nat) := by
    push_cast
    rfl
  have longer : ¬ (digits ++ 58 :: rest).length ≤ digits.length := by
    rw [List.length_append, List.length_cons]
    omega
  unfold workerLook
  simp only
  rw [colon, if_neg longer, read, sum, Decimal.toSize_natCast small]

/-- A worker waits for the block, and then for the body. -/
theorem workerLook_frame (part : List UInt8) :
    ∃ request, request.Parsed message.items [] ∧
      workerLook (frame message.items ++ part) =
        if part.length < message.body.length then .wait else .take request := by
  have measured := message.length_wire
  have fits := message.length_wire_le
  unfold msgSize at fits
  obtain ⟨digits, tail, shape, noColon, read, total⟩ :=
    HttpReq.frame_colon message.items part (by omega)
  obtain ⟨request, parsed, held⟩ :=
    Scgi.parse_frame message.items [] message.clean (by omega)
  obtain ⟨value, found, length⟩ := message.announced_get held.holds
  rw [List.append_nil] at parsed
  have size : (encode message.items).length + digits.length + 2 =
      (frame message.items).length := by omega
  refine ⟨request, held, ?_⟩
  rw [shape, workerLook_measured noColon (read tail) (by omega), ← shape, size, blockLook, if_pos,
    List.take_left, parsed]
  · have sum : ((frame message.items).length + message.body.length) % 2 ^ 64 =
        (frame message.items).length + message.body.length := Nat.mod_eq_of_lt (by omega)
    simp only [found, length, sum, List.length_append, Nat.add_lt_add_iff_left]
  · rw [List.length_append]
    omega

/-- What a worker takes has the headers of the message. -/
theorem workerLook_get {request : Scgi} (took : workerLook message.wire = .take request) :
    request.headerValueGet = latest message.items := by
  obtain ⟨known, parsed, look⟩ := message.workerLook_frame message.body
  rw [if_neg (Nat.lt_irrefl _)] at look
  have same : Look.take known = Look.take request := look.symm.trans took
  rw [← Look.take.inj same]
  funext name
  exact parsed.holds.headerValueGet (fun item member => (message.clean item member).2) name

/-- Every message is recognised. -/
theorem workerProtocol (configured : Nat → Bool) :
    Intake.Protocol wire WorkerGives (fun _ => True)
      (fun index message => ctlMsgProcess (configured index) (latest message.items) = true)
      msgSize workerLook
      (fun index request => ctlMsgProcess (configured index) request.headerValueGet) where
  nonempty := wire_ne_nil
  fits := length_wire_le
  early := by
    intro message count missing
    have measured := message.length_wire
    have fits := message.length_wire_le
    unfold msgSize at fits
    rcases lt_or_ge count (frame message.items).length with inside | behind
    · have part : message.wire.take count = (frame message.items).take count :=
        List.take_append_of_le_length (Nat.le_of_lt inside)
      obtain ⟨digits, tail, shape, noColon, read, total⟩ :=
        HttpReq.frame_colon message.items [] (by omega)
      rw [List.append_nil] at shape
      rw [part, shape]
      rcases Nat.lt_or_ge digits.length count with reached | early
      · obtain ⟨more, exact⟩ : ∃ more, count = digits.length + (more + 1) :=
          ⟨count - digits.length - 1, by omega⟩
        rw [exact, List.take_length_add_append, List.take_succ_cons,
          workerLook_measured noColon (read _) (by omega), blockLook,
          if_neg]
        rw [List.length_append, List.length_cons, List.length_take]
        omega
      · rw [List.take_append_of_le_length early]
        exact workerLook_digits fun byte member => noColon byte (List.mem_of_mem_take member)
    · have part : message.wire.take count = frame message.items ++
          message.body.take (count - (frame message.items).length) := by
        rw [wire, List.take_append, List.take_of_length_le behind]
      obtain ⟨request, -, look⟩ := message.workerLook_frame
        (message.body.take (count - (frame message.items).length))
      rw [part, look, if_pos]
      rw [List.length_take]
      omega
  whole := by
    intro message _
    obtain ⟨request, parsed, look⟩ := message.workerLook_frame message.body
    refine ⟨request, ?_, parsed.holds.entries⟩
    rw [wire, look, if_neg (Nat.lt_irrefl _)]
  blocked := fun _ odd => absurd trivial odd
  stays := by
    intro index message request took
    rw [message.workerLook_get took]

/-! ### Both -/

/-- The control connections of the head and of a worker stay in step exactly when no read takes
bytes of two messages, no body of one byte comes to the head, and no message but the last ends
the connection. -/
theorem framing_iff (kept configured : Nat → Bool) (messages : List CtlMessage)
    (arrivals : List Nat) :
    (Intake.InStep wire HeadGives messages
        (arrivals.foldl (wrCtlMsgReadCb kept) (Intake.start (messages.flatMap wire))) ↔
      Intake.Apart wire (fun message => message.body.length ≠ 1)
        (fun index _ => kept index = true) msgSize 0 messages 0 arrivals) ∧
    (Intake.InStep wire WorkerGives messages
        (arrivals.foldl (ctlReadCb configured) (Intake.start (messages.flatMap wire))) ↔
      Intake.Apart wire (fun _ => True)
        (fun index message => ctlMsgProcess (configured index) (latest message.items) = true)
        msgSize 0 messages 0 arrivals) :=
  ⟨Intake.inStep_iff (headProtocol kept) messages arrivals,
    Intake.inStep_iff (workerProtocol configured) messages arrivals⟩

/-- The answer of a worker to a ping. -/
def ping : CtlMessage where
  items := [(contentLengthName, ascii "0"), (ascii "COMPONENT", ascii "WORKER"),
    (ascii "METHOD", ascii "PING")]
  body := []
  clean := by decide
  announced := ⟨ascii "0", by decide, by decide⟩
  fits := by decide

theorem not_apart_ping (Whole : CtlMessage → Prop) (Stays : Nat → CtlMessage → Prop) :
    ¬ Intake.Apart wire Whole Stays msgSize 0 [ping, ping] 0 [1024] := by
  have length : ping.wire.length = 50 := by decide
  unfold Intake.Apart
  rw [length, if_neg (by decide)]
  rintro ⟨-, last | ⟨exact, -⟩, -⟩
  · cases last
  · exact absurd exact (by decide)

/-- Two messages that come at once are too much for both readers. -/
theorem not_framing :
    ¬ Intake.InStep wire HeadGives [ping, ping]
        ([1024].foldl (wrCtlMsgReadCb fun _ => true)
          (Intake.start ([ping, ping].flatMap wire))) ∧
      ¬ Intake.InStep wire WorkerGives [ping, ping]
        ([1024].foldl (ctlReadCb fun _ => true)
          (Intake.start ([ping, ping].flatMap wire))) := by
  constructor
  · exact fun inStep => not_apart_ping _ _
      ((Intake.inStep_iff (headProtocol fun _ => true) [ping, ping] [1024]).mp inStep)
  · exact fun inStep => not_apart_ping _ _
      ((Intake.inStep_iff (workerProtocol fun _ => true) [ping, ping] [1024]).mp inStep)

end CtlMessage
