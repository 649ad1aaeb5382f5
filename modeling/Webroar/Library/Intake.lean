import Mathlib
import Webroar.Library.Transition

/-! # Messages on a stream

A reader collects what a stream delivers in a buffer of a fixed size. After every read it looks
at the buffer: it waits for more, it gives up, or it takes a message, and then the whole buffer
is free again. The messages of a stream come out one by one exactly when no read takes bytes of
two messages, every message can be recognised, and the reader goes on after every message but
the last.
-/

/-- What a reader makes of its buffer. -/
inductive Look (ρ : Type) where
  | wait
  | refuse
  | take (request : ρ)

/-- A reader and its stream: the buffer, the bytes that were not read yet, whether the reader
still reads, and what it took, each with the bytes that were given up for it. -/
structure Intake (β ρ : Type) where
  buffer : List β
  socket : List β
  alive : Bool
  served : List (List β × ρ)

namespace Intake

variable {β ρ μ : Type}

section Reader

variable (size : Nat) (look : List β → Look ρ) (keeps : Nat → ρ → Bool)

/-- The reader before a stream. -/
def start (stream : List β) : Intake β ρ := ⟨[], stream, true, []⟩

/-- Look at the buffer. -/
def settle (intake : Intake β ρ) : Intake β ρ :=
  match look intake.buffer with
  | .wait => intake
  | .refuse => { intake with alive := false }
  | .take request =>
      { intake with
        buffer := []
        alive := keeps intake.served.length request
        served := intake.served ++ [(intake.buffer, request)] }

/-- The stream has something to read, of which at most `available` bytes have arrived. A buffer
without room asks for nothing, which reads like the end of the stream. -/
def read (intake : Intake β ρ) (available : Nat) : Intake β ρ :=
  if intake.alive = false ∨ intake.socket.take available = [] then
    intake
  else if Stream.recv intake.socket available (size - intake.buffer.length) = [] then
    { intake with alive := false }
  else
    settle look keeps { intake with
      buffer := intake.buffer ++
        Stream.recv intake.socket available (size - intake.buffer.length)
      socket := Stream.rest intake.socket available (size - intake.buffer.length) }

/-- Read as often as the stream has something. -/
def run (intake : Intake β ρ) (arrivals : List Nat) : Intake β ρ :=
  arrivals.foldl (read size look keeps) intake

end Reader

/-! ### What is to be served -/

section Stream

variable (wire : μ → List β)

/-- The messages that are complete in the first `received` bytes of their stream. -/
def complete : List μ → Nat → List μ
  | [], _ => []
  | message :: later, received =>
      if (wire message).length ≤ received then
        message :: complete later (received - (wire message).length)
      else
        []

theorem complete_nil (messages : List μ) {received : Nat}
    (early : ∀ message ∈ messages.head?, received < (wire message).length) :
    complete wire messages received = [] := by
  cases messages with
  | nil => rfl
  | cons message later =>
      rw [complete, if_neg (Nat.not_le_of_lt (early message rfl))]

theorem complete_append (before after : List μ) (received : Nat) :
    complete wire (before ++ after) ((before.flatMap wire).length + received) =
      before ++ complete wire after received := by
  induction before with
  | nil => rw [List.flatMap_nil, List.length_nil, Nat.zero_add, List.nil_append, List.nil_append]
  | cons message later ih =>
      rw [List.flatMap_cons, List.length_append, List.cons_append, complete,
        if_pos (by omega), List.cons_append, ← ih]
      congr 2
      omega

theorem complete_prefix (messages : List μ) (received : Nat) :
    complete wire messages received <+: messages := by
  induction messages generalizing received with
  | nil => exact List.prefix_refl []
  | cons message later ih =>
      rw [complete]
      split
      · exact List.cons_prefix_cons.mpr ⟨rfl, ih _⟩
      · exact List.nil_prefix

theorem complete_length_mono (messages : List μ) {first second : Nat} (ordered : first ≤ second) :
    (complete wire messages first).length ≤ (complete wire messages second).length := by
  induction messages generalizing first second with
  | nil => exact Nat.le_refl 0
  | cons message later ih =>
      rw [complete, complete]
      split
      · rw [if_pos (by omega)]
        exact Nat.succ_le_succ (ih (by omega))
      · exact Nat.zero_le _

end Stream

/-! ### When the messages come out one by one -/

section Protocol

variable {wire : μ → List β} {Gives : ρ → μ → Prop} {Whole : μ → Prop}
  {Stays : Nat → μ → Prop} {size : Nat} {look : List β → Look ρ} {keeps : Nat → ρ → Bool}

/-- The reader recognises the messages that are `Whole`, none of them early, and goes on after
those that it `Stays` for. -/
structure Protocol (wire : μ → List β) (Gives : ρ → μ → Prop) (Whole : μ → Prop)
    (Stays : Nat → μ → Prop) (size : Nat) (look : List β → Look ρ) (keeps : Nat → ρ → Bool) :
    Prop where
  nonempty : ∀ message, wire message ≠ []
  fits : ∀ message, (wire message).length ≤ size
  early : ∀ message count, count < (wire message).length →
    look ((wire message).take count) = .wait
  whole : ∀ message, Whole message →
    ∃ request, look (wire message) = .take request ∧ Gives request message
  blocked : ∀ message, ¬ Whole message → ∀ request, look (wire message) = .take request →
    ¬ Gives request message
  stays : ∀ index message request, look (wire message) = .take request →
    (keeps index request = true ↔ Stays index message)

/-- What was taken is the message, from exactly its bytes. -/
def Answers (wire : μ → List β) (Gives : ρ → μ → Prop) (taken : List β × ρ) (message : μ) : Prop :=
  taken.1 = wire message ∧ Gives taken.2 message

/-- The bytes that were read. -/
def received (wire : μ → List β) (messages : List μ) (intake : Intake β ρ) : Nat :=
  (messages.flatMap wire).length - intake.socket.length

/-- Every message that has come was taken, once, in order and with exactly its bytes, and the
reader goes on while there is something to read. -/
structure InStep (wire : μ → List β) (Gives : ρ → μ → Prop) (messages : List μ)
    (intake : Intake β ρ) : Prop where
  served : List.Forall₂ (Answers wire Gives) intake.served
    (complete wire messages (received wire messages intake))
  goes : intake.socket ≠ [] → intake.alive = true

/-- No read takes bytes of two messages, the messages that come are `Whole`, and the reader
`Stays` for all of them but the last. The first `got` bytes of the first message were read. -/
def Apart (wire : μ → List β) (Whole : μ → Prop) (Stays : Nat → μ → Prop) (size : Nat) :
    Nat → List μ → Nat → List Nat → Prop
  | _, [], _, _ => True
  | _, _ :: _, _, [] => True
  | index, message :: later, got, available :: arrivals =>
      if got + min available (size - got) < (wire message).length then
        Apart wire Whole Stays size index (message :: later)
          (got + min available (size - got)) arrivals
      else
        Whole message ∧
          (later = [] ∨ got + min available (size - got) = (wire message).length ∧
            Stays index message) ∧
          Apart wire Whole Stays size (index + 1) later 0 arrivals

theorem apart_nil (index got : Nat) (arrivals : List Nat) :
    Apart wire Whole Stays size index [] got arrivals := by
  cases arrivals with
  | nil => trivial
  | cons available later => trivial

/-- The reader has taken the messages `before`, and has read `got` bytes of the next one. -/
structure At (wire : μ → List β) (Gives : ρ → μ → Prop) (before : List μ) (message : μ)
    (later : List μ) (got : Nat) (intake : Intake β ρ) : Prop where
  buffer : intake.buffer = ((message :: later).flatMap wire).take got
  socket : intake.socket = ((message :: later).flatMap wire).drop got
  partly : got < (wire message).length
  alive : intake.alive = true
  served : List.Forall₂ (Answers wire Gives) intake.served before

/-- The reader is out of step for good. -/
inductive Derailed (wire : μ → List β) (Gives : ρ → μ → Prop) (Whole : μ → Prop)
    (messages : List μ) (intake : Intake β ρ) : Prop
  /-- Something was taken that is not the message, or not all of it or more. -/
  | wrong (before later : List μ) (message : μ) (taken : List β × ρ)
      (cut : messages = before ++ message :: later)
      (found : intake.served[before.length]? = some taken)
      (bad : ¬ Answers wire Gives taken message)
  /-- A message has come and is not recognised. -/
  | late (before later : List μ) (message : μ) (more : List β)
      (cut : messages = before ++ message :: later)
      (behind : intake.served.length = before.length)
      (come : (before.flatMap wire).length + (wire message).length ≤
        received wire messages intake)
      (stuck : intake.alive = false ∨
        intake.buffer = wire message ++ more ∧ (more = [] → ¬ Whole message))
  /-- The reader has stopped. -/
  | stopped (dead : intake.alive = false) (left : intake.socket ≠ [])

theorem received_mono {messages : List μ} {before after : Intake β ρ}
    (fewer : after.socket.length ≤ before.socket.length) :
    received wire messages before ≤ received wire messages after := by
  unfold received
  omega

/-- A reader out of step is not in step. -/
theorem Derailed.not_inStep {messages : List μ} {intake : Intake β ρ}
    (derailed : Derailed wire Gives Whole messages intake) :
    ¬ InStep wire Gives messages intake := by
  intro inStep
  cases derailed with
  | wrong before later message taken cut found bad =>
      obtain ⟨rest, prefixed⟩ :=
        complete_prefix wire messages (received wire messages intake)
      have length := inStep.served.length_eq
      obtain ⟨inside, here⟩ := List.getElem?_eq_some_iff.mp found
      have known : (complete wire messages (received wire messages intake))[before.length]? =
          some message := by
        have whole : messages[before.length]? = some message := by
          rw [cut, List.getElem?_append_right (Nat.le_refl _), Nat.sub_self]
          rfl
        rw [← prefixed, List.getElem?_append_left (by omega)] at whole
        exact whole
      obtain ⟨within, same⟩ := List.getElem?_eq_some_iff.mp known
      have answers := (List.forall₂_iff_get.mp inStep.served).2 before.length inside within
      simp only [List.get_eq_getElem, same, here] at answers
      exact bad answers
  | late before later message more cut behind come stuck =>
      have length := inStep.served.length_eq
      have most := complete_length_mono wire messages come
      have exact := complete_append wire before (message :: later) (wire message).length
      rw [← cut, complete, if_pos (Nat.le_refl _)] at exact
      rw [exact, List.length_append, List.length_cons] at most
      omega
  | stopped dead left =>
      have alive := inStep.goes left
      rw [dead] at alive
      cases alive

/-- A read that is no read, one of a full buffer, and one that gets something. -/
theorem read_cases (intake : Intake β ρ) (available : Nat) :
    read size look keeps intake available = intake ∨
      read size look keeps intake available = { intake with alive := false } ∨
      ∃ got left, got ≠ [] ∧ intake.socket = got ++ left ∧ intake.alive = true ∧
        read size look keeps intake available =
          settle look keeps { intake with buffer := intake.buffer ++ got, socket := left } := by
  unfold read
  split
  · exact Or.inl rfl
  · next called =>
      split
      · exact Or.inr (Or.inl rfl)
      · next some =>
          refine Or.inr (Or.inr ⟨_, _, some, (Stream.recv_append_rest _ _ _).symm, ?_, rfl⟩)
          cases alive : intake.alive with
          | false => exact absurd (Or.inl alive) called
          | true => rfl

/-- Once out of step, always out of step. -/
theorem Derailed.read {messages : List μ} {intake : Intake β ρ}
    (derailed : Derailed wire Gives Whole messages intake) (available : Nat) :
    Derailed wire Gives Whole messages (read size look keeps intake available) := by
  rcases @read_cases β ρ size look keeps intake available with
    same | ended | ⟨got, left, some, socket, alive, settled⟩
  · rw [same]
    exact derailed
  · rw [ended]
    cases derailed with
    | wrong before later message taken cut found bad =>
        exact .wrong before later message taken cut found bad
    | late before later message more cut behind come stuck =>
        exact .late before later message more cut behind come (Or.inl rfl)
    | stopped dead rest => exact .stopped rfl rest
  · rw [settled]
    unfold settle
    cases derailed with
    | wrong before later message taken cut found bad =>
        apply Derailed.wrong before later message taken cut _ bad
        split
        · exact found
        · exact found
        · exact (List.getElem?_append_left (List.getElem?_eq_some_iff.mp found).1).trans found
    | late before later message more cut behind come stuck =>
        have shorter : left.length ≤ intake.socket.length := by
          rw [socket, List.length_append]
          omega
        have further : (before.flatMap wire).length + (wire message).length ≤
            (messages.flatMap wire).length - left.length :=
          Nat.le_trans come (by unfold received; omega)
        obtain ⟨buffer, -⟩ := stuck.resolve_left (by rw [alive]; decide)
        have longer : intake.buffer ++ got = wire message ++ (more ++ got) := by
          rw [buffer, List.append_assoc]
        have nonempty : more ++ got ≠ [] := by
          simp [some]
        split
        · exact .late before later message (more ++ got) cut behind further
            (Or.inr ⟨longer, fun none => absurd none nonempty⟩)
        · exact .late before later message (more ++ got) cut behind further (Or.inl rfl)
        · next request _ =>
            apply Derailed.wrong before later message (intake.buffer ++ got, request) cut
            · rw [← behind, List.getElem?_append_right (Nat.le_refl _), Nat.sub_self]
              rfl
            · rintro ⟨bytes, -⟩
              rw [longer] at bytes
              exact nonempty (List.append_right_eq_self.mp bytes)
    | stopped dead rest =>
        rw [dead] at alive
        cases alive

theorem Derailed.run {messages : List μ} {intake : Intake β ρ}
    (derailed : Derailed wire Gives Whole messages intake) (arrivals : List Nat) :
    Derailed wire Gives Whole messages (run size look keeps intake arrivals) := by
  induction arrivals generalizing intake with
  | nil => exact derailed
  | cons available later ih => exact ih (derailed.read available)

theorem At.inStep {before later : List μ} {message : μ} {got : Nat} {intake : Intake β ρ}
    (here : At wire Gives before message later got intake) :
    InStep wire Gives (before ++ message :: later) intake := by
  have read : received wire (before ++ message :: later) intake =
      (before.flatMap wire).length + got := by
    have partly := here.partly
    unfold received
    rw [here.socket, List.length_drop, List.flatMap_append, List.length_append, List.flatMap_cons,
      List.length_append]
    omega
  refine ⟨?_, fun _ => here.alive⟩
  rw [read, complete_append, complete_nil, List.append_nil]
  · exact here.served
  · rintro first ⟨⟩
    exact here.partly

/-- All messages were taken. -/
structure Finished (wire : μ → List β) (Gives : ρ → μ → Prop) (messages : List μ)
    (intake : Intake β ρ) : Prop where
  socket : intake.socket = []
  served : List.Forall₂ (Answers wire Gives) intake.served messages

theorem Finished.inStep {messages : List μ} {intake : Intake β ρ}
    (finished : Finished wire Gives messages intake) : InStep wire Gives messages intake := by
  have all := complete_append wire messages [] 0
  rw [List.append_nil, Nat.add_zero, complete, List.append_nil] at all
  refine ⟨?_, fun left => absurd finished.socket left⟩
  rw [received, finished.socket, List.length_nil, Nat.sub_zero, all]
  exact finished.served

theorem Finished.run {messages : List μ} {intake : Intake β ρ}
    (finished : Finished wire Gives messages intake) (arrivals : List Nat) :
    run size look keeps intake arrivals = intake := by
  induction arrivals with
  | nil => rfl
  | cons available later ih =>
      have nothing : intake.socket.take available = [] := by
        rw [finished.socket, List.take_nil]
      have same : Intake.read size look keeps intake available = intake :=
        if_pos (Or.inr nothing)
      unfold Intake.run at ih ⊢
      rw [List.foldl_cons, same]
      exact ih

/-- What was read goes behind what the buffer holds. -/
theorem At.read (protocol : Protocol wire Gives Whole Stays size look keeps)
    {before later : List μ} {message : μ} {got available : Nat} {intake : Intake β ρ}
    (here : At wire Gives before message later got intake) (arrived : 0 < available) :
    0 < min available (size - got) ∧
      Intake.read size look keeps intake available =
        settle look keeps { intake with
          buffer := ((message :: later).flatMap wire).take (got + min available (size - got))
          socket := ((message :: later).flatMap wire).drop (got + min available (size - got)) } := by
  have partly := here.partly
  have fits := protocol.fits message
  have long : got < ((message :: later).flatMap wire).length := by
    rw [List.flatMap_cons, List.length_append]
    omega
  have held : intake.buffer.length = got := by
    rw [here.buffer, List.length_take]
    omega
  have waiting : intake.socket ≠ [] := by
    rw [here.socket]
    exact List.ne_nil_of_length_pos (by rw [List.length_drop]; omega)
  have room : 0 < size - intake.buffer.length := by omega
  have some := Stream.length_recv_pos waiting arrived room
  refine ⟨by omega, ?_⟩
  unfold Intake.read
  rw [if_neg, if_neg (List.ne_nil_of_length_pos some), Stream.recv, Stream.rest, held, here.buffer,
    here.socket, List.take_add, List.drop_drop]
  rintro (dead | nothing)
  · rw [here.alive] at dead
    cases dead
  · have none := congrArg List.length nothing
    rw [here.socket, List.length_take, List.length_drop, List.length_nil] at none
    omega

/-- A read that leaves some of the message for later. -/
theorem At.read_partly (protocol : Protocol wire Gives Whole Stays size look keeps)
    {before later : List μ} {message : μ} {got available : Nat} {intake : Intake β ρ}
    (here : At wire Gives before message later got intake)
    (missing : got + min available (size - got) < (wire message).length) :
    At wire Gives before message later (got + min available (size - got))
      (Intake.read size look keeps intake available) := by
  rcases Nat.eq_zero_or_pos available with rfl | arrived
  · have same : Intake.read size look keeps intake 0 = intake := if_pos (Or.inr List.take_zero)
    rw [same, Nat.zero_min, Nat.add_zero]
    exact here
  · obtain ⟨-, read⟩ := here.read protocol arrived
    have early := protocol.early message _ missing
    have part : ((message :: later).flatMap wire).take (got + min available (size - got)) =
        (wire message).take (got + min available (size - got)) := by
      rw [List.flatMap_cons, List.take_append_of_le_length (Nat.le_of_lt missing)]
    rw [read]
    unfold settle
    simp only [part, early]
    exact ⟨part.symm, rfl, missing, here.alive, here.served⟩

/-- A read that gets the rest of the message, and possibly more. -/
theorem At.read_whole (protocol : Protocol wire Gives Whole Stays size look keeps)
    {before later : List μ} {message : μ} {got available : Nat} {intake : Intake β ρ}
    (here : At wire Gives before message later got intake)
    (come : (wire message).length ≤ got + min available (size - got)) :
    Intake.read size look keeps intake available =
      settle look keeps { intake with
        buffer := wire message ++ (later.flatMap wire).take
          (got + min available (size - got) - (wire message).length)
        socket := (later.flatMap wire).drop
          (got + min available (size - got) - (wire message).length) } := by
  have partly := here.partly
  have arrived : 0 < available := by
    rcases Nat.eq_zero_or_pos available with rfl | arrived
    · rw [Nat.zero_min] at come
      omega
    · exact arrived
  obtain ⟨-, read⟩ := here.read protocol arrived
  rw [read, List.flatMap_cons, List.take_append, List.take_of_length_le come, List.drop_append,
    List.drop_of_length_le come, List.nil_append]

/-- Bytes of two messages, or a message that is not recognised, and the reader is out of step. -/
theorem At.derails (protocol : Protocol wire Gives Whole Stays size look keeps)
    {before later : List μ} {message : μ} {got : Nat} {intake : Intake β ρ} {more left : List β}
    (here : At wire Gives before message later got intake)
    (cut : later.flatMap wire = more ++ left) (odd : more = [] → ¬ Whole message) :
    Derailed wire Gives Whole (before ++ message :: later)
      (settle look keeps { intake with buffer := wire message ++ more, socket := left }) := by
  have behind := here.served.length_eq
  have total : ((before ++ message :: later).flatMap wire).length =
      (before.flatMap wire).length + (wire message).length + more.length + left.length := by
    rw [List.flatMap_append, List.length_append, List.flatMap_cons, List.length_append, cut,
      List.length_append]
    omega
  have come : (before.flatMap wire).length + (wire message).length ≤
      ((before ++ message :: later).flatMap wire).length - left.length := by omega
  unfold settle
  split
  · exact .late before later message more rfl behind come (Or.inr ⟨rfl, odd⟩)
  · exact .late before later message more rfl behind come (Or.inl rfl)
  · next request took =>
      apply Derailed.wrong before later message (wire message ++ more, request) rfl
      · rw [← behind, List.getElem?_append_right (Nat.le_refl _), Nat.sub_self]
        rfl
      · rintro ⟨bytes, gives⟩
        have none : more = [] := List.append_right_eq_self.mp bytes
        subst none
        rw [List.append_nil] at took
        exact protocol.blocked message (odd rfl) request took gives

/-- The message alone is taken. -/
theorem At.takes (protocol : Protocol wire Gives Whole Stays size look keeps)
    {before later : List μ} {message : μ} {got : Nat} {intake : Intake β ρ} (left : List β)
    (here : At wire Gives before message later got intake) (whole : Whole message) :
    ∃ request,
      settle look keeps { intake with buffer := wire message ++ [], socket := left } =
        ⟨[], left, keeps before.length request, intake.served ++ [(wire message, request)]⟩ ∧
      List.Forall₂ (Answers wire Gives) (intake.served ++ [(wire message, request)])
        (before ++ [message]) ∧
      (keeps before.length request = true ↔ Stays before.length message) := by
  obtain ⟨request, took, gives⟩ := protocol.whole message whole
  refine ⟨request, ?_, ?_, protocol.stays before.length message request took⟩
  · unfold settle
    simp only [List.append_nil, took, here.served.length_eq]
  · exact List.rel_append here.served (.cons ⟨rfl, gives⟩ .nil)

/-- From a place in the stream on: the reader stays in step exactly when no read takes bytes of
two messages. -/
theorem At.run_iff (protocol : Protocol wire Gives Whole Stays size look keeps)
    {before later : List μ} {message : μ} {got : Nat} {intake : Intake β ρ}
    (here : At wire Gives before message later got intake) (arrivals : List Nat) :
    InStep wire Gives (before ++ message :: later) (run size look keeps intake arrivals) ↔
      Apart wire Whole Stays size before.length (message :: later) got arrivals := by
  induction arrivals generalizing before message later got intake with
  | nil => exact iff_of_true here.inStep trivial
  | cons available arrivals ih =>
      have stepped : run size look keeps intake (available :: arrivals) =
          run size look keeps (Intake.read size look keeps intake available) arrivals := rfl
      rw [stepped, Apart]
      by_cases missing : got + min available (size - got) < (wire message).length
      · rw [if_pos missing]
        exact ih (here.read_partly protocol missing)
      · have come := Nat.le_of_not_lt missing
        rw [if_neg missing, here.read_whole protocol come]
        generalize extra : got + min available (size - got) - (wire message).length = count
        by_cases whole : Whole message
        · cases later with
          | nil =>
              obtain ⟨request, settled, served, -⟩ := here.takes protocol [] whole
              have finished : Finished wire Gives (before ++ [message])
                  ⟨[], [], keeps before.length request,
                    intake.served ++ [(wire message, request)]⟩ := ⟨rfl, served⟩
              rw [List.flatMap_nil, List.take_nil, List.drop_nil, settled, finished.run]
              exact iff_of_true finished.inStep ⟨whole, Or.inl rfl, apart_nil _ _ _⟩
          | cons next rest =>
              have some := List.length_pos_of_ne_nil (protocol.nonempty next)
              have long : 0 < ((next :: rest).flatMap wire).length := by
                rw [List.flatMap_cons, List.length_append]
                omega
              by_cases exact : got + min available (size - got) = (wire message).length
              · have none : count = 0 := by omega
                obtain ⟨request, settled, served, stays⟩ :=
                  here.takes protocol ((next :: rest).flatMap wire) whole
                rw [none, List.take_zero, List.drop_zero, settled]
                by_cases kept : Stays before.length message
                · have there : At wire Gives (before ++ [message]) next rest 0
                      ⟨[], (next :: rest).flatMap wire, keeps before.length request,
                        intake.served ++ [(wire message, request)]⟩ :=
                    ⟨rfl, rfl, some, stays.mpr kept, served⟩
                  have later := ih there
                  rw [List.append_assoc, List.length_append] at later
                  refine later.trans ⟨fun apart => ⟨whole, Or.inr ⟨exact, kept⟩, apart⟩, ?_⟩
                  exact fun apart => apart.2.2
                · have dead : keeps before.length request = false :=
                    Bool.eq_false_iff.mpr fun alive => kept (stays.mp alive)
                  have derailed : Derailed wire Gives Whole (before ++ message :: next :: rest)
                      ⟨[], (next :: rest).flatMap wire, keeps before.length request,
                        intake.served ++ [(wire message, request)]⟩ :=
                    .stopped dead (List.ne_nil_of_length_pos long)
                  refine iff_of_false (derailed.run arrivals).not_inStep ?_
                  rintro ⟨-, last | ⟨-, stay⟩, -⟩
                  · cases last
                  · exact kept stay
              · have odd : ((next :: rest).flatMap wire).take count = [] → ¬ Whole message := by
                  intro nothing
                  have none := congrArg List.length nothing
                  rw [List.length_take, List.length_nil] at none
                  omega
                have derailed := here.derails protocol (List.take_append_drop count _).symm odd
                refine iff_of_false (derailed.run arrivals).not_inStep ?_
                rintro ⟨-, last | ⟨same, -⟩, -⟩
                · cases last
                · exact exact same
        · have derailed := here.derails protocol
            (List.take_append_drop count (later.flatMap wire)).symm fun _ => whole
          refine iff_of_false (derailed.run arrivals).not_inStep ?_
          exact fun apart => whole apart.1

/-- The messages of a stream come out one by one exactly when no read takes bytes of two
messages. -/
theorem inStep_iff (protocol : Protocol wire Gives Whole Stays size look keeps)
    (messages : List μ) (arrivals : List Nat) :
    InStep wire Gives messages
        (run size look keeps (start (messages.flatMap wire)) arrivals) ↔
      Apart wire Whole Stays size 0 messages 0 arrivals := by
  cases messages with
  | nil =>
      have finished : Finished wire Gives [] (start (ρ := ρ) (([] : List μ).flatMap wire)) :=
        ⟨rfl, .nil⟩
      rw [finished.run]
      exact iff_of_true finished.inStep (apart_nil _ _ _)
  | cons message later =>
      have some := List.length_pos_of_ne_nil (protocol.nonempty message)
      have here : At wire Gives [] message later 0
          (start (ρ := ρ) ((message :: later).flatMap wire)) :=
        ⟨rfl, rfl, some, rfl, .nil⟩
      exact here.run_iff protocol arrivals

/-- From a place in a message that comes alone: the reader takes it as soon as all of it has
come. -/
theorem At.run_alone (protocol : Protocol wire Gives Whole Stays size look keeps)
    {message : μ} {got : Nat} {intake : Intake β ρ}
    (here : At wire Gives [] message [] got intake) (whole : Whole message)
    (arrivals : List Nat) :
    (got + arrivals.sum < (wire message).length →
      At wire Gives [] message [] (got + arrivals.sum) (run size look keeps intake arrivals)) ∧
    ((wire message).length ≤ got + arrivals.sum →
      ∃ request, Gives request message ∧ look (wire message) = .take request ∧
        run size look keeps intake arrivals =
          ⟨[], [], keeps 0 request, [(wire message, request)]⟩) := by
  induction arrivals generalizing got intake with
  | nil =>
      rw [List.sum_nil, Nat.add_zero]
      exact ⟨fun _ => here, fun come => absurd come (Nat.not_le_of_lt here.partly)⟩
  | cons available arrivals ih =>
      have fits := protocol.fits message
      have stepped : run size look keeps intake (available :: arrivals) =
          run size look keeps (Intake.read size look keeps intake available) arrivals := rfl
      rw [stepped, List.sum_cons]
      by_cases missing : got + min available (size - got) < (wire message).length
      · have all : min available (size - got) = available := by omega
        have later := ih (here.read_partly protocol missing)
        rw [all, Nat.add_assoc] at later
        exact later
      · have come := Nat.le_of_not_lt missing
        have unserved : intake.served = [] := List.forall₂_nil_right_iff.mp here.served
        obtain ⟨request, took, gives⟩ := protocol.whole message whole
        have settled : Intake.read size look keeps intake available =
            ⟨[], [], keeps 0 request, [(wire message, request)]⟩ := by
          rw [here.read_whole protocol come, List.flatMap_nil, List.take_nil, List.drop_nil,
            List.append_nil, settle]
          simp only [took, unserved]
          rfl
        have finished : Finished wire Gives [message]
            ⟨[], [], keeps 0 request, [(wire message, request)]⟩ :=
          ⟨rfl, .cons ⟨rfl, gives⟩ .nil⟩
        rw [settled, finished.run]
        exact ⟨fun less => by omega, fun _ => ⟨request, gives, took, rfl⟩⟩

/-- A message that comes alone is taken as soon as all of it has come, however it is cut. -/
theorem run_alone (protocol : Protocol wire Gives Whole Stays size look keeps) {message : μ}
    (whole : Whole message) (arrivals : List Nat) :
    (arrivals.sum < (wire message).length →
      At wire Gives [] message [] arrivals.sum
        (run size look keeps (start (wire message)) arrivals)) ∧
    ((wire message).length ≤ arrivals.sum →
      ∃ request, Gives request message ∧ look (wire message) = .take request ∧
        run size look keeps (start (wire message)) arrivals =
          ⟨[], [], keeps 0 request, [(wire message, request)]⟩) := by
  have some := List.length_pos_of_ne_nil (protocol.nonempty message)
  have all : ([message] : List μ).flatMap wire = wire message := List.flatMap_singleton ..
  have here : At wire Gives [] message [] 0 (start (ρ := ρ) (wire message)) :=
    ⟨rfl, all.symm, some, rfl, .nil⟩
  have later := here.run_alone protocol whole arrivals
  rw [Nat.zero_add] at later
  exact later

end Protocol

end Intake
