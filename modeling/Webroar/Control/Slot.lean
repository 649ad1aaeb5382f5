import Webroar.Control.Progress

/-! # The slot for an outgoing message

A control connection has a pointer to one object, and a watcher that sends this object as long as it
is active. The pointer is the whole queue: a message that is put there goes in place of whatever the
slot held.

A socket that is writable takes at least one byte.
-/

/-- An object in a slot: how far it is, and the how-manieth object of the connection it is. -/
structure Outgoing where
  serial : Nat
  progress : Scgi.Progress

namespace Outgoing

/-- The bytes that are to be sent. -/
def wire (outgoing : Outgoing) : List UInt8 := outgoing.progress.scgi.wire

/-- Change the object. -/
def edit (f : Scgi → Scgi) (outgoing : Outgoing) : Outgoing :=
  { outgoing with progress := { outgoing.progress with scgi := f outgoing.progress.scgi } }

/-- The object is not finished, and nothing was sent. -/
structure Fresh (outgoing : Outgoing) : Prop where
  bytesSent : outgoing.progress.scgi.bytesSent = 0
  accepted : outgoing.progress.accepted = []

/-- The object is finished, and a part of it was sent. -/
def Flight (outgoing : Outgoing) : Prop :=
  ∃ block memory sent, outgoing.progress.At block memory sent ∧ outgoing.wire = block ++ memory

variable {outgoing : Outgoing}

/-- A finished object can be sent. -/
theorem Fresh.build (fresh : outgoing.Fresh) : (outgoing.edit Scgi.build).Flight := by
  refine ⟨_, _, 0, ⟨.build fresh.bytesSent, ?_⟩, rfl⟩
  rw [List.take_zero]
  exact fresh.accepted

end Outgoing

/-- The pointer of a connection and its write watcher; the numbers of the messages that were sent to
their ends, with the bytes that were taken of them. -/
structure Slot where
  scgi : Option Outgoing
  active : Bool
  next : Nat
  done : List (Nat × List UInt8)

namespace Slot

/-- The slot of a new connection. -/
def empty : Slot := ⟨none, false, 0, []⟩

/-- Let the pointer show a new object. -/
def put (scgi : Scgi) (slot : Slot) : Slot :=
  { slot with scgi := some ⟨slot.next, ⟨scgi, []⟩⟩, next := slot.next + 1 }

/-- Change the object; nothing is done where there is none. -/
def edit (f : Scgi → Scgi) (slot : Slot) : Slot :=
  { slot with scgi := slot.scgi.map (Outgoing.edit f) }

/-- `ev_io_start`. -/
def start (slot : Slot) : Slot := { slot with active := true }

/-- `ev_io_stop`. -/
def stop (slot : Slot) : Slot := { slot with active := false }

/-- Set the pointer to NULL. -/
def clear (slot : Slot) : Slot := { slot with scgi := none }

/-- The bytes that `send` takes at most from a socket with some room. -/
def taken (room : Nat) : Nat := min (room + 1) Stream.sendMax

/-- The object after a call of `scgi_send`. -/
def sent (room : Nat) (outgoing : Outgoing) : Outgoing :=
  { outgoing with progress := outgoing.progress.call (taken room) }

/-- The object was sent to its end. -/
def finish (outgoing : Outgoing) (slot : Slot) : Slot :=
  { slot with
    scgi := none
    active := false
    done := slot.done ++ [(outgoing.serial, outgoing.progress.accepted)] }

/-! ### What is not to be lost -/

/-- A step loses nothing: a started message stays until it was sent as a whole, one that is under
construction stays, and the watcher is not active without an object. -/
structure Keeps (before after : Slot) (waiting : Bool) : Prop where
  watched : after.active = true → after.scgi ≠ none
  started : before.active = true → ∀ message, before.scgi = some message →
    (∃ same, after.scgi = some same ∧ same.serial = message.serial) ∨
      (message.serial, message.wire) ∈ after.done
  constructed : waiting = true → ∀ message, before.scgi = some message →
    ∃ same, after.scgi = some same ∧ same.serial = message.serial

/-- The numbers go up. -/
structure Numbered (slot : Slot) : Prop where
  held : ∀ message, slot.scgi = some message →
    message.serial < slot.next ∧ ∀ entry ∈ slot.done, entry.1 < message.serial
  done : ∀ entry ∈ slot.done, entry.1 < slot.next

variable {slot before after : Slot} {outgoing : Outgoing} {waiting : Bool}

theorem numbered_empty : Numbered empty := ⟨nofun, nofun⟩

theorem Numbered.put (numbered : slot.Numbered) (scgi : Scgi) : (slot.put scgi).Numbered := by
  refine ⟨?_, fun entry member => Nat.lt_succ_of_lt (numbered.done entry member)⟩
  rintro message ⟨⟩
  exact ⟨Nat.lt_succ_self _, numbered.done⟩

theorem Numbered.edit (numbered : slot.Numbered) (f : Scgi → Scgi) : (slot.edit f).Numbered := by
  refine ⟨fun message same => ?_, numbered.done⟩
  obtain ⟨old, found, rfl⟩ := Option.map_eq_some_iff.mp same
  exact numbered.held old found

theorem Numbered.start (numbered : slot.Numbered) : slot.start.Numbered :=
  ⟨numbered.held, numbered.done⟩

theorem Numbered.stop (numbered : slot.Numbered) : slot.stop.Numbered :=
  ⟨numbered.held, numbered.done⟩

theorem Numbered.clear (numbered : slot.Numbered) : slot.clear.Numbered := ⟨nofun, numbered.done⟩

theorem Numbered.sent (numbered : slot.Numbered) (found : slot.scgi = some outgoing) (room : Nat) :
    { slot with scgi := some (Slot.sent room outgoing) }.Numbered := by
  refine ⟨?_, numbered.done⟩
  rintro message ⟨⟩
  exact numbered.held outgoing found

theorem Numbered.finish (numbered : slot.Numbered) (found : slot.scgi = some outgoing)
    (room : Nat) : (slot.finish (Slot.sent room outgoing)).Numbered := by
  refine ⟨nofun, fun entry member => ?_⟩
  rcases List.mem_append.mp member with old | last
  · exact numbered.done entry old
  · obtain rfl := List.mem_singleton.mp last
    exact (numbered.held outgoing found).1

/-- The bytes that are taken continue the message, and with the last of them it was sent as a
whole. -/
theorem flight_sent (flight : outgoing.Flight) (room : Nat) :
    0 < (outgoing.progress.scgi.sendOnce (taken room)).2.1 ∧ (sent room outgoing).Flight ∧
      (sent room outgoing).wire = outgoing.wire ∧
      ((sent room outgoing).progress.scgi.length ≤ (sent room outgoing).progress.scgi.bytesSent →
        (sent room outgoing).progress.accepted = outgoing.wire) := by
  obtain ⟨block, memory, count, there, message⟩ := flight
  have most : Stream.sendMax = 0x7ffff000 := rfl
  have some : 0 < taken room := by
    unfold taken
    omega
  have few : taken room < 2 ^ 31 := by
    unfold taken
    omega
  have good : count < block.length + memory.length →
      0 < Decimal.toInt32 (min (taken room) (Scgi.left block.length memory.length count) : Nat) := by
    intro missing
    have left : 0 < Scgi.left block.length memory.length count := by
      unfold Scgi.left
      split
      · omega
      · omega
    rw [Decimal.toInt32_of_lt (by omega)]
    omega
  obtain ⟨exact, next⟩ := there.call good
  have same : (sent room outgoing).wire = block ++ memory := by
    have finished := next.sending.finished
    have held := next.sending.held
    simp only [Outgoing.wire, Scgi.wire, sent, finished, held]
  refine ⟨?_, ⟨block, memory, _, next, same⟩, same.trans message.symm, fun ended => ?_⟩
  · refine Int.lt_of_not_ge fun none => ?_
    have fails := (exact.result.mp none).2.2
    omega
  · rw [message]
    exact exact.ended.mp ended

/-- A started message that stays, or that was sent to its end, is not lost. -/
theorem keeps_sent (found : before.scgi = some outgoing) (quiet : waiting = false) (room : Nat) :
    Keeps before { before with scgi := some (sent room outgoing) } waiting := by
  refine ⟨fun _ => nofun, ?_, fun other => ?_⟩
  · intro _ message same
    rw [found] at same
    cases same
    exact Or.inl ⟨_, rfl, rfl⟩
  · rw [quiet] at other
    cases other

theorem keeps_finish (found : before.scgi = some outgoing) (quiet : waiting = false) {room : Nat}
    (whole : (sent room outgoing).progress.accepted = outgoing.wire) :
    Keeps before (before.finish (sent room outgoing)) waiting := by
  refine ⟨nofun, ?_, fun other => ?_⟩
  · intro _ message same
    rw [found] at same
    cases same
    refine Or.inr (List.mem_append_right _ ?_)
    rw [whole]
    exact List.mem_singleton_self _
  · rw [quiet] at other
    cases other

/-- Nothing is lost from an empty slot. -/
theorem keeps_of_none (none : before.scgi = none)
    (watched : after.active = true → after.scgi ≠ Option.none) : Keeps before after waiting := by
  refine ⟨watched, fun _ message same => ?_, fun _ message same => ?_⟩
  · rw [none] at same
    cases same
  · rw [none] at same
    cases same

/-- A new object, or none, in place of one that is sent or constructed loses that one. -/
theorem not_keeps_of_replaced (numbered : before.Numbered) (found : before.scgi = some outgoing)
    (used : before.active = true ∨ waiting = true)
    (replaced : ∀ message, after.scgi = some message → before.next ≤ message.serial)
    (done : after.done = before.done) : ¬ Keeps before after waiting := by
  intro keeps
  obtain ⟨old, earlier⟩ := numbered.held outgoing found
  have gone : ¬ ∃ same, after.scgi = some same ∧ same.serial = outgoing.serial := by
    rintro ⟨same, there, number⟩
    have later := replaced same there
    omega
  rcases used with active | constructing
  · rcases keeps.started active outgoing found with stays | sent
    · exact gone stays
    · rw [done] at sent
      exact Nat.lt_irrefl _ (earlier _ sent)
  · exact gone (keeps.constructed constructing outgoing found)

end Slot
