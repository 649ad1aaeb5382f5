import Webroar.Control.Sharing

/-! # How far an object is sent

`scgi_send` keeps the number of bytes that were sent in the object and works out from it which
buffer is next. The result of `send` is kept in a `size_t`: a failure is a very large number there,
and is added like any other result.

Here `send` may take any number of bytes, also one that is not positive as an `int`.
-/

open Decimal (toInt32)

namespace Scgi

/-- `scgi_send`, when there is room for `room` bytes on the socket; without any room `send` fails.
The bytes that were taken come with the result. -/
def sendOnce (scgi : Scgi) (room : Nat) : Scgi × Int × List UInt8 :=
  let headerBytes := scgi.headerOffset - scgi.startOffset
  if scgi.length ≤ scgi.bytesSent then
    (scgi, 1, [])
  else if headerBytes ≤ scgi.bytesSent ∧ scgi.body = none then
    (scgi, 1, [])
  else
    let buffer :=
      if headerBytes ≤ scgi.bytesSent then
        (scgi.body.getD []).drop (scgi.bytesSent - headerBytes)
      else
        scgi.header.slice (scgi.startOffset + scgi.bytesSent) (headerBytes - scgi.bytesSent)
    if room = 0 then
      -- -1 is a large number in a `size_t`, and -1 again as an `int`
      ({ scgi with bytesSent := (scgi.bytesSent + (2 ^ 64 - 1)) % 2 ^ 64 }, -1, [])
    else
      let sent := buffer.take room
      ({ scgi with bytesSent := scgi.bytesSent + sent.length }, toInt32 sent.length, sent)

/-- Does a call come to `send`, and does that fail? -/
def SendFails (scgi : Scgi) (room : Nat) : Prop :=
  scgi.bytesSent < scgi.length ∧
    ¬ (scgi.headerOffset - scgi.startOffset ≤ scgi.bytesSent ∧ scgi.body = none) ∧ room = 0

/-- The replies are sent by this function. -/
theorem scgiSend_eq (scgi : Scgi) (room : Nat) :
    ConfReplies.State.scgiSend scgi room = scgi.sendOnce (min room Stream.sendMax) := by
  unfold ConfReplies.State.scgiSend Scgi.sendFails Scgi.send sendOnce Stream.send
  have positive : 0 < Stream.sendMax := by decide
  generalize Stream.sendMax = most at positive
  by_cases none : room = 0
  · simp only [none, Nat.zero_min, ↓reduceIte]
  · have some : ¬ min room most = 0 := by omega
    simp only [if_neg none, if_neg some]

/-! ### The bytes that are left -/

/-- The length of the buffer that is next, when `sent` bytes of the header block and the body were
sent. -/
def left (header body sent : Nat) : Nat :=
  if sent < header then header - sent else header + body - sent

/-- How many bytes a sequence of calls sends when none of them fails. -/
def transferred (header body : Nat) (rooms : Nat → Nat) : Nat → Nat
  | 0 => 0
  | count + 1 =>
      let sent := transferred header body rooms count
      sent + min (rooms count) (left header body sent)

theorem transferred_le (header body : Nat) (rooms : Nat → Nat) (count : Nat) :
    transferred header body rooms count ≤ header + body := by
  induction count with
  | zero => exact Nat.zero_le _
  | succ count ih =>
      simp only [transferred, left]
      split
      · omega
      · omega

/-- An object as `scgi_build` leaves it, of which the first `sent` bytes were sent. -/
structure Sending (scgi : Scgi) (block memory : List UInt8) (sent : Nat) : Prop where
  length : scgi.length = block.length + memory.length
  finished : scgi.block = block
  held : scgi.body.getD [] = memory
  bytesSent : scgi.bytesSent = sent
  bounded : sent ≤ block.length + memory.length

variable {scgi : Scgi} {block memory : List UInt8} {sent room : Nat}

theorem length_close (scgi : Scgi) : scgi.close.length =
    scgi.close.headerOffset - scgi.close.startOffset + scgi.close.bodyLength := by
  unfold close bodyLength
  dsimp only

/-- A finished object from which nothing was sent. -/
theorem Sending.build {draft : Scgi} (fresh : draft.bytesSent = 0) :
    Sending draft.build draft.build.block (draft.build.body.getD []) 0 := by
  refine ⟨?_, rfl, rfl, ?_, Nat.zero_le _⟩
  · rw [block, Block.length_slice]
    exact length_close _
  · rw [bytesSent_build, fresh]

theorem Sending.header (sending : scgi.Sending block memory sent) :
    scgi.headerOffset - scgi.startOffset = block.length := by
  rw [← sending.finished, Scgi.block, Block.length_slice]

theorem Sending.unsent (sending : scgi.Sending block memory sent)
    (missing : sent < block.length + memory.length) :
    ¬ (scgi.headerOffset - scgi.startOffset ≤ scgi.bytesSent ∧ scgi.body = none) := by
  rintro ⟨behind, none⟩
  have held := sending.held
  rw [none, Option.getD_none] at held
  rw [sending.header, sending.bytesSent] at behind
  rw [← held, List.length_nil] at missing
  omega

/-- Nothing happens to an object that was sent. -/
theorem Sending.sendOnce_complete (sending : scgi.Sending block memory sent)
    (complete : block.length + memory.length ≤ sent) :
    scgi.sendOnce room = (scgi, 1, []) := by
  unfold sendOnce
  rw [if_pos (by rw [sending.length, sending.bytesSent]; exact complete)]

/-- The bytes that are taken from an object that is not all sent. -/
theorem Sending.sendOnce (sending : scgi.Sending block memory sent) (room : Nat)
    (missing : sent < block.length + memory.length) :
    scgi.sendOnce room =
      if room = 0 then
        ({ scgi with bytesSent := (sent + (2 ^ 64 - 1)) % 2 ^ 64 }, -1, [])
      else
        let count : Nat := min room (left block.length memory.length sent)
        ({ scgi with bytesSent := sent + count }, toInt32 count,
          ((block ++ memory).drop sent).take count) := by
  have unfinished : ¬ scgi.length ≤ scgi.bytesSent := by
    rw [sending.length, sending.bytesSent]
    exact Nat.not_le_of_lt missing
  unfold Scgi.sendOnce
  dsimp only
  rw [if_neg unfinished, if_neg (sending.unsent missing)]
  simp only [sending.header, sending.bytesSent, sending.held]
  by_cases none : room = 0
  · rw [if_pos none, if_pos none]
  · rw [if_neg none, if_neg none]
    -- The buffer is what is left of the block, or of the body.
    obtain ⟨buffer, next, sized, front⟩ : ∃ buffer, (if block.length ≤ sent then
          memory.drop (sent - block.length)
        else scgi.header.slice (scgi.startOffset + sent) (block.length - sent)) = buffer ∧
        buffer.length = left block.length memory.length sent ∧
        buffer <+: (block ++ memory).drop sent := by
      refine ⟨_, rfl, ?_⟩
      unfold left
      by_cases behind : block.length ≤ sent
      · rw [if_pos behind, if_neg (Nat.not_lt_of_le behind), List.drop_append,
          List.drop_of_length_le behind, List.nil_append, List.length_drop]
        exact ⟨by omega, List.prefix_rfl⟩
      · have before : sent ≤ block.length := Nat.le_of_not_le behind
        have cut : scgi.header.slice (scgi.startOffset + sent) (block.length - sent) =
            block.drop sent := by
          refine (Block.slice_of_append (block.take sent) (block.drop sent) ?_ ?_).2
          · rw [Nat.add_sub_cancel' before, List.take_append_drop, ← sending.header]
            exact sending.finished
          · rw [List.length_take, Nat.min_eq_left before]
        rw [if_neg behind, if_pos (Nat.lt_of_not_le behind), cut,
          List.drop_append_of_le_length before, List.length_drop]
        exact ⟨rfl, List.prefix_append _ _⟩
    rw [next]
    have taken : buffer.take room =
        ((block ++ memory).drop sent).take (min room (left block.length memory.length sent)) := by
      obtain ⟨rest, whole⟩ := front
      rw [← whole, ← sized, List.take_append_of_le_length (Nat.min_le_right _ _),
        ← List.take_take, List.take_length]
    have counted : (buffer.take room).length =
        min room (left block.length memory.length sent) := by
      rw [List.length_take, sized]
    rw [counted, taken]

/-! ### A sequence of calls -/

/-- An object and all that was taken of it. -/
structure Progress where
  scgi : Scgi
  accepted : List UInt8

/-- One call of `scgi_send`. -/
def Progress.call (room : Nat) (progress : Progress) : Progress where
  scgi := (progress.scgi.sendOnce room).1
  accepted := progress.accepted ++ (progress.scgi.sendOnce room).2.2

/-- What a call has to keep and to return: the count is that of the bytes that were taken, these
are a beginning of the message, a failure changes nothing, it alone gives a number that is not
positive, and the end is reached exactly with the whole message. -/
structure Exact (message : List UInt8) (progress : Progress) (room : Nat) : Prop where
  counted : (progress.call room).scgi.bytesSent = (progress.call room).accepted.length
  ordered : (progress.call room).accepted <+: message
  unchanged : progress.scgi.SendFails room →
    (progress.call room).scgi.bytesSent = progress.scgi.bytesSent
  result : (progress.scgi.sendOnce room).2.1 ≤ 0 ↔ progress.scgi.SendFails room
  ended : (progress.call room).scgi.length ≤ (progress.call room).scgi.bytesSent ↔
    (progress.call room).accepted = message

variable {rooms : Nat → Nat} {progress : Progress}

/-- The result of `send`, as an `int`, is positive while there is something to send. -/
def Positive (header body : Nat) (rooms : Nat → Nat) (count : Nat) : Prop :=
  let sent := transferred header body rooms count
  sent < header + body → 0 < toInt32 (min (rooms count) (left header body sent) : Nat)

/-- How far a message is after some calls. -/
structure Progress.At (progress : Progress) (block memory : List UInt8) (sent : Nat) : Prop where
  sending : progress.scgi.Sending block memory sent
  accepted : progress.accepted = (block ++ memory).take sent

theorem Progress.At.call (there : progress.At block memory sent)
    (good : sent < block.length + memory.length →
      0 < toInt32 (min room (left block.length memory.length sent) : Nat)) :
    Exact (block ++ memory) progress room ∧
      (progress.call room).At block memory
        (sent + min room (left block.length memory.length sent)) := by
  obtain ⟨sending, accepted⟩ := there
  by_cases missing : sent < block.length + memory.length
  · have positive := good missing
    have some : ¬ room = 0 := by
      intro none
      rw [none, Nat.zero_min] at positive
      exact absurd positive (by decide)
    have result := sending.sendOnce room missing
    rw [if_neg some] at result
    dsimp only at result
    have bounded : min room (left block.length memory.length sent) ≤
        block.length + memory.length - sent := by
      unfold left
      split
      · omega
      · omega
    generalize min room (left block.length memory.length sent) = count at result positive bounded
    have extended : progress.accepted ++ ((block ++ memory).drop sent).take count =
        (block ++ memory).take (sent + count) := by
      rw [accepted, List.take_add]
    have measured : ((block ++ memory).take (sent + count)).length = sent + count := by
      rw [List.length_take, List.length_append]
      omega
    have called : progress.call room =
        ⟨{ progress.scgi with bytesSent := sent + count },
          (block ++ memory).take (sent + count)⟩ := by
      unfold Progress.call
      rw [result, extended]
    rw [called]
    refine ⟨⟨?_, ?_, ?_, ?_, ?_⟩, ⟨⟨sending.length, sending.finished, sending.held, rfl, by omega⟩,
      rfl⟩⟩
    · rw [called]
      exact measured.symm
    · rw [called]
      exact List.take_prefix _ _
    · exact fun fails => absurd fails.2.2 some
    · rw [result]
      dsimp only
      exact ⟨fun negative => absurd (Int.lt_of_lt_of_le positive negative) (Int.lt_irrefl 0),
        fun fails => absurd fails.2.2 some⟩
    · rw [called]
      dsimp only
      rw [sending.length]
      constructor
      · intro all
        rw [List.take_of_length_le (by rw [List.length_append]; exact all)]
      · intro all
        rw [all, List.length_append] at measured
        exact measured.le
  · have complete : block.length + memory.length ≤ sent := Nat.le_of_not_lt missing
    have nothing : left block.length memory.length sent = 0 := by
      unfold left
      split
      · omega
      · omega
    have all : progress.accepted = block ++ memory := by
      rw [accepted, List.take_of_length_le (by rw [List.length_append]; exact complete)]
    have called : progress.call room = progress := by
      unfold Progress.call
      rw [sending.sendOnce_complete complete, List.append_nil]
    have exactly := Nat.le_antisymm sending.bounded complete
    rw [nothing, Nat.min_zero, Nat.add_zero, called]
    refine ⟨⟨?_, ?_, ?_, ?_, ?_⟩, ⟨sending, accepted⟩⟩
    · rw [called, sending.bytesSent, all, List.length_append, exactly]
    · simp only [called, all, List.prefix_rfl]
    · exact fun _ => by rw [called]
    · rw [sending.sendOnce_complete complete]
      have positive : ¬ (1 : Int) ≤ 0 := by decide
      refine ⟨fun negative => absurd negative positive, fun fails => ?_⟩
      have short := fails.1
      rw [sending.length, sending.bytesSent] at short
      omega
    · rw [called, sending.length, sending.bytesSent]
      exact ⟨fun _ => all, fun _ => complete⟩

/-- A result that is not positive breaks what a call has to do. -/
theorem Progress.At.not_exact (there : progress.At block memory sent)
    (missing : sent < block.length + memory.length)
    (bad : ¬ 0 < toInt32 (min room (left block.length memory.length sent) : Nat)) :
    ¬ Exact (block ++ memory) progress room := by
  intro exact
  have sending := there.sending
  have result := sending.sendOnce room missing
  have bytes := sending.bytesSent
  by_cases none : room = 0
  · rw [if_pos none] at result
    have kept := exact.unchanged ⟨by rw [sending.length, bytes]; exact missing,
      sending.unsent missing, none⟩
    unfold Progress.call at kept
    rw [result, bytes] at kept
    dsimp only at kept
    omega
  · rw [if_neg none] at result
    have refused := exact.result
    rw [result] at refused
    dsimp only at refused
    exact none (refused.mp (Int.le_of_not_gt bad)).2.2

/-- The state after some calls. -/
def Progress.after (scgi : Scgi) (rooms : Nat → Nat) (count : Nat) : Progress :=
  Machine.after Progress.call rooms ⟨scgi, []⟩ count

/-- The calls that send a built message keep the exact progress if and only if `send` gives a
positive number, also as an `int`, as long as something is left. -/
theorem progress_iff (draft : Scgi) (fresh : draft.bytesSent = 0) (rooms : Nat → Nat) :
    (∀ count, Exact draft.build.wire (.after draft.build rooms count) (rooms count)) ↔
      ∀ count, Positive draft.build.block.length (draft.build.body.getD []).length rooms count := by
  have start : Progress.At ⟨draft.build, []⟩ draft.build.block (draft.build.body.getD []) 0 :=
    ⟨.build fresh, rfl⟩
  generalize draft.build = scgi at start ⊢
  generalize held : scgi.body.getD [] = memory at start ⊢
  generalize made : scgi.block = block at start ⊢
  have message : scgi.wire = block ++ memory := by rw [wire, made, held]
  rw [message]
  have reached : ∀ count, (∀ earlier < count, Positive block.length memory.length rooms earlier) →
      (Progress.after scgi rooms count).At block memory
        (transferred block.length memory.length rooms count) := by
    intro count
    induction count with
    | zero => exact fun _ => start
    | succ count ih =>
        intro good
        have there := ih fun earlier before => good earlier (Nat.lt_succ_of_lt before)
        exact (there.call (good count (Nat.lt_succ_self count))).2
  constructor
  · intro exact count
    induction count using Nat.strong_induction_on with
    | _ count ih =>
        intro missing
        by_contra bad
        exact (reached count ih).not_exact missing bad (exact count)
  · intro good count
    exact ((reached count fun earlier _ => good earlier).call (good count)).1

theorem fresh_drafted (junk : Nat → UInt8) (calls : List Call) :
    (drafted junk calls).bytesSent = 0 := by
  rw [drafted, bytesSent_run]
  exact bytesSent_call _ (.headerAdd _ _)

/-- `send` on Linux never takes so many bytes that their number is not positive as an `int`, so only
its failures matter there. -/
theorem positive_of_lt {header body : Nat} (some : ∀ count, 0 < rooms count)
    (few : ∀ count, rooms count < 2 ^ 31) (count : Nat) : Positive header body rooms count := by
  intro missing
  have positive : 0 < left header body (transferred header body rooms count) := by
    unfold left
    split
    · omega
    · omega
  have room := some count
  have bound := few count
  rw [Decimal.toInt32_of_lt (by omega)]
  omega

/-- The second call for a message with a body, of which five bytes at a time are taken. -/
theorem progress_sample :
    Exact (drafted (fun _ => 0) [.bodyAdd (ascii "hello")]).build.wire
      (.after (drafted (fun _ => 0) [.bodyAdd (ascii "hello")]).build (fun _ => 5) 1) 5 :=
  (progress_iff _ (fresh_drafted _ _) fun _ => 5).mpr
    (positive_of_lt (fun _ => by decide) fun _ => by decide) 1

/-- The first call for the empty message fails. -/
theorem not_progress : ¬ ∀ count,
    Exact (drafted (fun _ => 0) []).build.wire
      (.after (drafted (fun _ => 0) []).build (fun _ => 0) count) 0 := by
  intro exact
  have start : Progress.At ⟨(drafted (fun _ => 0) []).build, []⟩
      (drafted (fun _ => 0) []).build.block ((drafted (fun _ => 0) []).build.body.getD []) 0 :=
    ⟨.build (fresh_drafted _ _), rfl⟩
  have some : 0 < (drafted (fun _ => 0) []).build.block.length := by decide +kernel
  refine start.not_exact (Nat.add_pos_left some _) ?_ (exact 0)
  rw [Nat.zero_min]
  decide

end Scgi
