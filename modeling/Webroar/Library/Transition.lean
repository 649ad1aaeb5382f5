import Mathlib.Algebra.Group.Nat.Defs
import Mathlib.Data.List.Basic
import Mathlib.Data.Nat.Find
import Mathlib.Tactic.Cases

/-! # Runs of a machine driven by inputs

A machine is a step function on inputs and states; a run is fed an endless sequence of inputs.
What is shown here about runs are the rules by which facts about one step become facts about
all states of a run: an invariant, a state that is never left again, and a measure that has to
run out. A step may also fail, and then the run has no state any more.

Bytes on a socket travel in portions. `recv` takes what is available up to a limit, and `send`
takes what there is room for.
-/

universe u v

namespace Machine

variable {Input : Type u} {State : Type v}

/-- The state after the first `count` inputs. -/
def after (step : Input → State → State) (input : Nat → Input) (start : State) : Nat → State
  | 0 => start
  | count + 1 => step (input count) (after step input start count)

variable {step : Input → State → State} {input : Nat → Input} {start : State}

theorem after_succ (count : Nat) :
    after step input start (count + 1) = step (input count) (after step input start count) := rfl

/-- A run goes on from any of its states with the inputs that are left. -/
theorem after_add (first count : Nat) :
    after step input start (first + count) =
      after step (fun n => input (first + n)) (after step input start first) count := by
  induction count with
  | zero => rfl
  | succ count ih => rw [← Nat.add_assoc, after_succ, ih, after_succ]

/-- What holds at one point of a run and is kept by every step holds from there on. -/
theorem invariant_from (Inv : State → Prop) {first : Nat}
    (begins : Inv (after step input start first))
    (kept : ∀ count state, Inv state → Inv (step (input count) state)) :
    ∀ count, first ≤ count → Inv (after step input start count) := by
  intro count later
  induction later with
  | refl => exact begins
  | step _ ih => exact kept _ _ ih

/-- What holds at the start and is kept by every step holds throughout. -/
theorem invariant (Inv : State → Prop) (begins : Inv start)
    (kept : ∀ count state, Inv state → Inv (step (input count) state)) (count : Nat) :
    Inv (after step input start count) := by
  have first : Inv (after step input start 0) := begins
  exact invariant_from Inv first kept count (Nat.zero_le count)

/-- While a goal is not reached every step keeps the invariant and shrinks the measure; so the
goal is reached, for the first time at some point. -/
theorem reaches (Inv Goal : State → Prop) (measure : State → Nat) (begins : Inv start)
    (progress : ∀ count state, Inv state → ¬ Goal state →
      Inv (step (input count) state) ∧ measure (step (input count) state) < measure state) :
    ∃ count, Goal (after step input start count) ∧
      (∀ earlier ≤ count, Inv (after step input start earlier)) ∧
      ∀ earlier < count, ¬ Goal (after step input start earlier) := by
  classical
  have some : ∃ count, Goal (after step input start count) := by
    by_contra never
    have never : ∀ count, ¬ Goal (after step input start count) := fun count reached =>
      never ⟨count, reached⟩
    have runs : ∀ count, Inv (after step input start count) ∧
        measure (after step input start count) + count ≤ measure start := by
      intro count
      induction count with
      | zero => exact ⟨begins, Nat.le_refl _⟩
      | succ count ih =>
          obtain ⟨holds, less⟩ := progress count _ ih.1 (never count)
          exact ⟨holds, by rw [after_succ]; omega⟩
    have spent := (runs (measure start + 1)).2
    omega
  refine ⟨Nat.find some, Nat.find_spec some, ?_, fun earlier before => Nat.find_min some before⟩
  intro count
  induction count with
  | zero => exact fun _ => begins
  | succ count ih =>
      intro bound
      exact (progress count _ (ih (by omega)) (Nat.find_min some (by omega))).1

/-- Where a good input is just what it takes for a step to be safe, all steps of a run are safe if
and only if all its inputs are good. -/
theorem safe_iff (Inv : State → Prop) (Safe Good : Input → State → Prop) (begins : Inv start)
    (progress : ∀ input state, Inv state → Good input state →
      Inv (step input state) ∧ Safe input state)
    (needed : ∀ input state, Inv state → Safe input state → Good input state) :
    (∀ count, Safe (input count) (after step input start count)) ↔
      ∀ count, Good (input count) (after step input start count) := by
  have holds : ∀ count, (∀ earlier < count, Good (input earlier) (after step input start earlier)) →
      Inv (after step input start count) := by
    intro count
    induction count with
    | zero => exact fun _ => begins
    | succ count ih =>
        intro good
        have here := ih fun earlier before => good earlier (Nat.lt_succ_of_lt before)
        exact (progress _ _ here (good count (Nat.lt_succ_self count))).1
  constructor
  · intro safe count
    induction count using Nat.strong_induction_on with
    | _ count ih => exact needed _ _ (holds count ih) (safe count)
  · intro good count
    exact (progress _ _ (holds count fun earlier _ => good earlier) (good count)).2

/-! ### Steps that may fail -/

/-- A step that may fail, from a state that an earlier step may have failed to reach. -/
def attempt (step : Input → State → Option State) (input : Input) (state : Option State) :
    Option State :=
  state.bind (step input)

variable {perform : Input → State → Option State}

/-- What is kept by every step that does not fail holds as long as the run has a state. -/
theorem attempt_invariant (Inv : State → Prop) (begins : Inv start)
    (kept : ∀ input state after, Inv state → perform input state = some after → Inv after)
    (count : Nat) (state : State)
    (reached : after (attempt perform) input (some start) count = some state) : Inv state := by
  induction count generalizing state with
  | zero => exact Option.some.inj reached ▸ begins
  | succ count ih =>
      obtain ⟨before, earlier, stepped⟩ := Option.bind_eq_some_iff.mp reached
      exact kept _ before state (ih before earlier) stepped

/-- While every input is a good one no step fails. -/
theorem attempt_safe (Inv : State → Prop) (Good : Input → State → Prop) (begins : Inv start)
    (progress : ∀ input state, Inv state → Good input state →
      ∃ after, perform input state = some after ∧ Inv after)
    (good : ∀ count state, after (attempt perform) input (some start) count = some state →
      Good (input count) state)
    (count : Nat) :
    ∃ state, after (attempt perform) input (some start) count = some state ∧ Inv state := by
  induction count with
  | zero => exact ⟨start, rfl, begins⟩
  | succ count ih =>
      obtain ⟨before, reached, holds⟩ := ih
      obtain ⟨later, stepped, kept⟩ := progress _ before holds (good count before reached)
      refine ⟨later, ?_, kept⟩
      rw [after_succ, reached]
      exact stepped

/-- Where a good input is just what it takes for a step to end in a fine state, all states of a run
are there and fine if and only if all its inputs are good. -/
theorem attempt_safe_iff (Inv Fine : State → Prop) (Good : Input → State → Prop)
    (begins : Inv start) (fine : ∀ state, Inv state → Fine state)
    (progress : ∀ input state, Inv state → Good input state →
      ∃ after, perform input state = some after ∧ Inv after)
    (needed : ∀ input state after, Inv state → perform input state = some after → Fine after →
      Good input state) :
    (∀ count, ∃ state, after (attempt perform) input (some start) count = some state ∧
      Fine state) ↔
    ∀ count state, after (attempt perform) input (some start) count = some state →
      Good (input count) state := by
  constructor
  · intro safe
    have goes : ∀ count state, Inv state →
        after (attempt perform) input (some start) count = some state →
          Good (input count) state := by
      intro count state holds reached
      obtain ⟨later, next, well⟩ := safe (count + 1)
      rw [after_succ, reached] at next
      exact needed _ state later holds next well
    have holds : ∀ count, ∃ state,
        after (attempt perform) input (some start) count = some state ∧ Inv state := by
      intro count
      induction count with
      | zero => exact ⟨start, rfl, begins⟩
      | succ count ih =>
          obtain ⟨before, reached, kept⟩ := ih
          obtain ⟨later, stepped, keeps⟩ := progress _ before kept (goes count before kept reached)
          refine ⟨later, ?_, keeps⟩
          rw [after_succ, reached]
          exact stepped
    intro count state reached
    obtain ⟨same, there, kept⟩ := holds count
    cases Option.some.inj (there.symm.trans reached)
    exact goes count state kept reached
  · intro good count
    obtain ⟨state, reached, holds⟩ := attempt_safe Inv Good begins progress good count
    exact ⟨state, reached, fine state holds⟩

end Machine

namespace Stream

variable {α : Type u}

/-- A piece goes behind what was taken before. -/
theorem take_piece {text piece rest : List α} {start : Nat}
    (left : text.drop start = piece ++ rest) :
    text.take (start + piece.length) = text.take start ++ piece := by
  rw [List.take_add, left, List.take_left]

/-- The bytes a call of `recv` with room for `limit` bytes takes when `available` have arrived. -/
def recv (pending : List α) (available limit : Nat) : List α := pending.take (min available limit)

/-- The bytes that stay on the socket. -/
def rest (pending : List α) (available limit : Nat) : List α := pending.drop (min available limit)

theorem recv_append_rest (pending : List α) (available limit : Nat) :
    recv pending available limit ++ rest pending available limit = pending :=
  List.take_append_drop _ _

theorem length_recv (pending : List α) (available limit : Nat) :
    (recv pending available limit).length = min (min available limit) pending.length :=
  List.length_take

theorem recv_eq_take (pending : List α) (available limit : Nat) :
    recv pending available limit = pending.take (recv pending available limit).length := by
  rw [length_recv, recv, List.take_eq_take_iff]
  omega

theorem rest_eq_drop (pending : List α) (available limit : Nat) :
    rest pending available limit = pending.drop (recv pending available limit).length := by
  have joined := recv_append_rest pending available limit
  calc
    rest pending available limit =
        (recv pending available limit ++ rest pending available limit).drop
          (recv pending available limit).length := List.drop_left.symm
    _ = pending.drop (recv pending available limit).length := by rw [joined]

theorem length_rest (pending : List α) (available limit : Nat) :
    (rest pending available limit).length =
      pending.length - (recv pending available limit).length := by
  rw [rest, List.length_drop, length_recv]
  omega

/-- Something is received when something is pending, available and there is room. -/
theorem length_recv_pos {pending : List α} {available limit : Nat} (some : pending ≠ [])
    (arrived : 0 < available) (room : 0 < limit) : 0 < (recv pending available limit).length := by
  have positive := List.length_pos_of_ne_nil some
  rw [length_recv]
  omega

/-- One call of `send` takes at most this many bytes. -/
def sendMax : Nat := 0x7ffff000

/-- The bytes a call of `send` takes from a text when there is room for `room` bytes. -/
def send (text : List α) (room : Nat) : List α := text.take (min room sendMax)

/-- What is sent is a beginning of the text that a signed 32-bit number can count, and is
something when there is room for something. -/
theorem send_spec (text : List α) (room : Nat) :
    text = send text room ++ text.drop (send text room).length ∧
      (send text room).length < 2 ^ 31 ∧
      (text ≠ [] → 0 < room → 0 < (send text room).length) := by
  have bound : (send text room).length = min (min room sendMax) text.length := List.length_take
  have most : sendMax < 2 ^ 31 := by decide
  have some : 0 < sendMax := by decide
  refine ⟨?_, by omega, ?_⟩
  · have cut : send text room = text.take (send text room).length := by
      rw [bound, send, List.take_eq_take_iff]
      omega
    calc
      text = text.take (send text room).length ++ text.drop (send text room).length :=
        (List.take_append_drop _ _).symm
      _ = send text room ++ text.drop (send text room).length := by rw [← cut]
  · intro nonempty arrived
    have positive := List.length_pos_of_ne_nil nonempty
    omega

end Stream
