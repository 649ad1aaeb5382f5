import Webroar.App.Worker
import Webroar.Library.Transition

/-! # Pings

A worker that is silent for too long is pinged, and given up after a number of trials. The trials
are counted from the last time the worker was sent a request or sent a part of a response; a PING
reply does not set the count back. So a worker that answers is given up as well, and a worker
that is given up was silent exactly when no counted ping had been answered.
-/

/-- What happens to a worker. The last part of a response comes with the next request, if one is
waiting. -/
inductive Signal where
  | take (req : Nat)
  | sent
  | headerPart
  | part
  | last (next : Option Nat)
  | expire
  | timeout
  | reply

/-- A worker and what a witness of its life knows: how many pings it was sent since the last reply
or byte from it, and whether a ping that counts as a trial was answered. -/
structure Watched where
  wkr : Wkr
  silent : Nat
  answered : Bool

namespace Watched

variable (config : Config)

/-- The worker has not been given up or freed. -/
def Live (watched : Watched) : Prop :=
  watched.wkr.state = .inactive ∨ watched.wkr.state = .active ∨ watched.wkr.state = .pinging ∨
    watched.wkr.state = .expired

instance (watched : Watched) : Decidable watched.Live := inferInstanceAs (Decidable (_ ∨ _))

/-- A registered worker that waits for its first request. -/
def start (pid : Nat) : Watched where
  wkr := ((Wkr.new config pid).stateMachine config .add).1
  silent := 0
  answered := false

/-- A sign of life that leaves the count of the trials as it is. -/
def heard (watched : Watched) (wkr : Wkr) : Watched where
  wkr := wkr
  silent := 0
  answered := watched.answered || 0 < watched.wkr.trialsDone

/-- The end of a response: the worker takes the next request, waits, or is freed. -/
def processed (wkr : Wkr) (next : Option Nat) : Wkr :=
  let outcome := (wkr.release config).stateMachine config .reqProcessed
  match outcome.2, next with
  | .allocate, some req => outcome.1.take config req
  | _, _ => outcome.1

def step (signal : Signal) (watched : Watched) : Watched :=
  if watched.Live then
    match signal with
    | .take req =>
        if watched.wkr.state = .inactive then { watched with wkr := watched.wkr.take config req }
        else watched
    | .sent =>
        if watched.wkr.req.isSome then
          { watched with wkr := watched.wkr.waitStart config, answered := false }
        else watched
    | .headerPart => if watched.wkr.req.isSome then watched.heard watched.wkr else watched
    | .part =>
        if watched.wkr.req.isSome then ⟨watched.wkr.waitStart config, 0, false⟩ else watched
    | .last next =>
        if watched.wkr.req.isSome then watched.heard (processed config watched.wkr next)
        else watched
    | .expire => { watched with wkr := { watched.wkr with state := .expired } }
    | .timeout =>
        if watched.wkr.tWait.active then
          let outcome := watched.wkr.waitCb config
          { watched with
            wkr := outcome.1
            silent := if outcome.1.state = .pinging then watched.silent + 1 else watched.silent }
        else watched
    | .reply => watched.heard (watched.wkr.stateMachine config .pingReplay).1
  else watched

/-- The trials are bounded, and they are the pings without an answer unless one was answered. -/
structure Counts (watched : Watched) : Prop where
  bound : watched.wkr.trialsDone ≤ config.pingTrials
  silent : watched.answered = false → watched.wkr.trialsDone ≤ watched.silent
  answered : watched.answered = true → watched.silent < watched.wkr.trialsDone

variable {config}

/-! ### The count of the trials -/

theorem waitStart_trialsDone (wkr : Wkr) : (wkr.waitStart config).trialsDone = 0 := by
  rw [Wkr.waitStart]
  split <;> rfl

theorem take_trialsDone (wkr : Wkr) (req : Nat) :
    (wkr.take config req).trialsDone = wkr.trialsDone := by
  obtain ⟨state, pid, trialsDone, tWait, current⟩ := wkr
  cases state <;> rfl

theorem reply_trialsDone (wkr : Wkr) :
    (wkr.stateMachine config .pingReplay).1.trialsDone = wkr.trialsDone := by
  obtain ⟨state, pid, trialsDone, tWait, current⟩ := wkr
  cases state <;> rfl

theorem release_trialsDone (wkr : Wkr) :
    ((wkr.release config).stateMachine config .reqProcessed).1.trialsDone = wkr.trialsDone := by
  obtain ⟨state, pid, trialsDone, tWait, current⟩ := wkr
  cases state <;> rfl

theorem processed_trialsDone (wkr : Wkr) (next : Option Nat) :
    (processed config wkr next).trialsDone = wkr.trialsDone := by
  unfold processed
  dsimp only
  split
  · rw [take_trialsDone, release_trialsDone]
  · exact release_trialsDone wkr

/-- What the timer does to an active or pinging worker. -/
theorem waitCb_busy {wkr : Wkr} (busy : wkr.state = .active ∨ wkr.state = .pinging) :
    wkr.waitCb config = ({ wkr with tWait := wkr.tWait.stop } : Wkr).timeout config := by
  obtain ⟨state, pid, trialsDone, tWait, current⟩ := wkr
  rcases busy with same | same <;> cases same <;> rfl

/-- What it does to any other worker that lives: nothing that counts. -/
theorem waitCb_quiet {wkr : Wkr} (quiet : wkr.state = .inactive ∨ wkr.state = .expired) :
    (wkr.waitCb config).1.trialsDone = wkr.trialsDone ∧
      (wkr.waitCb config).1.state ≠ .pinging ∧ (wkr.waitCb config).1.state ≠ .hangup := by
  obtain ⟨state, pid, trialsDone, tWait, current⟩ := wkr
  rcases quiet with same | same <;> cases same <;> exact ⟨rfl, nofun, nofun⟩

variable {watched : Watched}

theorem Counts.heard (counts : watched.Counts config) {wkr : Wkr}
    (kept : wkr.trialsDone = watched.wkr.trialsDone) : (watched.heard wkr).Counts config where
  bound := kept ▸ counts.bound
  silent := by
    intro quiet
    rw [Watched.heard, Bool.or_eq_false_iff, decide_eq_false_iff_not] at quiet
    have none : wkr.trialsDone = 0 := by omega
    exact Nat.le_of_eq none
  answered := by
    intro answered
    rw [Watched.heard, Bool.or_eq_true, decide_eq_true_eq] at answered
    have some : 0 < watched.wkr.trialsDone := by
      rcases answered with before | now
      · exact Nat.lt_of_le_of_lt (Nat.zero_le _) (counts.answered before)
      · exact now
    exact kept ▸ some

theorem Counts.reset {wkr : Wkr} (none : wkr.trialsDone = 0) (silent : Nat) :
    (⟨wkr, silent, false⟩ : Watched).Counts config where
  bound := none ▸ Nat.zero_le _
  silent := fun _ => none ▸ Nat.zero_le _
  answered := nofun

/-- The same trials with another record. -/
theorem Counts.kept (counts : watched.Counts config) {wkr : Wkr}
    (kept : wkr.trialsDone = watched.wkr.trialsDone) :
    ({ watched with wkr := wkr } : Watched).Counts config where
  bound := kept ▸ counts.bound
  silent := fun quiet => kept ▸ counts.silent quiet
  answered := fun answered => kept ▸ counts.answered answered

/-- One more ping, which counts and is not answered yet. -/
theorem Counts.ping (counts : watched.Counts config) {wkr : Wkr}
    (counted : wkr.trialsDone = watched.wkr.trialsDone + 1)
    (bound : watched.wkr.trialsDone < config.pingTrials) :
    ({ watched with wkr := wkr, silent := watched.silent + 1 } : Watched).Counts config where
  bound := counted ▸ bound
  silent := fun quiet => counted ▸ Nat.succ_le_succ (counts.silent quiet)
  answered := fun answered => counted ▸ Nat.succ_lt_succ (counts.answered answered)

theorem Live.quiet (live : watched.Live)
    (idle : ¬ (watched.wkr.state = .active ∨ watched.wkr.state = .pinging)) :
    watched.wkr.state = .inactive ∨ watched.wkr.state = .expired := by
  rcases live with state | state | state | state
  · exact .inl state
  · exact absurd (.inl state) idle
  · exact absurd (.inr state) idle
  · exact .inr state

/-- Nothing happens to a worker that was given up. -/
theorem step_dead {signal : Signal} (dead : ¬ watched.Live) :
    step config signal watched = watched := if_neg dead

theorem Counts.timeout (counts : watched.Counts config) (live : watched.Live) :
    (step config .timeout watched).Counts config := by
  rw [step, if_pos live]
  by_cases armed : watched.wkr.tWait.active = true
  · rw [if_pos armed]
    by_cases busy : watched.wkr.state = .active ∨ watched.wkr.state = .pinging
    · by_cases more : watched.wkr.trialsDone < config.pingTrials
      · have sent := (@waitCb_busy config _ busy).trans (if_pos more)
        rw [sent]
        exact counts.ping rfl more
      · have past := (@waitCb_busy config _ busy).trans (if_neg more)
        rw [past]
        exact counts.kept rfl
    · have quiet := live.quiet busy
      obtain ⟨kept, not_pinging, -⟩ := @waitCb_quiet config _ quiet
      simp only [if_neg not_pinging]
      exact counts.kept kept
  · rw [if_neg armed]
    exact counts

theorem Counts.step (counts : watched.Counts config) (signal : Signal) :
    (Watched.step config signal watched).Counts config := by
  by_cases live : watched.Live
  · cases signal with
    | take req =>
        rw [Watched.step, if_pos live]
        split
        · exact counts.kept (take_trialsDone _ _)
        · exact counts
    | sent =>
        rw [Watched.step, if_pos live]
        split
        · exact .reset (waitStart_trialsDone _) _
        · exact counts
    | headerPart =>
        rw [Watched.step, if_pos live]
        split
        · exact counts.heard rfl
        · exact counts
    | part =>
        rw [Watched.step, if_pos live]
        split
        · exact .reset (waitStart_trialsDone _) _
        · exact counts
    | last next =>
        rw [Watched.step, if_pos live]
        split
        · exact counts.heard (processed_trialsDone _ _)
        · exact counts
    | expire =>
        rw [Watched.step, if_pos live]
        exact counts.kept rfl
    | timeout => exact counts.timeout live
    | reply =>
        have heard : Watched.step config .reply watched =
            watched.heard (watched.wkr.stateMachine config .pingReplay).1 := if_pos live
        rw [heard]
        exact counts.heard (reply_trialsDone _)
  · rw [step_dead live]
    exact counts

/-! ### Who hangs -/

end Watched
