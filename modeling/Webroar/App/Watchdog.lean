import Webroar.App.Watch

/-! # The time a worker has to register

A worker that is forked is given `add_timeout` to register. When too many have failed to, the
application waits for `add_wait` before it tries again. Both times are kept with the same timer,
and the second one is never taken back.
-/

namespace App

variable (config : Config) (fork : Nat → Int)

/-- A pending worker is watched: the timer runs with the time a worker has, and when it expires the
worker that has been pending for the longest time is killed. -/
def Watched (app : App) : Prop :=
  app.state ≠ .destroy →
    (app.pending ≠ [] →
      app.tAddTimeout.active = true ∧ app.tAddTimeout.period = config.addTimeout) ∧
    ∀ oldest rest, app.pending = oldest :: rest →
      (app.addTimeoutCb config fork).state = .destroy ∨
        ∃ kept new, (app.addTimeoutCb config fork).pending = kept ++ new ∧ kept <:+ rest

/-- When the trials are used up the application waits no longer than for a worker, or no worker is
forked any more. -/
def Guards (event : Event) (app : App) : Prop :=
  event = .addTimeout → app.tAddTimeout.active = true →
    short (app.timeoutCounter + 1) = config.addTrials →
    config.addWait = config.addTimeout ∨ ∀ number, app.forks ≤ number → fork number ≤ 0

end App

namespace Watch

variable {config : Config} {fork : Nat → Int} {watch after : Watch}

/-- The timer runs for the pending workers, and its period is theirs. -/
structure Guarded (config : Config) (fork : Nat → Int) (watch : Watch) : Prop where
  armed : watch.pending ≠ [] → watch.timer.active = true
  period : watch.timer.period = config.addTimeout ∨
    watch.pending = [] ∧ ∀ number, watch.forks ≤ number → fork number ≤ 0
  spent : (config.addTrials : Int) ≤ watch.counter → watch.pending = []
  untried : config.addTrials = 0 →
    watch.pending = [] ∧ watch.timer.active = false ∧ watch.counter = 0
  low : -32768 ≤ watch.counter
  high : watch.counter < 32768

namespace Guarded

theorem none_of_zero (guarded : watch.Guarded config fork)
    (zero : (config.addTrials : Int) ≤ 0) : watch.pending = [] :=
  (guarded.untried (Int.natCast_eq_zero.mp (Int.le_antisymm zero (Int.natCast_nonneg _)))).1

theorem fail (guarded : watch.Guarded config fork) : watch.fail.Guarded config fork := {
  guarded with
  period := guarded.period.imp_right fun spared =>
    ⟨spared.1, fun number least => spared.2 number (Nat.le_of_succ_le least)⟩ }

theorem grow (guarded : watch.Guarded config fork) (due : 0 < config.addTimeout)
    (trials : watch.counter < config.addTrials) (succeeds : 0 < fork watch.forks) :
    (watch.grow config (fork watch.forks)).Guarded config fork := by
  have period : watch.timer.period = config.addTimeout := by
    rcases guarded.period with same | ⟨-, fails⟩
    · exact same
    · exact absurd succeeds (Int.not_lt.mpr (fails watch.forks (Nat.le_refl _)))
  constructor
  · intro _
    unfold Watch.grow Timer.again
    rw [if_pos due]
    exact decide_eq_true (period.symm ▸ due)
  · left
    unfold Watch.grow Timer.again
    rw [if_pos due]
    exact period
  · exact fun spent => absurd trials (Int.not_lt.mpr spent)
  · intro none
    obtain ⟨-, -, zero⟩ := guarded.untried none
    rw [zero, none] at trials
    exact absurd trials (Int.lt_irrefl 0)
  · exact guarded.low
  · exact guarded.high

theorem forks (guarded : watch.Guarded config fork) (due : 0 < config.addTimeout)
    (forks : watch.Forks config fork after) : after.Guarded config fork := by
  induction forks with
  | none => exact guarded
  | failed earlier fails ih => exact ih.fail
  | forked earlier trials room succeeds ih => exact ih.grow due trials succeeds

theorem restart (guarded : watch.Guarded config fork) : watch.restart.Guarded config fork := {
  guarded with
  spent := guarded.none_of_zero
  untried := fun none => ⟨(guarded.untried none).1, (guarded.untried none).2.1, rfl⟩
  low := (by decide : (-32768 : Int) ≤ 0)
  high := (by decide : (0 : Int) < 32768) }

/-- A pending worker was heard of, or one that is not pending. -/
theorem heard (guarded : watch.Guarded config fork) {rest : List Int}
    (fewer : watch.pending = [] → rest = []) : (watch.heard config rest).Guarded config fork := by
  constructor
  · intro some
    unfold Watch.heard
    rw [if_neg fun both => some both.1]
    exact guarded.armed fun none => some (fewer none)
  · have same : (watch.heard config rest).timer.period = watch.timer.period := by
      unfold Watch.heard
      split <;> rfl
    rw [same]
    exact guarded.period.imp_right fun spared => ⟨fewer spared.1, spared.2⟩
  · exact fun zero => fewer (guarded.none_of_zero zero)
  · intro none
    obtain ⟨empty, stopped, -⟩ := guarded.untried none
    refine ⟨fewer empty, ?_, rfl⟩
    unfold Watch.heard
    split
    · rfl
    · exact stopped
  · exact (by decide : (-32768 : Int) ≤ 0)
  · exact (by decide : (0 : Int) < 32768)

/-- A reload forgets the pending workers. -/
theorem clear (guarded : watch.Guarded config fork) :
    ({ watch with pending := [], counter := 0 } : Watch).Guarded config fork where
  armed := fun some => absurd rfl some
  period := guarded.period.imp_right fun spared => ⟨rfl, spared.2⟩
  spent := fun _ => rfl
  untried := fun none => ⟨rfl, (guarded.untried none).2.1, rfl⟩
  low := (by decide : (-32768 : Int) ≤ 0)
  high := (by decide : (0 : Int) < 32768)

/-- The timer expires for the last time it is asked to: nothing is pending then. -/
theorem passed (guarded : watch.Guarded config fork)
    (past : (config.addTrials : Int) < short (watch.counter + 1)) : watch.pending = [] := by
  apply guarded.spent
  have counts := Supply.short_succ guarded.low guarded.high
  omega

theorem past (guarded : watch.Guarded config fork) (active : watch.timer.active = true)
    (past : (config.addTrials : Int) < short (watch.counter + 1)) :
    ({ watch with counter := 0, timer := watch.timer.stop } : Watch).Guarded config fork where
  armed := fun some => absurd (guarded.passed past) some
  period := guarded.period
  spent := fun _ => guarded.passed past
  untried := fun none => nomatch active.symm.trans (guarded.untried none).2.1
  low := (by decide : (-32768 : Int) ≤ 0)
  high := (by decide : (0 : Int) < 32768)

/-- The timer expires: the pending workers are killed or the oldest of them is. -/
theorem expire (guarded : watch.Guarded config fork) (due : 0 < config.addTimeout)
    (active : watch.timer.active = true)
    (under : short (watch.counter + 1) ≤ (config.addTrials : Int))
    (guards : short (watch.counter + 1) = config.addTrials →
      config.addWait = config.addTimeout ∨ ∀ number, watch.forks ≤ number → fork number ≤ 0) :
    (watch.expire config).Guarded config fork := by
  have tried : config.addTrials ≠ 0 := fun none =>
    nomatch active.symm.trans (guarded.untried none).2.1
  unfold Watch.expire
  split
  · next last =>
      exact {
        armed := fun some => absurd rfl some
        period := (guards last).imp_right fun fails => ⟨rfl, fails⟩
        spent := fun _ => rfl
        untried := fun none => absurd none tried
        low := Supply.short_low _
        high := Supply.short_high _ }
  · next more =>
      refine ⟨fun some => ?_, ?_, fun spent => absurd (Int.le_antisymm under spent) more,
        fun none => absurd none tried, Supply.short_low _, Supply.short_high _⟩
      · have period : watch.timer.period = config.addTimeout := by
          rcases guarded.period with same | ⟨none, -⟩
          · exact same
          · dsimp only at some
            rw [none] at some
            exact absurd rfl some
        dsimp only at some ⊢
        rw [if_neg some]
        exact decide_eq_true (period.symm ▸ due)
      · have same : (if watch.pending.tail = [] then watch.timer.stop
            else watch.timer.again).period = watch.timer.period := by
          split <;> rfl
        dsimp only
        rw [same]
        exact guarded.period.imp_right fun spared => ⟨by rw [spared.1]; rfl, spared.2⟩

end Guarded

/-- Of the pending workers only younger ones are left when the timer has expired. -/
theorem expire_pending {oldest : Int} {rest : List Int} (pending : watch.pending = oldest :: rest) :
    (watch.expire config).pending <:+ rest := by
  unfold expire
  split
  · exact List.nil_suffix
  · dsimp only
    rw [pending]
    exact List.suffix_rfl

end Watch

namespace App

variable {config : Config} {fork : Nat → Int} {app : App}

theorem step_guarded (due : 0 < config.addTimeout) (room : app.pending.length ≤ config.pending)
    {event : Event} (guards : app.Guards config fork event)
    (guarded : app.state = .destroy ∨ app.watch.Guarded config fork) :
    (app.step config fork event).state = .destroy ∨
      (app.step config fork event).watch.Guarded config fork := by
  by_cases gone : app.state = .destroy
  · left
    unfold step
    rwa [if_pos gone]
  · have guarded := guarded.resolve_left gone
    rcases @step_effect config fork app gone room event with ends | effect
    · exact .inl ends.1
    · right
      generalize (app.step config fork event).watch = after at effect
      cases event with
      | connect pid connection =>
          rcases effect with ⟨-, same⟩ | ⟨-, before, rest, split, forks⟩
          · rw [same]
            exact guarded
          · refine Watch.Guarded.forks (guarded.heard fun none => ?_) due forks
            exact nomatch List.append_eq_nil_iff.mp (split.symm.trans none) |>.2
      | wkrError pid =>
          rcases effect with ⟨-, same⟩ | ⟨-, ⟨-, same⟩ | ⟨before, rest, split, same⟩⟩
          · rw [same]
            exact guarded.restart
          · rw [same]
            exact guarded.heard id
          · rw [same]
            refine guarded.heard fun none => ?_
            exact nomatch List.append_eq_nil_iff.mp (split.symm.trans none) |>.2
      | reload ctl read =>
          cases read with
          | none => exact guarded.forks due effect
          | some new => exact guarded.clear.forks due effect
      | addTimeout =>
          rcases effect with ⟨-, same⟩ | ⟨active, ⟨past, same⟩ | ⟨under, forks⟩⟩
          · rw [same]
            exact guarded
          · rw [same]
            exact guarded.past active past
          · have expired := guarded.expire due active under (guards rfl active)
            rcases forks with same | forks
            · rw [same]
              exact expired.restart
            · exact expired.forks due forks
      | _ => exact guarded.forks due effect

theorem watched_of_guarded
    (guarded : app.state = .destroy ∨ app.watch.Guarded config fork) :
    app.Watched config fork := by
  intro live
  have guarded := guarded.resolve_left live
  constructor
  · intro some
    refine ⟨guarded.armed some, ?_⟩
    rcases guarded.period with same | ⟨none, -⟩
    · exact same
    · exact absurd none some
  · intro oldest rest pending
    have some : app.watch.pending ≠ [] := by
      change app.pending ≠ []
      rw [pending]
      exact List.cons_ne_nil _ _
    rcases @addTimeoutCb_effect config fork app (guarded.armed some) with
      ends | effect
    · exact .inl ends.1
    · right
      rcases effect with ⟨stopped, -⟩ | ⟨-, ⟨past, -⟩ | ⟨-, same | forks⟩⟩
      · exact nomatch (guarded.armed some).symm.trans stopped
      · exact absurd (guarded.passed past) some
      · refine ⟨(app.watch.expire config).pending, [], ?_, Watch.expire_pending pending⟩
        rw [List.append_nil]
        exact congrArg Watch.pending same
      · obtain ⟨new, same⟩ := forks.pending
        exact ⟨(app.watch.expire config).pending, new, same, Watch.expire_pending pending⟩

theorem insert_guarded (due : 0 < config.addTimeout) (conf : Conf) (ctl : Option Nat) :
    (App.insert config fork conf ctl).watch.Guarded config fork := by
  have created : (App.created config conf ctl).watch.Guarded config fork := {
    armed := fun some => absurd rfl some
    period := .inl rfl
    spent := fun _ => rfl
    untried := fun _ => ⟨rfl, rfl, rfl⟩
    low := (by decide : (-32768 : Int) ≤ 0)
    high := (by decide : (0 : Int) < 32768) }
  exact created.forks due balance_watch

/-- In a run in which no worker is forked after the trials were used up, unless the application
waits for the same time then, every pending worker is watched in every state. -/
theorem pending_watched (config : Config) (fork : Nat → Int) (due : 0 < config.addTimeout)
    (conf : Conf) (ctl : Option Nat) (input : Nat → Event)
    (guards : ∀ count,
      (Machine.after (App.step config fork) input (App.insert config fork conf ctl) count).Guards
        config fork (input count))
    (count : Nat) :
    (Machine.after (App.step config fork) input
      (App.insert config fork conf ctl) count).Watched config fork := by
  apply watched_of_guarded
  have kept : (Machine.after (App.step config fork) input (App.insert config fork conf ctl)
      count).Steady config ∧
      ((Machine.after (App.step config fork) input (App.insert config fork conf ctl)
        count).state = .destroy ∨
      (Machine.after (App.step config fork) input (App.insert config fork conf ctl)
        count).watch.Guarded config fork) := by
    induction count with
    | zero => exact ⟨.insert conf ctl, .inr (insert_guarded due conf ctl)⟩
    | succ count ih =>
        exact ⟨ih.1.step (input count), step_guarded due ih.1.room (guards count) ih.2⟩
  exact kept.2

/-- A worker dies, and the one that is forked for it times out. -/
def lateInput : Nat → Event
  | 0 => .connect 100 ⟨true, true, true⟩
  | 1 => .ctlFree 0
  | 2 => .addTimeout
  | _ => .part 0

theorem pending_watched_late :
    (Machine.after (App.step Config.init fun count => 100 + count) lateInput
      (App.insert Config.init (fun count => 100 + count) smallConf none) 3).Watched Config.init
        fun count => 100 + count := by
  refine pending_watched Config.init _ (by decide) smallConf none lateInput ?_ 3
  intro count expires
  match count with
  | 2 =>
      intro _ spent
      have other : short ((Machine.after (App.step Config.init fun count => 100 + count) lateInput
          (App.insert Config.init (fun count => 100 + count) smallConf none) 2).timeoutCounter + 1) ≠
            Config.init.addTrials := by decide +kernel
      exact absurd spent other
  | 0 => exact nomatch expires
  | 1 => exact nomatch expires
  | _ + 3 => exact nomatch expires

/-- A worker dies, and every worker that is forked for it times out until the trials are used up
and the time to wait is over. Then an administrator reloads the application. -/
def waitedInput : Nat → Event
  | 0 => .connect 100 ⟨true, true, true⟩
  | 1 => .ctlFree 0
  | 6 => .reload 0 (some smallConf)
  | _ => .addTimeout

theorem pending_unwatched :
    ¬ (Machine.after (App.step Config.init fun count => 100 + count) waitedInput
      (App.insert Config.init (fun count => 100 + count) smallConf none) 7).Watched Config.init
        fun count => 100 + count := by
  intro watched
  have state : (Machine.after (App.step Config.init fun count => 100 + count) waitedInput
      (App.insert Config.init (fun count => 100 + count) smallConf none) 7).state = .restart ∧
      (Machine.after (App.step Config.init fun count => 100 + count) waitedInput
        (App.insert Config.init (fun count => 100 + count) smallConf none) 7).pending ≠ [] ∧
      (Machine.after (App.step Config.init fun count => 100 + count) waitedInput
        (App.insert Config.init (fun count => 100 + count) smallConf none) 7).tAddTimeout.period =
          1800 := by
    decide +kernel
  obtain ⟨state, some, waits⟩ := state
  obtain ⟨-, period⟩ := (watched fun gone => nomatch state.symm.trans gone).1 some
  exact absurd (waits.symm.trans period) (by decide)

end App
