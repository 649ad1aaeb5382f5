import Webroar.App.Supply

/-! # Pending workers and their timer

Of all that happens to an application only a few things change which workers are pending, in what
order, and how the timer is set that watches over them: workers are forked, a worker is heard of,
the timer expires, and a reload forgets the pending ones. Here each callback is described by what it
does to the queue and the timer.
-/

/-- The queue of the pending workers, the count of the timeouts, and the timer. -/
structure Watch where
  pending : List Int
  counter : Int
  timer : Timer
  forks : Nat

namespace Watch

/-- One pending worker more, at the end of the queue. -/
def grow (config : Config) (watch : Watch) (pid : Int) : Watch where
  pending := watch.pending ++ [pid]
  counter := watch.counter
  timer := if 0 < config.addTimeout then watch.timer.again else watch.timer
  forks := watch.forks + 1

/-- A fork that failed. -/
def fail (watch : Watch) : Watch := { watch with forks := watch.forks + 1 }

/-- A worker was heard of, and others are pending. -/
def heard (config : Config) (watch : Watch) (rest : List Int) : Watch where
  pending := rest
  counter := 0
  timer := if rest = [] ∧ 0 < config.addTimeout then watch.timer.stop else watch.timer
  forks := watch.forks

/-- The count starts anew. -/
def restart (watch : Watch) : Watch := { watch with counter := 0 }

/-- The timer has expired; the count is still the one before. -/
def expire (config : Config) (watch : Watch) : Watch :=
  if short (watch.counter + 1) = config.addTrials then
    { watch with
      pending := []
      counter := short (short (watch.counter + 1) + 1)
      timer := { watch.timer with period := config.addWait }.again }
  else
    { watch with
      pending := watch.pending.tail
      counter := short (watch.counter + 1)
      timer := if watch.pending.tail = [] then watch.timer.stop else watch.timer.again }

/-- Workers are forked, one after another. -/
inductive Forks (config : Config) (fork : Nat → Int) (watch : Watch) : Watch → Prop
  | none : Forks config fork watch watch
  | failed {after : Watch} (earlier : Forks config fork watch after)
      (fails : fork after.forks ≤ 0) : Forks config fork watch after.fail
  | forked {after : Watch} (earlier : Forks config fork watch after)
      (trials : after.counter < config.addTrials) (room : after.pending.length < config.pending)
      (succeeds : 0 < fork after.forks) :
      Forks config fork watch (after.grow config (fork after.forks))

variable {config : Config} {fork : Nat → Int} {watch after : Watch}

/-- Workers that are forked come behind those that are pending. -/
theorem Forks.pending (forks : watch.Forks config fork after) :
    ∃ new, after.pending = watch.pending ++ new := by
  induction forks with
  | none => exact ⟨[], (List.append_nil _).symm⟩
  | failed earlier fails ih => exact ih
  | @forked after earlier trials room succeeds ih =>
      obtain ⟨new, same⟩ := ih
      refine ⟨new ++ [fork after.forks], ?_⟩
      rw [← List.append_assoc, ← same]
      rfl

end Watch

namespace App

/-- The pending workers of an application. -/
def watch (app : App) : Watch := ⟨app.pending, app.timeoutCounter, app.tAddTimeout, app.forks⟩

variable {config : Config} {fork : Nat → Int} {app : App}

@[simp] theorem withPool_watch (pool : Pool) : (app.withPool config pool).watch = app.watch := by
  rw [withPool]
  split <;> rfl

@[simp] theorem chkLoadToRemove_watch : app.chkLoadToRemove.watch = app.watch := by
  obtain ⟨timer, same⟩ := chkLoadToRemove_eq app
  rw [same]
  rfl

@[simp] theorem chkLoadToAdd_watch (messages : Nat) :
    (app.chkLoadToAdd messages).watch = app.watch := by
  obtain ⟨timer, same⟩ := chkLoadToAdd_eq app messages
  rw [same]
  rfl

@[simp] theorem allocate_watch (worker : Nat) : (app.allocate config worker).watch = app.watch :=
  chkLoadToRemove_watch

theorem wkrAdd_watch : app.watch.Forks config fork (app.wkrAdd config fork).1.watch := by
  apply wkrAdd_induct (app.watch.Forks config fork ·.watch)
  · exact .none
  · exact fun _ fails => .failed .none fails
  · exact fun able succeeds => .forked .none able.2 able.1 succeeds

theorem balance_watch : app.watch.Forks config fork (app.balance config fork).watch := by
  have looped : app.watch.Forks config fork
      (app.balanceLoop config fork (app.conf.minWorker - app.total)).watch := by
    apply balanceLoop_induct (app.watch.Forks config fork ·.watch)
    · exact .none
    · exact fun _ kept _ _ fails => .failed kept fails
    · exact fun _ kept _ able succeeds => .forked kept able.2 able.1 succeeds
  rw [balance_eq]
  split
  · exact looped
  · exact looped

/-- What arrives after a worker was found leaves the pending ones alone. -/
@[simp] theorem greet_watch : (app.greet config).watch = app.watch := by
  unfold greet
  split
  · next new _ _ =>
      unfold reload
      exact withPool_watch _
  · rfl
  · rfl

theorem taken_watch (rest : List Int) :
    (app.taken config rest).watch = app.watch.heard config rest := rfl

/-- The timer has expired, and the oldest pending worker was killed, or all of them. -/
theorem killOldest_watch :
    (killOldest config { app with
      tAddTimeout := app.tAddTimeout.stop
      timeoutCounter := short (app.timeoutCounter + 1) }).watch = app.watch.expire config := by
  unfold Watch.expire
  by_cases spent : short (app.timeoutCounter + 1) = (config.addTrials : Int)
  · rw [killOldest_spent spent]
    exact (if_pos spent).symm
  · rw [killOldest_left spent]
    unfold watch
    dsimp only
    rw [if_neg spent]
    split
    · rfl
    · rfl

/-! ### What each callback does -/

/-- The application is removed, and no worker is forked for it. -/
def Ends (app after : App) : Prop :=
  after.state = .destroy ∧ after.pending.Sublist app.pending ∧ after.forks = app.forks

/-- What a callback that does not end the application does to the pending workers. -/
def Effect (config : Config) (fork : Nat → Int) (app : App) (event : Event) (after : Watch) :
    Prop :=
  match event with
  | .connect pid connection =>
      ¬ (connection.uds = true ∧ app.Open ∧ ((pid % 65536 : Nat) : Int) ∈ app.pending) ∧
          after = app.watch ∨
        (connection.uds = true ∧ app.Open) ∧ ∃ before rest,
          app.pending = before ++ ((pid % 65536 : Nat) : Int) :: rest ∧
          (app.watch.heard config (rest ++ before)).Forks config fork after
  | .wkrError pid =>
      app.state = .restart ∧ after = app.watch.restart ∨
        (app.state ≠ .restart ∧ app.state ≠ .new) ∧
          (pid ∉ app.pending ∧ after = app.watch.heard config app.pending ∨
            ∃ before rest, app.pending = before ++ pid :: rest ∧
              after = app.watch.heard config (rest ++ before))
  | .reload _ (some _) =>
      ({ app.watch with pending := [], counter := 0 } : Watch).Forks config fork after
  | .addTimeout =>
      app.tAddTimeout.active = false ∧ after = app.watch ∨
        app.tAddTimeout.active = true ∧
          (config.addTrials < short (app.timeoutCounter + 1) ∧
              after = { app.watch with counter := 0, timer := app.tAddTimeout.stop } ∨
            short (app.timeoutCounter + 1) ≤ config.addTrials ∧
              (after = (app.watch.expire config).restart ∨
                (app.watch.expire config).Forks config fork after))
  | _ => app.watch.Forks config fork after

theorem connect_effect (room : app.pending.length ≤ config.pending) (pid : Nat)
    (connection : Connection) :
    app.Effect config fork (.connect pid connection)
      (app.connect config fork pid connection).1.watch := by
  rcases connect_cases fork pid connection room with
    ⟨refused, same⟩ | ⟨before, rest, split, uds, opened, outcome⟩
  · rw [same]
    exact .inl ⟨refused, rfl⟩
  · refine .inr ⟨⟨uds, opened⟩, before, rest, split, ?_⟩
    have greeted : ((app.taken config (rest ++ before)).greet config).watch =
        app.watch.heard config (rest ++ before) := greet_watch.trans (taken_watch _)
    rcases outcome with ⟨-, same⟩ | ⟨-, pool, -, same⟩
    · rw [same]
      change Watch.Forks config fork _ ((app.taken config (rest ++ before)).greet config).watch
      rw [greeted]
      exact .none
    · rw [same, ← greeted]
      have balanced := @balance_watch config fork
        ((((app.taken config (rest ++ before)).greet config).joined config pool).allocate config
          ((app.taken config (rest ++ before)).greet config).pool.nextWkr)
      rw [allocate_watch] at balanced
      exact balanced

theorem wkrError_effect (room : app.pending.length ≤ config.pending) (pid : Int) :
    app.Ends (app.wkrError config pid) ∨
      app.Effect config fork (.wkrError pid) (app.wkrError config pid).watch := by
  unfold wkrError
  split
  · next state => exact .inr (.inl ⟨state, rfl⟩)
  · exact .inl ⟨rfl, List.Sublist.refl _, rfl⟩
  · next restart new =>
      refine .inr (.inr ⟨⟨restart, new⟩, ?_⟩)
      by_cases present : pid ∈ app.pending
      · obtain ⟨before, rest, split, -, taken⟩ := takePending_present room present
        rw [taken]
        exact .inr ⟨before, rest, split, rfl⟩
      · rw [takePending_absent room present]
        exact .inl ⟨present, rfl⟩

theorem addTimeoutCb_effect (active : app.tAddTimeout.active = true) :
    app.Ends (app.addTimeoutCb config fork) ∨
      app.Effect config fork .addTimeout (app.addTimeoutCb config fork).watch := by
  have killed := @killOldest_watch config app
  unfold addTimeoutCb
  dsimp only at killed ⊢
  split
  · next past => exact .inr (.inr ⟨active, .inl ⟨past, rfl⟩⟩)
  · next under =>
      have under := Int.not_lt.mp under
      generalize killOldest config { app with
        tAddTimeout := app.tAddTimeout.stop,
        timeoutCounter := short (app.timeoutCounter + 1) } = after at *
      split
      · refine .inr (.inr ⟨active, .inr ⟨under, .inl ?_⟩⟩)
        rw [← killed]
        rfl
      · split
        · next none =>
            have forks : after.forks = app.forks := by
              refine (congrArg Watch.forks killed).trans ?_
              unfold Watch.expire
              split <;> rfl
            refine .inl ⟨rfl, ?_, forks⟩
            change after.pending.Sublist app.pending
            rw [none]
            exact List.nil_sublist _
        · refine .inr (.inr ⟨active, .inr ⟨under, .inr ?_⟩⟩)
          rw [← killed]
          exact .none
      · refine .inr (.inr ⟨active, .inr ⟨under, .inr ?_⟩⟩)
        rw [← killed]
        exact balance_watch

theorem complete_watch : (app.complete config).watch = app.watch := by
  unfold complete
  dsimp only
  split
  · exact chkLoadToAdd_watch _
  · rfl

theorem reqProcessed_watch (worker : Nat) : (app.reqProcessed config worker).watch = app.watch := by
  unfold reqProcessed
  dsimp only
  rw [withPool_watch]
  split
  · exact chkLoadToRemove_watch
  · rfl

theorem removeTimerCb_watch (reported : Option Nat) :
    (app.removeTimerCb config reported).watch = app.watch := by
  have stopped : ({ app with tRemove := app.tRemove.stop } : App).watch = app.watch := rfl
  have again : ∀ {after : App} (due : Prop) [Decidable due], after.watch = app.watch →
      (if due then { after with tRemove := after.tRemove.again } else after).watch = app.watch := by
    intro after due _ same
    split
    · exact same
    · exact same
  unfold removeTimerCb
  dsimp only
  by_cases many : app.conf.minWorker < app.pool.workers.length
  · rw [if_pos many]
    cases reported with
    | none => exact again _ stopped
    | some pid =>
        have removed : (({ app with tRemove := app.tRemove.stop } : App).withPool config
            (app.pool.removeWkr pid)).watch = app.watch := (withPool_watch _).trans stopped
        exact again _ removed
  · rw [if_neg many]
    exact again _ stopped

/-- A worker is gone, and the application is balanced or not. -/
theorem lose_effect {pool : Pool} (due : Prop) [Decidable due] :
    app.watch.Forks config fork
      (if due then (app.withPool config pool).balance config fork
        else app.withPool config pool).watch := by
  have lost := @withPool_watch config app pool
  split
  · rw [← lost]
    exact balance_watch
  · rw [lost]
    exact .none

theorem step_effect (live : app.state ≠ .destroy) (room : app.pending.length ≤ config.pending)
    (event : Event) :
    app.Ends (app.step config fork event) ∨
      app.Effect config fork event (app.step config fork event).watch := by
  unfold step
  rw [if_neg live]
  have still : ∀ after : App, after.watch = app.watch →
      app.watch.Forks config fork after.watch := by
    intro after same
    rw [same]
    exact .none
  cases event with
  | complete => exact .inr (still _ complete_watch)
  | clientError req =>
      dsimp only
      split
      · exact .inr (still _ rfl)
      · exact .inr (still _ rfl)
  | sent worker =>
      dsimp only
      split
      · exact .inr (still _ rfl)
      · exact .inr (still _ rfl)
  | part worker =>
      dsimp only
      split
      · exact .inr (still _ rfl)
      · exact .inr (still _ rfl)
  | processed worker =>
      dsimp only
      split
      · exact .inr (still _ (reqProcessed_watch worker))
      · exact .inr (still _ rfl)
  | dataError worker =>
      dsimp only
      split
      · exact .inr (still _ (withPool_watch _))
      · exact .inr (still _ rfl)
  | ctlFree worker =>
      dsimp only
      split
      · exact .inr (lose_effect _)
      · exact .inr (still _ rfl)
  | removeCb worker =>
      dsimp only
      split
      · exact .inr (lose_effect _)
      · exact .inr (still _ rfl)
  | timeout worker =>
      dsimp only
      split
      · exact .inr (lose_effect _)
      · exact .inr (still _ rfl)
  | reply worker =>
      dsimp only
      split
      · exact .inr (still _ rfl)
      · exact .inr (still _ rfl)
  | connect pid connection => exact .inr (connect_effect room pid connection)
  | wkrError pid => exact wkrError_effect room pid
  | reload ctl read =>
      cases read with
      | none => exact .inr (still _ rfl)
      | some new =>
          exact .inr (@wkrAdd_watch config fork { app with
            new := some new
            state := .restart
            timeoutCounter := 0
            pending := []
            ctl := some ctl })
  | addAgain ctl => exact .inr (still _ rfl)
  | remove ctl => exact .inl ⟨rfl, List.Sublist.refl _, rfl⟩
  | ctlClosed ctl => exact .inr (still _ rfl)
  | addTimeout =>
      dsimp only
      split
      · next active => exact addTimeoutCb_effect active
      · next rests => exact .inr (.inl ⟨Bool.eq_false_iff.mpr rests, rfl⟩)
  | addTimer =>
      dsimp only
      split
      · unfold addCb
        dsimp only
        split
        · exact .inr (@wkrAdd_watch config fork { app with tAdd := app.tAdd.stop })
        · exact .inr (still _ rfl)
      · exact .inr (still _ rfl)
  | removeTimer reported =>
      dsimp only
      split
      · exact .inr (still _ (removeTimerCb_watch reported))
      · exact .inr (still _ rfl)

end App
