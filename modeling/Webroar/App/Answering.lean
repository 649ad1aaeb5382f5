import Webroar.App.Reload

/-! # The administrator who waits for an application

An application keeps one control connection, whose administrator is told when a worker is there or
something went wrong. Here is what becomes of it in the callbacks that do not come from
administrators: it is told, or it waits on and has something to wait for.
-/

/-- The callback does not come from an administrator. -/
def Event.own : Event → Bool
  | .reload _ _ | .addAgain _ | .remove _ | .ctlClosed _ => false
  | _ => true

namespace App

variable {config : Config} {fork : Nat → Int} {app after : App}

/-- A worker was forked for a new application or for a reload, and nothing has come of it yet. -/
def Awaits (app : App) : Prop := (app.state = .new ∨ app.state = .restart) ∧ app.pending ≠ []

/-- Nobody is told anything, and pending workers are left if there were any. -/
structure Quiet (app after : App) : Prop where
  ctl : after.ctl = app.ctl
  replies : after.replies = app.replies
  pending : app.pending ≠ [] → after.pending ≠ []

/-- Nobody is told anything, and who waits has something to wait for. -/
structure Undisturbed (app after : App) : Prop where
  ctl : after.ctl = app.ctl
  replies : after.replies = app.replies
  gone : after.state = .destroy ↔ app.state = .destroy
  awaits : app.ctl ≠ none → app.Awaits → after.Awaits

/-- Whoever waits is told, and nobody waits any more. -/
structure Settled (app after : App) : Prop where
  ctl : after.ctl = none
  replies : ∃ well : Bool, after.replies = app.replies ++ app.ctl.toList.map (·, well)

theorem Quiet.refl (app : App) : Quiet app app := ⟨rfl, rfl, id⟩

theorem Quiet.trans {middle : App} (first : Quiet app middle) (second : Quiet middle after) :
    Quiet app after :=
  ⟨second.ctl.trans first.ctl, second.replies.trans first.replies,
    fun some => second.pending (first.pending some)⟩

theorem Quiet.undisturbed (quiet : Quiet app after) (same : after.mode = app.mode) :
    Undisturbed app after := by
  have state : after.state = app.state := congrArg Prod.fst same
  refine ⟨quiet.ctl, quiet.replies, by rw [state], ?_⟩
  rintro - ⟨waits, some⟩
  rw [← state] at waits
  exact ⟨waits, quiet.pending some⟩

theorem Undisturbed.refl (app : App) : Undisturbed app app := ⟨rfl, rfl, Iff.rfl, fun _ => id⟩

/-- What goes on once somebody was told. -/
theorem Settled.trans {middle : App} (settled : Settled app middle) (quiet : Quiet middle after) :
    Settled app after := by
  obtain ⟨well, told⟩ := settled.replies
  exact ⟨quiet.ctl.trans settled.ctl, well, quiet.replies.trans told⟩

/-! ### What tells nobody anything -/

theorem withPool_quiet (app : App) (pool : Pool) : Quiet app (app.withPool config pool) := by
  rw [withPool]
  split <;> exact ⟨rfl, rfl, id⟩

theorem chkLoadToRemove_quiet (app : App) : Quiet app app.chkLoadToRemove := by
  obtain ⟨timer, same⟩ := chkLoadToRemove_eq app
  rw [same]
  exact ⟨rfl, rfl, id⟩

theorem wkrAdd_quiet (app : App) : Quiet app (app.wkrAdd config fork).1 := by
  apply wkrAdd_induct (Quiet app)
  · exact .refl app
  · exact fun _ _ => ⟨rfl, rfl, id⟩
  · exact fun _ _ => ⟨rfl, rfl, fun _ => List.append_ne_nil_of_right_ne_nil _ nofun⟩

theorem balanceLoop_quiet (app : App) (turns : Nat) :
    Quiet app (app.balanceLoop config fork turns) := by
  apply balanceLoop_induct (Quiet app)
  · exact .refl app
  · exact fun _ quiet _ _ _ => ⟨quiet.ctl, quiet.replies, quiet.pending⟩
  · exact fun _ quiet _ _ _ =>
      ⟨quiet.ctl, quiet.replies, fun _ => List.append_ne_nil_of_right_ne_nil _ nofun⟩

theorem balance_quiet (app : App) : Quiet app (app.balance config fork) := by
  have looped := @balanceLoop_quiet config fork app (app.conf.minWorker - app.total)
  rw [balance_eq]
  split <;> exact ⟨looped.ctl, looped.replies, looped.pending⟩

theorem complete_quiet (app : App) : Quiet app (app.complete config) := by
  unfold complete
  dsimp only
  split
  · obtain ⟨timer, same⟩ := chkLoadToAdd_eq app (app.pool.messages.length + 1)
    rw [same]
    exact ⟨rfl, rfl, id⟩
  · exact ⟨rfl, rfl, id⟩

theorem allocate_quiet (app : App) (worker : Nat) : Quiet app (app.allocate config worker) := by
  have looked := chkLoadToRemove_quiet app
  exact ⟨looked.ctl, looked.replies, looked.pending⟩

theorem reqProcessed_quiet (app : App) (worker : Nat) :
    Quiet app (app.reqProcessed config worker) := by
  unfold reqProcessed
  dsimp only
  split
  · exact (chkLoadToRemove_quiet app).trans (withPool_quiet _ _)
  · exact withPool_quiet _ _

theorem removeTimerCb_quiet (app : App) (reported : Option Nat) :
    Quiet app (app.removeTimerCb config reported) := by
  have again : ∀ (after : App) (due : Prop) [Decidable due], Quiet app after →
      Quiet app (if due then { after with tRemove := after.tRemove.again } else after) := by
    intro after due _ quiet
    split
    · exact ⟨quiet.ctl, quiet.replies, quiet.pending⟩
    · exact quiet
  have stopped : Quiet app { app with tRemove := app.tRemove.stop } := ⟨rfl, rfl, id⟩
  unfold removeTimerCb
  dsimp only
  by_cases many : app.conf.minWorker < app.pool.workers.length
  · rw [if_pos many]
    cases reported with
    | none => exact again _ _ stopped
    | some pid => exact again _ _ (stopped.trans (withPool_quiet _ _))
  · rw [if_neg many]
    exact again _ _ stopped

theorem addCb_quiet (app : App) : Quiet app (app.addCb config fork) := by
  have stopped : Quiet app { app with tAdd := app.tAdd.stop } := ⟨rfl, rfl, id⟩
  unfold addCb
  dsimp only
  split
  · exact stopped.trans (wkrAdd_quiet _)
  · exact stopped

theorem balanceIf_quiet (app : App) (due : Prop) [Decidable due] :
    Quiet app (if due then app.balance config fork else app) := by
  split
  · exact balance_quiet app
  · exact .refl app

theorem waitCb_quiet (app : App) (worker : Nat) : Quiet app (app.waitCb config fork worker) := by
  unfold waitCb
  dsimp only
  split
  · exact (withPool_quiet app _).trans (balance_quiet _)
  · exact withPool_quiet app _

/-! ### What tells the administrator -/

theorem rollBack_settled : Settled app app.rollBack := by
  refine ⟨rfl, false, ?_⟩
  unfold rollBack addErrorMsg
  dsimp only
  cases app.ctl with
  | none => exact (List.append_nil _).symm
  | some ctl => rfl

theorem failed_settled : Settled app (app.addErrorMsg.remove config) := by
  refine ⟨rfl, false, ?_⟩
  unfold remove addErrorMsg
  dsimp only
  cases app.ctl with
  | none => exact (List.append_nil _).symm
  | some ctl => rfl

theorem replyOk_settled : Settled app app.replyOk := by
  refine ⟨rfl, true, ?_⟩
  unfold replyOk
  dsimp only
  cases app.ctl with
  | none => exact (List.append_nil _).symm
  | some ctl => rfl

/-- The arrival of a worker tells whoever waits for an application that is new or reloaded. -/
theorem greet_settled (marked : app.Marked) (waits : app.state = .new ∨ app.state = .restart)
    (rest : List Int) : Settled app ((app.taken config rest).greet config) := by
  rcases waits with starts | restarts
  · have state : (app.taken config rest).state = .new := starts
    rw [greet_new state]
    obtain ⟨ctl, well, told⟩ := @replyOk_settled (app.taken config rest)
    exact ⟨ctl, well, told⟩
  · have live : app.state ≠ .destroy := by
      rw [restarts]
      exact nofun
    obtain ⟨new, renewed⟩ := Option.isSome_iff_exists.mp ((marked live).mpr restarts)
    have state : (app.taken config rest).state = .restart := restarts
    have known : (app.taken config rest).new = some new := renewed
    rw [greet_restart state known]
    have same : ((app.taken config rest).reload config new).ctl = app.ctl ∧
        ((app.taken config rest).reload config new).replies = app.replies := by
      unfold reload withPool
      split <;> exact ⟨rfl, rfl⟩
    obtain ⟨ctl, well, told⟩ := @replyOk_settled ((app.taken config rest).reload config new)
    rw [same.1, same.2] at told
    exact ⟨ctl, well, told⟩

/-- A worker that registers. -/
theorem connect_answers (steady : app.Steady config) (marked : app.Marked) (pid : Nat)
    (connection : Connection) :
    Undisturbed app (app.connect config fork pid connection).1 ∨
      Settled app (app.connect config fork pid connection).1 := by
  by_cases accepts : app.Accepts pid connection
  · have goes : ∃ rest, Quiet ((app.taken config rest).greet config)
        (app.connect config fork pid connection).1 := by
      rcases connect_cases fork pid connection steady.room with
        ⟨refused, -⟩ | ⟨before, rest, -, -, -, ⟨-, same⟩ | ⟨-, pool, -, same⟩⟩
      · exact absurd accepts refused
      · rw [same]
        exact ⟨rest ++ before, rfl, rfl, id⟩
      · rw [same]
        refine ⟨rest ++ before, ?_⟩
        generalize (app.taken config (rest ++ before)).greet config = greeted
        have joined : Quiet greeted (greeted.joined config pool) := ⟨rfl, rfl, id⟩
        exact (joined.trans (allocate_quiet _ _)).trans (balance_quiet _)
    obtain ⟨rest, quiet⟩ := goes
    by_cases waits : app.state = .new ∨ app.state = .restart
    · exact .inr ((greet_settled marked waits rest).trans quiet)
    · obtain ⟨new, restart⟩ := not_or.mp waits
      have other : (app.taken config rest).greet config = app.taken config rest :=
        greet_other restart new
      rw [other] at quiet
      have mode := @connect_serves config fork app steady pid connection restart new
      have state : (app.connect config fork pid connection).1.state = app.state :=
        congrArg Prod.fst mode
      exact .inl ⟨quiet.ctl, quiet.replies, by rw [state], fun _ awaits => absurd awaits.1 waits⟩
  · rw [connect_refused steady.room accepts]
    exact .inl (.refl app)

theorem wkrError_answers (pid : Int) :
    Undisturbed app (app.wkrError config pid) ∨ Settled app (app.wkrError config pid) := by
  unfold wkrError
  split
  · exact .inr rollBack_settled
  · exact .inr failed_settled
  · next restart new =>
      refine .inl ⟨rfl, rfl, Iff.rfl, ?_⟩
      rintro - ⟨starts | restarts, -⟩
      · exact absurd starts new
      · exact absurd restarts restart

/-- The timer of the pending workers expires. -/
theorem addTimeoutCb_answers :
    Undisturbed app (app.addTimeoutCb config fork) ∨
      Settled app (app.addTimeoutCb config fork) := by
  by_cases past : (config.addTrials : Int) < short (app.timeoutCounter + 1)
  · left
    unfold addTimeoutCb
    rw [if_pos past]
    exact ⟨rfl, rfl, Iff.rfl, fun _ => id⟩
  · obtain ⟨killed, mode, ctl, replies, same⟩ :=
      @addTimeoutCb_state config fork app (Int.not_lt.mp past)
    have state : killed.state = app.state := congrArg Prod.fst mode
    have told : ∀ {after : App}, Settled killed after → Settled app after := by
      intro after settled
      obtain ⟨well, tells⟩ := settled.replies
      rw [ctl, replies] at tells
      exact ⟨settled.ctl, well, tells⟩
    rw [same]
    split
    · exact .inr (told rollBack_settled)
    · split
      · exact .inr (told failed_settled)
      · next some =>
          refine .inl ⟨ctl, replies, by rw [state], ?_⟩
          rintro - ⟨waits, -⟩
          rw [← state] at waits
          exact ⟨waits, some⟩
    · next restart new =>
        have quiet := @balance_quiet config fork killed
        have balanced := @balance_mode_serving config fork killed restart
        have kept : (killed.balance config fork).state = app.state :=
          (congrArg Prod.fst balanced).trans state
        refine .inl ⟨quiet.ctl.trans ctl, quiet.replies.trans replies, by rw [kept], ?_⟩
        rintro - ⟨starts | restarts, -⟩
        · exact absurd (state.trans starts) new
        · exact absurd (state.trans restarts) restart

/-- What a worker that hangs does, unless it ends a reload for which somebody waits. -/
theorem waitCb_answers (steady : app.Steady config) {worker : Nat}
    (registered : worker ∈ app.pool.workers)
    (active : (app.pool.wkr worker).tWait.active = true)
    (patient : app.ctl ≠ none → app.state = .restart → ¬ app.HangsUp config worker) :
    Undisturbed app (app.waitCb config fork worker) := by
  have quiet := @waitCb_quiet config fork app worker
  by_cases restart : app.state = .restart
  · rcases @waitCb_restart config fork app steady restart worker registered active with
      ⟨hangs, mode⟩ | ⟨-, mode⟩
    · have state : (app.waitCb config fork worker).state = .active := congrArg Prod.fst mode
      refine ⟨quiet.ctl, quiet.replies, by rw [state, restart]; exact ⟨nofun, nofun⟩, ?_⟩
      intro waited
      exact absurd hangs (patient waited restart)
    · exact quiet.undisturbed mode
  · exact quiet.undisturbed (waitCb_mode_serving restart worker)

/-- A callback that does not come from an administrator tells whoever waits, or lets him wait for
what is still to come. -/
theorem step_answers (steady : app.Steady config) (marked : app.Marked) {event : Event}
    (own : event.own = true)
    (patient : app.ctl ≠ none → app.state = .restart → ∀ worker, event = .timeout worker →
      ¬ app.HangsUp config worker) :
    Undisturbed app (app.step config fork event) ∨ Settled app (app.step config fork event) := by
  have idle : Undisturbed app app ∨ Settled app app := .inl (.refl app)
  have stays : ∀ {after : App}, Quiet app after → after.mode = app.mode →
      Undisturbed app after ∨ Settled app after :=
    fun quiet mode => .inl (quiet.undisturbed mode)
  unfold step
  split
  · exact idle
  · cases event with
    | complete => exact stays (complete_quiet app) complete_mode
    | clientError req | sent worker | part worker | reply worker =>
        dsimp only
        split
        · exact stays ⟨rfl, rfl, id⟩ rfl
        · exact idle
    | processed worker =>
        dsimp only
        split
        · exact stays (reqProcessed_quiet app worker) (reqProcessed_mode worker)
        · exact idle
    | dataError worker =>
        dsimp only
        split
        · exact stays (withPool_quiet app _) (withPool_mode _)
        · exact idle
    | ctlFree worker =>
        dsimp only
        split
        · refine stays ?_ (ctlFree_mode worker)
          exact (withPool_quiet app _).trans (balanceIf_quiet _ _)
        · exact idle
    | removeCb worker =>
        dsimp only
        split
        · refine stays ?_ (removeCb_mode worker)
          exact (withPool_quiet app _).trans (balanceIf_quiet _ _)
        · exact idle
    | timeout worker =>
        dsimp only
        split
        · next due =>
            exact .inl (waitCb_answers steady due.1 due.2 fun waits restart =>
              patient waits restart worker rfl)
        · exact idle
    | connect pid connection => exact connect_answers steady marked pid connection
    | wkrError pid => exact wkrError_answers pid
    | addTimeout =>
        dsimp only
        split
        · exact addTimeoutCb_answers
        · exact idle
    | addTimer =>
        dsimp only
        split
        · exact stays (addCb_quiet app) addCb_mode
        · exact idle
    | removeTimer reported =>
        dsimp only
        split
        · exact stays (removeTimerCb_quiet app reported) (removeTimerCb_mode reported)
        · exact idle
    | _ => exact nomatch own

/-! ### A new application -/

/-- The connection an application will answer. -/
def slot (app : App) : Option Nat := if app.state = .destroy then none else app.ctl

theorem slot_some (some : app.slot ≠ none) :
    app.state ≠ .destroy ∧ app.ctl ≠ none := by
  unfold slot at some
  split at some
  · exact absurd rfl some
  · next live => exact ⟨live, some⟩

/-- The first worker for an application can be forked. -/
def Forked (config : Config) (retval : Int) : Prop :=
  0 < config.pending ∧ 0 < config.addTrials ∧ 0 < retval

/-- An application that was inserted keeps the connection, and waits for the worker it has
forked. -/
theorem insert_waits (conf : Conf) (ctl : Option Nat) :
    (insert config fork conf ctl).ctl = ctl ∧
      (insert config fork conf ctl).state = .new ∧
      (0 < conf.minWorker → Forked config (fork 0) →
        (insert config fork conf ctl).Awaits) := by
  have state : (insert config fork conf ctl).state = .new :=
    congrArg Prod.fst (insert_mode conf ctl)
  have quiet := @balance_quiet config fork (created config conf ctl)
  refine ⟨quiet.ctl, state, ?_⟩
  rintro few ⟨room, trials, forks⟩
  refine ⟨.inl state, ?_⟩
  have able : (created config conf ctl).Able config :=
    ⟨room, Int.natCast_pos.mpr trials⟩
  have turns : (created config conf ctl).conf.minWorker -
      (created config conf ctl).total = (conf.minWorker - 1) + 1 := by
    change conf.minWorker - 0 = _
    omega
  have looped := @balanceLoop_forked config fork (created config conf ctl)
    (conf.minWorker - 1) few able forks
  unfold insert
  rw [balance_eq, turns, looped]
  have more := @balanceLoop_quiet config fork
    ((created config conf ctl).turned config (fork 0)) (conf.minWorker - 1)
  have some : ((created config conf ctl).turned config (fork 0)).pending ≠ [] :=
    List.append_ne_nil_of_right_ne_nil _ nofun
  split
  · exact more.pending some
  · exact more.pending some

theorem insert_slot (conf : Conf) (ctl : Option Nat) :
    (insert config fork conf ctl).slot = ctl := by
  obtain ⟨noted, state, -⟩ := @insert_waits config fork conf ctl
  unfold slot
  rw [noted, state]
  rfl

/-- An application that is reloaded keeps the connection, and waits for the worker it has
forked. -/
theorem reloadCb_waits (ctl : Nat) (new : Conf)
    (forked : Forked config (fork app.forks)) :
    (app.reloadCb config fork ctl (some new)).slot = some ctl ∧
      (app.reloadCb config fork ctl (some new)).Awaits ∧
      (app.reloadCb config fork ctl (some new)).replies = app.replies := by
  obtain ⟨room, trials, forks⟩ := forked
  let begun : App := { app with
    new := some new, state := .restart, timeoutCounter := 0, pending := [], ctl := some ctl }
  have able : begun.Able config := ⟨room, Int.natCast_pos.mpr trials⟩
  have same : app.reloadCb config fork ctl (some new) = begun.grown config (fork app.forks) :=
    congrArg Prod.fst (@wkrAdd_forked config fork begun able forks)
  rw [same]
  exact ⟨rfl, ⟨.inr rfl, List.append_ne_nil_of_right_ne_nil _ nofun⟩, rfl⟩

end App
