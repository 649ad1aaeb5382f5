import Webroar.App.Supply

/-! # Reloads

A reload puts an application into the state RESTART, keeps the new configuration, and forks a
worker for it. When a pending worker registers the new configuration is taken over and the state
is RESTARTING; an error or a timeout brings the application back to ACTIVE. Here is what moves an
application into these states and out of them.
-/

namespace App

variable {config : Config} {fork : Nat → Int} {app : App}

/-- The state of an application and the configuration a reload has read for it. -/
def mode (app : App) : AppState × Option Conf := (app.state, app.new)

/-! ### What leaves the state alone -/

@[simp] theorem withPool_mode (pool : Pool) : (app.withPool config pool).mode = app.mode := by
  rw [withPool]
  split <;> rfl

@[simp] theorem chkLoadToRemove_mode : app.chkLoadToRemove.mode = app.mode := by
  obtain ⟨timer, same⟩ := chkLoadToRemove_eq app
  rw [same]
  rfl

@[simp] theorem wkrAdd_mode : (app.wkrAdd config fork).1.mode = app.mode :=
  wkrAdd_induct (fun after => after.mode = app.mode) rfl (fun _ _ => rfl) (fun _ _ => rfl)

@[simp] theorem balanceLoop_mode (turns : Nat) :
    (app.balanceLoop config fork turns).mode = app.mode :=
  balanceLoop_induct (fun after => after.mode = app.mode) turns rfl
    (fun _ kept _ _ _ => kept) (fun _ kept _ _ _ => kept)

@[simp] theorem takePending_mode (pid : Int) :
    (app.takePending config pid).1.mode = app.mode := rfl

@[simp] theorem killOldest_mode : (app.killOldest config).mode = app.mode := by
  by_cases spent : app.timeoutCounter = (config.addTrials : Int)
  · rw [killOldest_spent spent]
    rfl
  · rw [killOldest_left spent]
    split <;> rfl

/-- Killing pending workers tells no administrator. -/
theorem killOldest_asked :
    (app.killOldest config).ctl = app.ctl ∧ (app.killOldest config).replies = app.replies := by
  by_cases spent : app.timeoutCounter = (config.addTrials : Int)
  · rw [killOldest_spent spent]
    exact ⟨rfl, rfl⟩
  · rw [killOldest_left spent]
    split <;> exact ⟨rfl, rfl⟩

@[simp] theorem complete_mode : (app.complete config).mode = app.mode := by
  unfold complete
  dsimp only
  split
  · obtain ⟨timer, same⟩ := chkLoadToAdd_eq app (app.pool.messages.length + 1)
    rw [same]
    rfl
  · rfl

@[simp] theorem allocate_mode (worker : Nat) : (app.allocate config worker).mode = app.mode :=
  chkLoadToRemove_mode

@[simp] theorem reqProcessed_mode (worker : Nat) :
    (app.reqProcessed config worker).mode = app.mode := by
  unfold reqProcessed
  dsimp only
  rw [withPool_mode]
  split
  · exact chkLoadToRemove_mode
  · rfl

@[simp] theorem removeTimerCb_mode (reported : Option Nat) :
    (app.removeTimerCb config reported).mode = app.mode := by
  have again : ∀ (after : App) (due : Prop) [Decidable due], after.mode = app.mode →
      (if due then { after with tRemove := after.tRemove.again } else after).mode = app.mode := by
    intro after due _ kept
    split <;> exact kept
  unfold removeTimerCb
  dsimp only
  by_cases many : app.conf.minWorker < app.pool.workers.length
  · rw [if_pos many]
    cases reported with
    | none => exact again _ _ rfl
    | some pid => exact again _ _ (withPool_mode _)
  · rw [if_neg many]
    exact again _ _ rfl

@[simp] theorem addCb_mode : (app.addCb config fork).mode = app.mode := by
  unfold addCb
  dsimp only
  split
  · exact wkrAdd_mode
  · rfl

/-- Balancing ends a reload while there are enough registered workers. -/
theorem balance_mode :
    (app.balance config fork).mode =
      if app.conf.minWorker ≤ app.pool.workers.length ∧ app.state = .restart then (.active, none)
      else app.mode := by
  rw [balance_eq]
  split
  · rfl
  · exact balanceLoop_mode _

theorem balance_mode_serving (serving : app.state ≠ .restart) :
    (app.balance config fork).mode = app.mode := by
  rw [balance_mode]
  exact if_neg fun both => serving both.2

/-- Only an active application is balanced, so a reload goes on. -/
theorem balanceIf_mode :
    (if app.state = .active then app.balance config fork else app).mode = app.mode := by
  split
  · next active =>
      apply balance_mode_serving
      rw [active]
      exact nofun
  · rfl

/-! ### Registrations -/

/-- A worker is accepted: it offers the right kind of socket, and its process id is pending. -/
def Accepts (app : App) (pid : Nat) (connection : Connection) : Prop :=
  connection.uds = true ∧ app.Open ∧ ((pid % 65536 : Nat) : Int) ∈ app.pending

theorem reload_mode (new : Conf) : (app.reload config new).mode = (.restarting, none) := by
  unfold reload withPool
  split <;> rfl

theorem greet_restart {new : Conf} (state : app.state = .restart) (renewed : app.new = some new) :
    app.greet config = (app.reload config new).replyOk := by
  unfold greet
  rw [state, renewed]

theorem greet_new (state : app.state = .new) :
    app.greet config = { app.replyOk with state := .active } := by
  unfold greet
  rw [state]

theorem greet_other (restart : app.state ≠ .restart) (new : app.state ≠ .new) :
    app.greet config = app := by
  unfold greet
  split
  · next state _ => exact absurd state restart
  · next state => exact absurd state new
  · rfl

theorem connect_refused_mode (steady : app.Steady config) {pid : Nat} {connection : Connection}
    (refused : ¬ app.Accepts pid connection) :
    app.connect config fork pid connection = (app, false) :=
  connect_refused steady.room refused

/-- The mode after a worker was accepted is the one its arrival leads to, whether or not the
connection stands in the end. -/
theorem connect_accepted_mode (steady : app.Steady config) {pid : Nat} {connection : Connection}
    (accepts : app.Accepts pid connection) {mode : AppState × Option Conf}
    (serving : mode.1 ≠ .restart)
    (greets : ∀ rest, ((app.taken config rest).greet config).mode = mode) :
    (app.connect config fork pid connection).1.mode = mode := by
  rcases connect_cases fork pid connection steady.room with
    ⟨refused, -⟩ | ⟨before, rest, -, -, -, ⟨-, same⟩ | ⟨-, pool, -, same⟩⟩
  · exact absurd accepts refused
  · rw [same]
    exact greets (rest ++ before)
  · have greeted := greets (rest ++ before)
    generalize (app.taken config (rest ++ before)).greet config = after at *
    rw [same]
    have settled : ((after.joined config pool).allocate config after.pool.nextWkr).mode = mode :=
      (allocate_mode _).trans greeted
    have state : ((after.joined config pool).allocate config after.pool.nextWkr).state ≠
        .restart := by
      intro restart
      exact serving ((congrArg Prod.fst settled).symm.trans restart)
    exact (balance_mode_serving state).trans settled

/-- A worker that is accepted while a reload waits commits it. -/
theorem connect_commits (steady : app.Steady config) {pid : Nat} {connection : Connection}
    (accepts : app.Accepts pid connection) {new : Conf} (state : app.state = .restart)
    (renewed : app.new = some new) :
    (app.connect config fork pid connection).1.mode = (.restarting, none) := by
  have serving : AppState.restarting ≠ .restart := nofun
  apply connect_accepted_mode steady accepts serving
  intro rest
  have restarts : (app.taken config rest).state = .restart := state
  rw [greet_restart restarts renewed]
  exact reload_mode new

theorem connect_starts (steady : app.Steady config) {pid : Nat} {connection : Connection}
    (accepts : app.Accepts pid connection) (state : app.state = .new) :
    (app.connect config fork pid connection).1.mode = (.active, app.new) := by
  have serving : AppState.active ≠ .restart := nofun
  apply connect_accepted_mode steady accepts serving
  intro rest
  have starts : (app.taken config rest).state = .new := state
  rw [greet_new starts]
  rfl

theorem connect_serves (steady : app.Steady config) {pid : Nat} {connection : Connection}
    (restart : app.state ≠ .restart) (new : app.state ≠ .new) :
    (app.connect config fork pid connection).1.mode = app.mode := by
  by_cases accepts : app.Accepts pid connection
  · apply connect_accepted_mode steady accepts restart
    intro rest
    have other : (app.taken config rest).greet config = app.taken config rest :=
      greet_other restart new
    rw [other]
    rfl
  · rw [connect_refused steady.room accepts]

/-! ### What one callback does to the mode -/

/-- A worker hangs up, and the application has enough registered workers without it. -/
def HangsUp (config : Config) (app : App) (worker : Nat) : Prop :=
  worker ∈ app.pool.workers ∧ (app.pool.wkr worker).tWait.active = true ∧
    ((app.pool.wkr worker).state = .active ∨ (app.pool.wkr worker).state = .pinging) ∧
      config.pingTrials ≤ (app.pool.wkr worker).trialsDone ∧
        app.conf.minWorker < app.pool.workers.length

/-- The add timeout gets past the count of the trials. -/
def TimesOut (config : Config) (app : App) : Prop :=
  app.tAddTimeout.active = true ∧ short (app.timeoutCounter + 1) ≤ config.addTrials

/-- What ends the wait for the worker of a reload. -/
def Leaves (config : Config) (event : Event) (app : App) : Prop :=
  match event with
  | .remove _ | .wkrError _ => True
  | .connect pid connection => app.Accepts pid connection
  | .addTimeout => app.TimesOut config
  | .timeout worker => app.HangsUp config worker
  | _ => False

theorem waitCb_mode_serving (serving : app.state ≠ .restart) (worker : Nat) :
    (app.waitCb config fork worker).mode = app.mode := by
  have state : (app.withPool config (app.pool.waitCb config worker)).state ≠ .restart := by
    intro restart
    exact serving ((congrArg Prod.fst (withPool_mode _)).symm.trans restart)
  unfold waitCb
  dsimp only
  split
  · rw [balance_mode_serving state]
    exact withPool_mode _
  · exact withPool_mode _

/-- A worker that hangs up ends a reload that waits, when there are enough others. -/
theorem waitCb_restart (steady : app.Steady config) (state : app.state = .restart) {worker : Nat}
    (registered : worker ∈ app.pool.workers)
    (active : (app.pool.wkr worker).tWait.active = true) :
    app.HangsUp config worker ∧ (app.waitCb config fork worker).mode = (.active, none) ∨
      ¬ app.HangsUp config worker ∧ (app.waitCb config fork worker).mode = app.mode := by
  have counted := congrArg List.length (@Pool.waitCb_workers config app.pool worker)
  have restarts : (app.withPool config (app.pool.waitCb config worker)).state = .restart :=
    (congrArg Prod.fst (withPool_mode _)).trans state
  have kept : (app.withPool config (app.pool.waitCb config worker)).conf = app.conf := by
    unfold withPool
    split <;> rfl
  have hangs : app.HangsUp config worker →
      ((app.pool.wkr worker).waitCb config).2 = .freeAndBalance := fun hangsUp =>
    congrArg Prod.snd (Wkr.waitCb_hangup hangsUp.2.2.1 hangsUp.2.2.2.1)
  unfold waitCb
  dsimp only
  rcases @Wkr.waitCb_outcome config _ (steady.pool.idle_or_busy registered) with
    stays | ⟨leaves, -⟩ | ⟨hangs, busy, spent⟩
  · right
    refine ⟨fun hangsUp => (nomatch stays.symm.trans (hangs hangsUp)), ?_⟩
    rw [stays]
    exact withPool_mode _
  · right
    refine ⟨fun hangsUp => (nomatch leaves.symm.trans (hangs hangsUp)), ?_⟩
    rw [leaves]
    exact withPool_mode _
  · have fewer : (app.pool.waitCb config worker).workers.length + 1 =
        app.pool.workers.length := by
      rw [counted, hangs]
      exact Pool.length_erase_add registered
    rw [hangs, if_pos rfl, balance_mode, kept, withPool_pool, withPool_mode]
    by_cases enough : app.conf.minWorker < app.pool.workers.length
    · left
      exact ⟨⟨registered, active, busy, spent, enough⟩, if_pos ⟨by omega, restarts⟩⟩
    · right
      exact ⟨fun hangsUp => enough hangsUp.2.2.2.2, if_neg fun both => enough (by omega)⟩

theorem ctlFree_mode (worker : Nat) : (app.ctlFree config fork worker).mode = app.mode := by
  unfold ctlFree
  rw [balanceIf_mode]
  exact withPool_mode _

theorem removeCb_mode (worker : Nat) : (app.removeCb config fork worker).mode = app.mode := by
  unfold removeCb
  rw [balanceIf_mode]
  exact withPool_mode _

theorem addTimeoutCb_over (past : (config.addTrials : Int) < short (app.timeoutCounter + 1)) :
    (app.addTimeoutCb config fork).mode = app.mode := by
  unfold addTimeoutCb
  rw [if_pos past]
  rfl

/-- Past the count of the trials the timeout goes by the state of the application. -/
theorem addTimeoutCb_state (timely : short (app.timeoutCounter + 1) ≤ config.addTrials) :
    ∃ killed : App, killed.mode = app.mode ∧ killed.ctl = app.ctl ∧
      killed.replies = app.replies ∧ app.addTimeoutCb config fork =
        match killed.state with
        | .restart => killed.rollBack
        | .new => if killed.pending = [] then killed.addErrorMsg.remove config else killed
        | _ => killed.balance config fork := by
  refine ⟨killOldest config { app with
    tAddTimeout := app.tAddTimeout.stop
    timeoutCounter := short (app.timeoutCounter + 1) }, ?_, ?_, ?_, ?_⟩
  · exact killOldest_mode
  · exact killOldest_asked.1
  · exact killOldest_asked.2
  · unfold addTimeoutCb
    exact if_neg (Int.not_lt.mpr timely)

theorem addTimeoutCb_restart (state : app.state = .restart)
    (timely : short (app.timeoutCounter + 1) ≤ config.addTrials) :
    (app.addTimeoutCb config fork).mode = (.active, none) := by
  obtain ⟨killed, mode, -, -, same⟩ := @addTimeoutCb_state config fork app timely
  have restart : killed.state = .restart := (congrArg Prod.fst mode).trans state
  rw [same, restart]
  rfl

theorem addTimeoutCb_serving (restart : app.state ≠ .restart) :
    (app.addTimeoutCb config fork).mode = app.mode ∨
      (app.addTimeoutCb config fork).state = .destroy ∧ app.state = .new := by
  by_cases past : (config.addTrials : Int) < short (app.timeoutCounter + 1)
  · exact .inl (addTimeoutCb_over past)
  · obtain ⟨killed, mode, -, -, same⟩ := @addTimeoutCb_state config fork app (Int.not_lt.mp past)
    have state : killed.state = app.state := congrArg Prod.fst mode
    rw [same]
    split
    · next wrong => exact absurd (state.symm.trans wrong) restart
    · next starts =>
        split
        · exact .inr ⟨rfl, state.symm.trans starts⟩
        · exact .inl mode
    · next other _ =>
        left
        rw [balance_mode_serving other]
        exact mode

/-- While a reload waits for its worker, the events that end the wait are these, and nothing else
touches its configuration. -/
theorem step_remains (steady : app.Steady config) (state : app.state = .restart)
    {event : Event} (stays : ¬ app.Leaves config event) :
    (app.step config fork event).state = .restart ∧
      ((app.step config fork event).mode = app.mode ∨
        ∃ ctl newer, event = .reload ctl (some newer) ∧
          (app.step config fork event).mode = (.restart, some newer)) := by
  have same : ∀ {after : App}, after.mode = app.mode → after.state = .restart ∧
      (after.mode = app.mode ∨ ∃ ctl newer, event = .reload ctl (some newer) ∧
        after.mode = (.restart, some newer)) := by
    intro after kept
    exact ⟨(congrArg Prod.fst kept).trans state, .inl kept⟩
  unfold step
  rw [if_neg (by rw [state]; exact nofun)]
  cases event with
  | complete => exact same complete_mode
  | clientError req =>
      dsimp only
      split <;> exact same rfl
  | sent worker | part worker =>
      dsimp only
      split <;> exact same rfl
  | processed worker =>
      dsimp only
      split
      · exact same (reqProcessed_mode worker)
      · exact same rfl
  | dataError worker =>
      dsimp only
      split
      · exact same (withPool_mode _)
      · exact same rfl
  | ctlFree worker =>
      dsimp only
      split
      · exact same (ctlFree_mode worker)
      · exact same rfl
  | removeCb worker =>
      dsimp only
      split
      · exact same (removeCb_mode worker)
      · exact same rfl
  | timeout worker =>
      dsimp only
      split
      · next due =>
          rcases @waitCb_restart config fork app steady state worker due.1 due.2 with
            ⟨hangs, -⟩ | ⟨-, kept⟩
          · exact absurd hangs stays
          · exact same kept
      · exact same rfl
  | reply worker =>
      dsimp only
      split <;> exact same rfl
  | connect pid connection =>
      dsimp only
      rw [connect_refused steady.room stays]
      exact same rfl
  | wkrError pid => exact absurd trivial stays
  | reload ctl read =>
      cases read with
      | none => exact same rfl
      | some newer =>
          have begun : (app.reloadCb config fork ctl (some newer)).mode =
              (.restart, some newer) := wkrAdd_mode
          exact ⟨congrArg Prod.fst begun, .inr ⟨ctl, newer, rfl, begun⟩⟩
  | addAgain ctl => exact same rfl
  | remove ctl => exact absurd trivial stays
  | ctlClosed ctl => exact same rfl
  | addTimeout =>
      dsimp only
      split
      · next active =>
          have past : (config.addTrials : Int) < short (app.timeoutCounter + 1) := by
            by_contra timely
            exact stays ⟨active, Int.not_lt.mp timely⟩
          exact same (addTimeoutCb_over past)
      · exact same rfl
  | addTimer =>
      dsimp only
      split
      · exact same addCb_mode
      · exact same rfl
  | removeTimer reported =>
      dsimp only
      split
      · exact same (removeTimerCb_mode reported)
      · exact same rfl

/-- Each of the events ends the wait. -/
theorem step_leaves (steady : app.Steady config) {new : Conf} (state : app.state = .restart)
    (renewed : app.new = some new) {event : Event} (leaves : app.Leaves config event) :
    (app.step config fork event).state = .destroy ∧ (∃ ctl, event = .remove ctl) ∨
      (app.step config fork event).mode = (.restarting, none) ∧
        (∃ pid connection, event = .connect pid connection) ∨
      (app.step config fork event).mode = (.active, none) := by
  unfold step
  rw [if_neg (by rw [state]; exact nofun)]
  cases event with
  | remove ctl => exact .inl ⟨rfl, ctl, rfl⟩
  | connect pid connection =>
      exact .inr (.inl ⟨connect_commits steady leaves state renewed, pid, connection, rfl⟩)
  | wkrError pid =>
      right
      right
      dsimp only
      unfold wkrError
      rw [state]
      rfl
  | addTimeout =>
      right
      right
      dsimp only
      rw [if_pos leaves.1]
      exact addTimeoutCb_restart state leaves.2
  | timeout worker =>
      right
      right
      dsimp only
      rw [if_pos ⟨leaves.1, leaves.2.1⟩]
      rcases @waitCb_restart config fork app steady state worker leaves.1 leaves.2.1 with
        ⟨-, cancels⟩ | ⟨stays, -⟩
      · exact cancels
      · exact absurd leaves stays
  | _ => exact absurd leaves id

/-- What a callback makes of the mode of an application that does not wait for a reload. -/
theorem step_serving (steady : app.Steady config) (live : app.state ≠ .destroy)
    (serving : app.state ≠ .restart) (event : Event) :
    (app.step config fork event).mode = app.mode ∨
      app.state = .new ∧ (app.step config fork event).mode = (.active, app.new) ∨
      (app.step config fork event).state = .destroy ∧
        (app.state = .new ∨ ∃ ctl, event = .remove ctl) ∨
      ∃ ctl newer, event = .reload ctl (some newer) ∧
        (app.step config fork event).mode = (.restart, some newer) := by
  unfold step
  rw [if_neg live]
  cases event with
  | complete => exact .inl complete_mode
  | clientError req =>
      dsimp only
      split <;> exact .inl rfl
  | sent worker | part worker =>
      dsimp only
      split <;> exact .inl rfl
  | processed worker =>
      dsimp only
      split
      · exact .inl (reqProcessed_mode worker)
      · exact .inl rfl
  | dataError worker =>
      dsimp only
      split
      · exact .inl (withPool_mode _)
      · exact .inl rfl
  | ctlFree worker =>
      dsimp only
      split
      · exact .inl (ctlFree_mode worker)
      · exact .inl rfl
  | removeCb worker =>
      dsimp only
      split
      · exact .inl (removeCb_mode worker)
      · exact .inl rfl
  | timeout worker =>
      dsimp only
      split
      · exact .inl (waitCb_mode_serving serving worker)
      · exact .inl rfl
  | reply worker =>
      dsimp only
      split <;> exact .inl rfl
  | connect pid connection =>
      dsimp only
      by_cases starts : app.state = .new
      · by_cases accepts : app.Accepts pid connection
        · exact .inr (.inl ⟨starts, connect_starts steady accepts starts⟩)
        · rw [connect_refused steady.room accepts]
          exact .inl rfl
      · exact .inl (connect_serves steady serving starts)
  | wkrError pid =>
      dsimp only
      unfold wkrError
      split
      · next wrong => exact absurd wrong serving
      · next starts => exact .inr (.inr (.inl ⟨rfl, .inl starts⟩))
      · exact .inl rfl
  | reload ctl read =>
      cases read with
      | none => exact .inl rfl
      | some newer =>
          have begun : (app.reloadCb config fork ctl (some newer)).mode =
              (.restart, some newer) := wkrAdd_mode
          exact .inr (.inr (.inr ⟨ctl, newer, rfl, begun⟩))
  | addAgain ctl => exact .inl rfl
  | remove ctl => exact .inr (.inr (.inl ⟨rfl, .inr ⟨ctl, rfl⟩⟩))
  | ctlClosed ctl => exact .inl rfl
  | addTimeout =>
      dsimp only
      split
      · rcases @addTimeoutCb_serving config fork app serving with kept | ⟨gone, starts⟩
        · exact .inl kept
        · exact .inr (.inr (.inl ⟨gone, .inl starts⟩))
      · exact .inl rfl
  | addTimer =>
      dsimp only
      split
      · exact .inl addCb_mode
      · exact .inl rfl
  | removeTimer reported =>
      dsimp only
      split
      · exact .inl (removeTimerCb_mode reported)
      · exact .inl rfl

/-- A reload has read a configuration exactly while it waits for its worker. -/
def Marked (app : App) : Prop :=
  app.state ≠ .destroy → (app.new.isSome = true ↔ app.state = .restart)

theorem marked_of_mode {after : App} {mode : AppState × Option Conf} (same : after.mode = mode)
    (marked : mode.2.isSome = true ↔ mode.1 = .restart) : after.Marked := by
  intro _
  rw [← same] at marked
  exact marked

theorem Marked.step (marked : app.Marked) (steady : app.Steady config) (event : Event) :
    (app.step config fork event).Marked := by
  by_cases live : app.state = .destroy
  · unfold App.step
    rw [if_pos live]
    exact marked
  · have marks := marked live
    by_cases restart : app.state = .restart
    · obtain ⟨new, renewed⟩ := Option.isSome_iff_exists.mp (marks.mpr restart)
      by_cases leaves : app.Leaves config event
      · rcases @step_leaves config fork app steady new restart renewed event leaves with
          ⟨gone, -⟩ | ⟨mode, -⟩ | mode
        · exact fun alive => absurd gone alive
        · exact marked_of_mode mode ⟨nofun, nofun⟩
        · exact marked_of_mode mode ⟨nofun, nofun⟩
      · rcases (@step_remains config fork app steady restart event leaves).2 with
          mode | ⟨ctl, newer, -, mode⟩
        · exact marked_of_mode mode marks
        · exact marked_of_mode mode ⟨fun _ => rfl, fun _ => rfl⟩
    · have unread : ¬ app.new.isSome = true := fun some => restart (marks.mp some)
      rcases @step_serving config fork app steady live restart event with
        mode | ⟨-, mode⟩ | ⟨gone, -⟩ | ⟨ctl, newer, -, mode⟩
      · exact marked_of_mode mode marks
      · exact marked_of_mode mode ⟨fun some => absurd some unread, nofun⟩
      · exact fun alive => absurd gone alive
      · exact marked_of_mode mode ⟨fun _ => rfl, fun _ => rfl⟩

theorem insert_mode (conf : Conf) (ctl : Option Nat) :
    (App.insert config fork conf ctl).mode = (.new, none) := by
  have serving : (created config conf ctl).state ≠ .restart := nofun
  exact balance_mode_serving serving

theorem marked_after (fork : Nat → Int) (conf : Conf) (ctl : Option Nat) (input : Nat → Event)
    (count : Nat) :
    (Machine.after (App.step config fork) input (App.insert config fork conf ctl)
      count).Marked := by
  induction count with
  | zero => exact marked_of_mode (insert_mode conf ctl) ⟨nofun, nofun⟩
  | succ count ih => exact ih.step (steady_after fork conf ctl input count) (input count)

end App
