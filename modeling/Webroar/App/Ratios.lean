import Webroar.App.Atomicity
import Webroar.App.Watch

/-! # Do the load ratios follow the workers?

An application keeps two thresholds for its load: the high ratio belongs to the registered and the
pending workers together, the low ratio to the registered ones. Both are products that are stored
and have to be calculated anew where the queues change.
-/

namespace App

variable (config : Config) (fork : Nat → Int)

/-- The high ratio is that of all workers. -/
def High (app : App) : Prop := app.highRatio = short (app.total * config.maxReqRatio)

/-- The low ratio is that of the registered workers. -/
def Low (app : App) : Prop :=
  app.lowRatio = short (app.pool.workers.length * config.minReqRatio)

/-- Both are, once a worker has registered. -/
def Follows (registered : Prop) (app : App) : Prop :=
  app.state ≠ .destroy → High config app ∧ (registered → Low config app)

/-- The ratios are the products themselves, where these are small enough for a `short`. -/
def Matches (app : App) : Prop :=
  (app.total * config.maxReqRatio < 2 ^ 15 →
      app.highRatio = (app.total * config.maxReqRatio : Nat)) ∧
    (app.pool.workers.length * config.minReqRatio < 2 ^ 15 →
      app.lowRatio = (app.pool.workers.length * config.minReqRatio : Nat))

/-! ### When they go on to follow -/

/-- Balancing forks no worker: there are enough, none can be added, or the fork fails. -/
def Idle (minWorker : Nat) (watch : Watch) (workers : Nat) : Prop :=
  minWorker ≤ watch.pending.length + workers ∨
    ¬ (watch.pending.length < config.pending ∧ watch.counter < config.addTrials) ∨
    fork watch.forks ≤ 0

/-- Balancing does not spoil the low ratio, into which it counts the workers it forks. -/
def Spared (minWorker : Nat) (watch : Watch) (workers : Nat) : Prop :=
  Idle config fork minWorker watch workers ∨ config.minReqRatio = 0

/-- The condition for each callback. A registered worker goes: no worker is forked for it. A worker
registers: no free worker goes with a reload, whose place the high ratio does not count, and no
worker is forked. A pending worker that failed is not counted out, nor are those that a reload
forgets unless a worker is forked for it. -/
def Keeps (registered : Prop) (event : Event) (app : App) : Prop :=
  match event with
  | .ctlFree worker | .removeCb worker =>
      worker ∈ app.pool.workers → app.state = .active →
        Spared config fork app.conf.minWorker app.watch (app.pool.workers.length - 1)
  | .timeout worker =>
      worker ∈ app.pool.workers → ((app.pool.wkr worker).waitCb config).2 = .freeAndBalance →
        Spared config fork app.conf.minWorker app.watch (app.pool.workers.length - 1)
  | .connect pid connection =>
      app.Accepts pid connection → connection.Completes config app →
        (app.state = .restart → app.pool.freeWorkers = [] ∨ config.maxReqRatio = 0 ∨
          ¬ Idle config fork app.upcoming.minWorker
            (app.watch.heard config (app.pending.erase ((pid % 65536 : Nat) : Int)))
            (app.staying + 1)) ∧
        Spared config fork app.upcoming.minWorker
          (app.watch.heard config (app.pending.erase ((pid % 65536 : Nat) : Int)))
          (app.staying + 1)
  | .wkrError pid =>
      app.state ≠ .restart → app.state ≠ .new → pid ∈ app.pending → config.maxReqRatio = 0
  | .reload _ (some _) =>
      app.pending = [] ∨ config.maxReqRatio = 0 ∨
        0 < config.pending ∧ 0 < config.addTrials ∧ 0 < fork app.forks
  | .addTimeout =>
      registered → app.tAddTimeout.active = true → app.state ≠ .restart → app.state ≠ .new →
        short (app.timeoutCounter + 1) ≤ config.addTrials →
          Spared config fork app.conf.minWorker (app.watch.expire config) app.pool.workers.length
  | _ => True

/-- A worker registers. -/
def Took (event : Event) (app : App) : Prop :=
  match event with
  | .connect pid connection => (app.connect config fork pid connection).2 = true
  | _ => False

variable {config fork} {app : App} {registered : Prop}

/-! ### Small steps -/

theorem High.congr {after : App} (high : High config app) (ratio : after.highRatio = app.highRatio)
    (total : after.total = app.total) : High config after := by
  unfold High
  rw [ratio, total]
  exact high

theorem Low.congr {after : App} (low : Low config app) (ratio : after.lowRatio = app.lowRatio)
    (workers : after.pool.workers.length = app.pool.workers.length) : Low config after := by
  unfold Low
  rw [ratio, workers]
  exact low

/-- Without a ratio there is nothing to follow. -/
theorem high_zero {after : App} (high : High config app) (zero : config.maxReqRatio = 0)
    (ratio : after.highRatio = app.highRatio) : High config after := by
  unfold High at high ⊢
  rw [ratio, high, zero, Nat.cast_zero, mul_zero, mul_zero]

/-- A callback that leaves the workers and the ratios alone. -/
theorem Follows.congr {after : App} (follows : Follows config registered app)
    (state : app.state ≠ .destroy) (highs : after.highRatio = app.highRatio)
    (lows : after.lowRatio = app.lowRatio) (pending : after.pending.length = app.pending.length)
    (workers : after.pool.workers.length = app.pool.workers.length) :
    Follows config registered after := by
  obtain ⟨high, low⟩ := follows state
  have total : after.total = app.total := by
    unfold total
    rw [pending, workers]
  exact fun _ => ⟨high.congr highs total, fun once => (low once).congr lows workers⟩

/-- Workers that are freed are counted out of both. -/
theorem Follows.withPool (follows : Follows config registered app) (live : app.state ≠ .destroy)
    {pool : Pool} (fewer : pool.workers.length ≤ app.pool.workers.length) :
    Follows config registered (app.withPool config pool) := by
  unfold App.withPool
  split
  · exact fun _ => ⟨rfl, fun _ => rfl⟩
  · next same => exact follows.congr live rfl rfl rfl (by dsimp only; omega)

/-! ### Balancing -/

theorem idle_loop (idle : Idle config fork app.conf.minWorker app.watch app.pool.workers.length)
    (turns : Nat) :
    app.balanceLoop config fork turns = app ∨ app.balanceLoop config fork turns = app.failed := by
  by_cases few : app.total < app.conf.minWorker
  · by_cases able : app.Able config
    · have fails : fork app.forks ≤ 0 := by
        rcases idle with enough | unable | fails
        · exact absurd few (Nat.not_lt.mpr enough)
        · exact absurd able unable
        · exact fails
      cases turns with
      | zero => exact .inl rfl
      | succ turns => exact .inr (balanceLoop_failed turns few able fails)
    · exact .inl (balanceLoop_unable turns able)
  · exact .inl (balanceLoop_enough turns (Nat.not_lt.mp few))

/-- Each turn of the loop counts its worker into the high ratio. -/
theorem High.loop (high : High config app) (turns : Nat) :
    High config (app.balanceLoop config fork turns) := by
  apply balanceLoop_induct (High config) turns high
  · exact fun _ kept _ _ _ => kept
  · intro after _ _ _ _
    unfold High
    rw [turned_total]
    rfl

theorem Low.loop (low : Low config app)
    (spared : Spared config fork app.conf.minWorker app.watch app.pool.workers.length)
    (turns : Nat) : Low config (app.balanceLoop config fork turns) := by
  rcases spared with idle | zero
  · rcases idle_loop idle turns with same | same
    · rw [same]
      exact low
    · rw [same]
      exact low
  · apply balanceLoop_induct (Low config) turns low
    · exact fun _ kept _ _ _ => kept
    · intro after _ _ _ _
      unfold Low turned
      dsimp only
      rw [zero, Nat.cast_zero, mul_zero, mul_zero]

/-- A loop that forks a worker sets the high ratio right. -/
theorem high_of_busy
    (busy : ¬ Idle config fork app.conf.minWorker app.watch app.pool.workers.length) :
    High config (app.balanceLoop config fork (app.conf.minWorker - app.total)) := by
  unfold Idle at busy
  push Not at busy
  obtain ⟨few, able, forks⟩ := busy
  have turns : app.conf.minWorker - app.total = (app.conf.minWorker - app.total - 1) + 1 := by
    change app.conf.minWorker - (app.pending.length + app.pool.workers.length) =
      (app.conf.minWorker - (app.pending.length + app.pool.workers.length) - 1) + 1
    change app.pending.length + app.pool.workers.length < app.conf.minWorker at few
    omega
  rw [turns, balanceLoop_forked _ few able forks]
  apply High.loop
  unfold High
  rw [turned_total]
  rfl

theorem balance_iff (ratio : App → Prop)
    (blind : ∀ app state new, ratio { app with state := state, new := new } ↔ ratio app) :
    ratio (app.balance config fork) ↔
      ratio (app.balanceLoop config fork (app.conf.minWorker - app.total)) := by
  rw [balance_eq]
  split
  · exact blind _ _ _
  · exact Iff.rfl

theorem High.balance (high : High config app) : High config (app.balance config fork) :=
  (balance_iff (High config) fun _ _ _ => Iff.rfl).mpr (high.loop _)

theorem Low.balance (low : Low config app)
    (spared : Spared config fork app.conf.minWorker app.watch app.pool.workers.length) :
    Low config (app.balance config fork) :=
  (balance_iff (Low config) fun _ _ _ => Iff.rfl).mpr (low.loop spared _)

theorem Follows.balance (follows : Follows config registered app) (live : app.state ≠ .destroy)
    (spared : registered →
      Spared config fork app.conf.minWorker app.watch app.pool.workers.length) :
    Follows config registered (app.balance config fork) := by
  obtain ⟨high, low⟩ := follows live
  exact fun _ => ⟨high.balance, fun once => (low once).balance (spared once)⟩

/-- A worker is gone, and the application is balanced or not. -/
theorem Follows.lose (follows : Follows config registered app) (live : app.state ≠ .destroy)
    {pool : Pool} (left : pool.workers.length + 1 = app.pool.workers.length) {due : Prop}
    [Decidable due]
    (spared : due →
      Spared config fork app.conf.minWorker app.watch (app.pool.workers.length - 1)) :
    Follows config registered
      (if due then (app.withPool config pool).balance config fork
        else app.withPool config pool) := by
  have lost := follows.withPool live (Nat.le_of_succ_le left.le)
  have frame : (app.withPool config pool).state = app.state ∧
      (app.withPool config pool).conf = app.conf := by
    unfold App.withPool
    split <;> exact ⟨rfl, rfl⟩
  split
  · next balances =>
      refine lost.balance (by rw [frame.1]; exact live) fun _ => ?_
      have enough := spared balances
      rw [frame.2, withPool_watch, withPool_pool]
      rw [← left, Nat.add_sub_cancel] at enough
      exact enough
  · exact lost

/-! ### A worker registers -/

/-- Whether balancing forks depends on the number of the pending workers. -/
theorem idle_congr {minWorker workers : Nat} {watch other : Watch}
    (pending : other.pending.length = watch.pending.length)
    (counter : other.counter = watch.counter) (forks : other.forks = watch.forks) :
    Idle config fork minWorker other workers ↔ Idle config fork minWorker watch workers := by
  unfold Idle
  rw [pending, counter, forks]

theorem Low.withPool (low : Low config app) {pool : Pool}
    (fewer : pool.workers.length ≤ app.pool.workers.length) :
    Low config (app.withPool config pool) := by
  unfold App.withPool
  split
  · exact rfl
  · next same => exact low.congr rfl (by dsimp only; omega)

/-- What the arrival of a worker leaves behind, before the worker is in the queue. -/
structure Greeted (config : Config) (app : App) (rest : List Int) (after : App) : Prop where
  conf : after.conf = app.upcoming
  watch : after.watch = app.watch.heard config rest
  workers : after.pool.workers.length = app.staying
  live : after.state ≠ .destroy
  low : Low config app → Low config after
  high : (app.state = .restart → app.pool.freeWorkers = [] ∨ config.maxReqRatio = 0) →
    after.highRatio = app.highRatio ∨ config.maxReqRatio = 0 ∧ after.highRatio = short 0

theorem greeted (steady : app.Steady config) (marked : app.Marked) (live : app.state ≠ .destroy)
    (rest : List Int) : Greeted config app rest ((app.taken config rest).greet config) := by
  have watch : ((app.taken config rest).greet config).watch = app.watch.heard config rest :=
    greet_watch.trans (taken_watch rest)
  have workers := (greet_pool steady marked live rest).1
  by_cases restart : app.state = .restart
  · obtain ⟨new, renewed⟩ := Option.isSome_iff_exists.mp ((marked live).mpr restart)
    have restarts : (app.taken config rest).state = .restart := restart
    have same : (app.taken config rest).greet config =
        ((app.taken config rest).reload config new).replyOk := greet_restart restarts renewed
    have upcoming : app.upcoming = new := by
      unfold upcoming
      rw [if_pos restart, renewed]
      rfl
    have fewer := steady.pool.length_reload
    have reloaded : ∀ pool : Pool,
        ((app.taken config rest).withPool config pool).conf = app.conf := by
      intro pool
      unfold App.withPool
      split <;> rfl
    rw [same] at watch workers ⊢
    refine ⟨?_, watch, workers, nofun, fun low => ?_, fun spared => ?_⟩
    · rw [upcoming]
      unfold replyOk reload App.withPool
      dsimp only
      split <;> rfl
    · have kept : Low config { app.taken config rest with
          conf := new, new := none, resolved := new } := low
      exact (kept.withPool (Nat.le_of_add_right_le fewer.le)).congr rfl rfl
    · unfold replyOk reload App.withPool
      dsimp only
      rcases spared restart with none | zero
      · rw [none, List.length_nil, Nat.add_zero] at fewer
        have same : (app.taken config rest).pool = app.pool := rfl
        rw [if_neg (by rw [same, fewer]; exact lt_irrefl _)]
        exact .inl rfl
      · split
        · refine .inr ⟨zero, ?_⟩
          unfold resetHighRatio
          dsimp only
          rw [zero, Nat.cast_zero, mul_zero]
        · exact .inl rfl
  · have conf : app.upcoming = app.conf := if_neg restart
    by_cases new : app.state = .new
    · have starts : (app.taken config rest).state = .new := new
      have same : (app.taken config rest).greet config =
          { (app.taken config rest).replyOk with state := .active } := greet_new starts
      rw [same] at watch workers ⊢
      exact ⟨conf.symm, watch, workers, nofun, id, fun _ => .inl rfl⟩
    · have same : (app.taken config rest).greet config = app.taken config rest :=
        greet_other restart new
      rw [same] at watch workers ⊢
      exact ⟨conf.symm, watch, workers, live, id, fun _ => .inl rfl⟩

/-- The worker is put into the queue, and the application is balanced. -/
theorem Greeted.joins {greeted : App} {pool : Pool} {pid : Int} {before rest : List Int}
    {worker : Nat} (after : Greeted config app (rest ++ before) greeted)
    (split : app.pending = before ++ pid :: rest) (high : High config app)
    (counted : app.state = .restart → app.pool.freeWorkers = [] ∨ config.maxReqRatio = 0 ∨
      ¬ Idle config fork app.upcoming.minWorker (app.watch.heard config (app.pending.erase pid))
        (app.staying + 1))
    (spared : Spared config fork app.upcoming.minWorker
      (app.watch.heard config (app.pending.erase pid)) (app.staying + 1))
    (entered : pool.workers.length = app.staying + 1) {registered : Prop} :
    High config (((greeted.joined config pool).allocate config worker).balance config fork) ∧
      (registered →
        Low config
          (((greeted.joined config pool).allocate config worker).balance config fork)) := by
  let joined := (greeted.joined config pool).allocate config worker
  have watch : joined.watch = app.watch.heard config (rest ++ before) :=
    (allocate_watch worker).trans after.watch
  have workers : joined.pool.workers = pool.workers := allocate_pool_workers worker
  have frame : joined.conf = greeted.conf ∧ joined.highRatio = greeted.highRatio ∧
      joined.lowRatio = short (pool.workers.length * config.minReqRatio) := by
    obtain ⟨timer, same⟩ := chkLoadToRemove_eq (greeted.joined config pool)
    change (App.allocate config _ worker).conf = _ ∧ (App.allocate config _ worker).highRatio = _ ∧
      (App.allocate config _ worker).lowRatio = _
    unfold App.allocate
    rw [same]
    exact ⟨rfl, rfl, rfl⟩
  have length : (rest ++ before).length = (app.pending.erase pid).length := by
    rw [split]
    exact (rotated pid before rest).length_eq
  have idle : Idle config fork joined.conf.minWorker joined.watch joined.pool.workers.length ↔
      Idle config fork app.upcoming.minWorker (app.watch.heard config (app.pending.erase pid))
        (app.staying + 1) := by
    rw [frame.1, after.conf, watch, workers, entered]
    exact idle_congr length rfl rfl
  have low : Low config joined := by
    unfold Low
    rw [frame.2.2, workers]
  refine ⟨?_, fun _ => low.balance (spared.imp_left idle.mpr)⟩
  -- the place of a free worker that goes with a reload is not counted again
  have steady : (app.state = .restart → app.pool.freeWorkers = [] ∨ config.maxReqRatio = 0) →
      High config joined := by
    intro stays
    have total : joined.total = (rest ++ before).length + (app.staying + 1) := by
      unfold total
      rw [workers, entered, show joined.pending = rest ++ before from congrArg Watch.pending watch]
    have whole : config.maxReqRatio = 0 ∨ app.staying = app.pool.workers.length := by
      unfold staying
      by_cases restart : app.state = .restart
      · rw [if_pos restart]
        rcases stays restart with none | zero
        · rw [none, List.length_nil, Nat.sub_zero]
          exact .inr rfl
        · exact .inl zero
      · rw [if_neg restart]
        exact .inr rfl
    rcases after.high stays with kept | ⟨zero, kept⟩
    · rcases whole with zero | whole
      · exact high_zero high zero (frame.2.1.trans kept)
      · refine high.congr (frame.2.1.trans kept) ?_
        rw [total, whole]
        unfold App.total
        rw [split, List.length_append, List.length_append, List.length_cons]
        omega
    · unfold High
      rw [frame.2.1, kept, zero, Nat.cast_zero, mul_zero]
  by_cases restart : app.state = .restart
  · rcases counted restart with none | zero | busy
    · exact (steady fun _ => .inl none).balance
    · exact (steady fun _ => .inr zero).balance
    · exact (balance_iff (High config) fun _ _ _ => Iff.rfl).mpr
        (high_of_busy fun idles => busy (idle.mp idles))
  · exact (steady fun restarts => absurd restarts restart).balance

theorem Follows.connect (follows : Follows config registered app) (steady : app.Steady config)
    (marked : app.Marked) (live : app.state ≠ .destroy) {pid : Nat} {connection : Connection}
    (keeps : Keeps config fork registered (.connect pid connection) app) :
    Follows config (registered ∨ (app.connect config fork pid connection).2 = true)
      (app.connect config fork pid connection).1 := by
  obtain ⟨high, low⟩ := follows live
  rcases connect_cases fork pid connection steady.room with
    ⟨-, same⟩ | ⟨before, rest, split, uds, opened, outcome⟩
  · rw [same]
    exact fun _ => ⟨high, fun once => low (once.resolve_right nofun)⟩
  · have after := greeted steady marked live (rest ++ before)
    rcases outcome with ⟨-, same⟩ | ⟨works, pool, admitted, same⟩
    · rw [same]
      exact fun _ => ⟨rfl, fun once => after.low (low (once.resolve_right nofun))⟩
    · have entered := Pool.setRatio_workers admitted
      have room := Pool.setRatio_isSome.mp (Option.isSome_of_eq_some admitted)
      rw [after.workers] at entered room
      have present : ((pid % 65536 : Nat) : Int) ∈ app.pending := by
        rw [split]
        exact List.mem_append_right _ List.mem_cons_self
      obtain ⟨counted, spared⟩ := keeps ⟨uds, opened, present⟩ ⟨works, room⟩
      rw [same]
      exact fun _ => after.joins split high counted spared entered

/-! ### The other callbacks -/

/-- An attempt to fork a worker counts it into the high ratio. -/
theorem High.wkrAdd (high : High config app) : High config (app.wkrAdd config fork).1 := by
  apply wkrAdd_induct (High config) high
  · exact fun _ _ => high
  · intro _ _
    unfold High
    rw [grown_total]
    rfl

theorem Follows.wkrAdd (follows : Follows config registered app) (live : app.state ≠ .destroy) :
    Follows config registered (app.wkrAdd config fork).1 := by
  obtain ⟨high, low⟩ := follows live
  have lows : registered → Low config (app.wkrAdd config fork).1 := by
    intro once
    apply wkrAdd_induct (Low config) (low once)
    · exact fun _ _ => low once
    · exact fun _ _ => low once
  exact fun _ => ⟨high.wkrAdd, lows⟩

theorem Follows.wkrError (follows : Follows config registered app)
    (room : app.pending.length ≤ config.pending) (live : app.state ≠ .destroy) {pid : Int}
    (keeps : Keeps config fork registered (.wkrError pid) app) :
    Follows config registered (app.wkrError config pid) := by
  unfold App.wkrError
  split
  · exact follows.congr live rfl rfl rfl rfl
  · exact fun alive => absurd rfl alive
  · next restart new =>
      obtain ⟨high, low⟩ := follows live
      by_cases present : pid ∈ app.pending
      · have zero := keeps restart new present
        obtain ⟨before, rest, -, -, found⟩ := takePending_present room present
        rw [found]
        exact fun _ => ⟨high_zero high zero rfl, low⟩
      · rw [takePending_absent room present]
        exact fun _ => ⟨high, low⟩

theorem Follows.reloadCb (follows : Follows config registered app) (live : app.state ≠ .destroy)
    {ctl : Nat} {read : Option Conf}
    (keeps : Keeps config fork registered (.reload ctl read) app) :
    Follows config registered (app.reloadCb config fork ctl read) := by
  cases read with
  | none => exact follows.congr live rfl rfl rfl rfl
  | some new =>
      obtain ⟨high, low⟩ := follows live
      let begun : App := { app with
        new := some new, state := .restart, timeoutCounter := 0, pending := [], ctl := some ctl }
      change Follows config registered (begun.wkrAdd config fork).1
      have same : High config begun → Follows config registered begun := fun same _ => ⟨same, low⟩
      rcases keeps with none | zero | ⟨room, trials, forks⟩
      · refine (same (high.congr rfl ?_)).wkrAdd nofun
        unfold total
        rw [none]
      · exact (same (high_zero high zero rfl)).wkrAdd nofun
      · have able : begun.Able config := ⟨room, Int.natCast_pos.mpr trials⟩
        rw [show begun.wkrAdd config fork = (begun.grown config (fork app.forks), true) from
          wkrAdd_forked able forks]
        refine fun _ => ⟨?_, low⟩
        unfold High
        rw [grown_total]
        rfl

/-- Killing pending workers sets the high ratio right. -/
theorem killOldest_ratios : (app.killOldest config).conf = app.conf ∧
    (app.killOldest config).pool = app.pool ∧ (app.killOldest config).lowRatio = app.lowRatio ∧
      High config (app.killOldest config) := by
  by_cases spent : app.timeoutCounter = (config.addTrials : Int)
  · rw [killOldest_spent spent]
    exact ⟨rfl, rfl, rfl, rfl⟩
  · rw [killOldest_left spent]
    split
    · exact ⟨rfl, rfl, rfl, rfl⟩
    · exact ⟨rfl, rfl, rfl, rfl⟩

theorem Follows.addTimeoutCb (follows : Follows config registered app) (live : app.state ≠ .destroy)
    (active : app.tAddTimeout.active = true)
    (keeps : Keeps config fork registered .addTimeout app) :
    Follows config registered (app.addTimeoutCb config fork) := by
  let expired : App := { app with
    tAddTimeout := app.tAddTimeout.stop
    timeoutCounter := short (app.timeoutCounter + 1) }
  obtain ⟨-, low⟩ := follows live
  obtain ⟨conf, pool, lows, high⟩ := @killOldest_ratios config expired
  have state : (expired.killOldest config).state = app.state := killOldest_state
  have watch : (expired.killOldest config).watch = app.watch.expire config := killOldest_watch
  have killed : Follows config registered (expired.killOldest config) := fun _ =>
    ⟨high, fun once => (low once).congr lows (congrArg (fun pool => pool.workers.length) pool)⟩
  unfold App.addTimeoutCb
  dsimp only
  split
  · exact follows.congr live rfl rfl rfl rfl
  · next under =>
      have still : (expired.killOldest config).state ≠ .destroy := by
        rw [state]
        exact live
      split
      · exact killed.congr still rfl rfl rfl rfl
      · split
        · exact fun alive => absurd rfl alive
        · exact killed
      · next restart new =>
          refine killed.balance still fun once => ?_
          rw [conf, watch, pool]
          exact keeps once active (by rw [← state]; exact restart) (by rw [← state]; exact new)
            (Int.not_lt.mp under)

theorem Follows.removeTimerCb (follows : Follows config registered app)
    (live : app.state ≠ .destroy) (reported : Option Nat) :
    Follows config registered (app.removeTimerCb config reported) := by
  have stopped : Follows config registered { app with tRemove := app.tRemove.stop } :=
    follows.congr live rfl rfl rfl rfl
  have again : ∀ {after : App} (due : Prop) [Decidable due], Follows config registered after →
      Follows config registered
        (if due then { after with tRemove := after.tRemove.again } else after) := by
    intro after due _ kept
    split
    · exact kept
    · exact kept
  unfold App.removeTimerCb
  dsimp only
  by_cases many : app.conf.minWorker < app.pool.workers.length
  · rw [if_pos many]
    cases reported with
    | none => exact again _ stopped
    | some pid =>
        have fewer : (app.pool.removeWkr pid).workers.length ≤ app.pool.workers.length := by
          rcases Pool.removeWkr_workers pid with same | ⟨worker, -, same⟩
          · rw [same]
          · rw [same]
            exact List.length_erase_le
        exact again _ (stopped.withPool live fewer)
  · rw [if_neg many]
    exact again _ stopped

/-! ### Steps and runs -/

theorem Follows.weaken {less : Prop} (follows : Follows config registered app)
    (fewer : less → registered) : Follows config less app :=
  fun live => ⟨(follows live).1, fun once => (follows live).2 (fewer once)⟩

/-- An action takes a worker out of the queue at most. -/
theorem left_le (pool : Pool) (worker : Nat) (next : Next) :
    (pool.left worker next).length ≤ pool.workers.length := by
  cases next with
  | stay => exact le_rfl
  | allocate => exact le_rfl
  | free => exact List.length_erase_le
  | freeAndBalance => exact List.length_erase_le

theorem Follows.complete (follows : Follows config registered app) (live : app.state ≠ .destroy) :
    Follows config registered (app.complete config) := by
  have workers : (app.pool.complete config).workers.length = app.pool.workers.length :=
    congrArg List.length Pool.complete_workers
  unfold App.complete
  dsimp only
  split
  · obtain ⟨timer, same⟩ := chkLoadToAdd_eq app (app.pool.messages.length + 1)
    rw [same]
    exact follows.congr live rfl rfl rfl workers
  · exact follows.congr live rfl rfl rfl workers

theorem Follows.reqProcessed (follows : Follows config registered app)
    (live : app.state ≠ .destroy) (worker : Nat) :
    Follows config registered (app.reqProcessed config worker) := by
  have fewer : (app.pool.reqProcessed config worker).workers.length ≤ app.pool.workers.length := by
    rw [Pool.reqProcessed_workers]
    exact left_le _ _ _
  unfold App.reqProcessed
  dsimp only
  split
  · obtain ⟨timer, same⟩ := chkLoadToRemove_eq app
    have looked : Follows config registered app.chkLoadToRemove := by
      rw [same]
      exact follows.congr live rfl rfl rfl rfl
    rw [same] at looked ⊢
    exact looked.withPool live fewer
  · exact follows.withPool live fewer

theorem Follows.waitCb (follows : Follows config registered app) (live : app.state ≠ .destroy)
    {worker : Nat} (member : worker ∈ app.pool.workers)
    (keeps : Keeps config fork registered (.timeout worker) app) :
    Follows config registered (app.waitCb config fork worker) := by
  have workers := @Pool.waitCb_workers config app.pool worker
  unfold App.waitCb
  dsimp only
  by_cases balances : ((app.pool.wkr worker).waitCb config).2 = .freeAndBalance
  · refine follows.lose live ?_ (keeps member)
    rw [workers, balances]
    exact Pool.length_erase_add member
  · rw [if_neg balances]
    refine follows.withPool live ?_
    rw [workers]
    exact left_le _ _ _

/-- A worker whose control connection or object goes. -/
theorem Follows.die (follows : Follows config registered app) (live : app.state ≠ .destroy)
    {worker : Nat} (member : worker ∈ app.pool.workers) {pool : Pool}
    (workers : pool.workers = app.pool.workers.erase worker)
    (spared : app.state = .active →
      Spared config fork app.conf.minWorker app.watch (app.pool.workers.length - 1)) :
    Follows config registered
      (if (app.withPool config pool).state = .active then
        (app.withPool config pool).balance config fork
      else app.withPool config pool) := by
  refine follows.lose live ?_ fun active => spared ?_
  · rw [workers]
    exact Pool.length_erase_add member
  · rw [← active]
    unfold App.withPool
    split <;> rfl

theorem Follows.addCb (follows : Follows config registered app) (live : app.state ≠ .destroy) :
    Follows config registered (app.addCb config fork) := by
  have stopped : Follows config registered { app with tAdd := app.tAdd.stop } :=
    follows.congr live rfl rfl rfl rfl
  unfold App.addCb
  dsimp only
  split
  · exact stopped.wkrAdd live
  · exact stopped

/-- One callback that meets its condition, other than the arrival of a worker. -/
theorem Follows.other (follows : Follows config registered app) (steady : app.Steady config)
    (live : app.state ≠ .destroy) {event : Event} (keeps : Keeps config fork registered event app)
    (other : ∀ pid connection, event ≠ .connect pid connection) :
    Follows config registered (app.step config fork event) := by
  have stays : ∀ after : App, after.highRatio = app.highRatio → after.lowRatio = app.lowRatio →
      after.pending = app.pending → after.pool.workers = app.pool.workers →
        Follows config registered after := fun after highs lows pending workers =>
    follows.congr live highs lows (congrArg List.length pending) (congrArg List.length workers)
  unfold App.step
  rw [if_neg live]
  cases event with
  | complete => exact follows.complete live
  | clientError req =>
      dsimp only
      split
      · exact stays _ rfl rfl rfl (Pool.errResp_workers _ _)
      · exact follows
  | sent worker =>
      dsimp only
      split
      · exact stays _ rfl rfl rfl rfl
      · exact follows
  | part worker =>
      dsimp only
      split
      · exact stays _ rfl rfl rfl rfl
      · exact follows
  | processed worker =>
      dsimp only
      split
      · exact follows.reqProcessed live worker
      · exact follows
  | dataError worker =>
      dsimp only
      split
      · refine follows.withPool live ?_
        rw [Pool.stateMachine_workers]
        exact left_le _ _ _
      · exact follows
  | ctlFree worker =>
      dsimp only
      split
      · next member => exact follows.die live member (Pool.wkrFree_workers _ _) (keeps member)
      · exact follows
  | removeCb worker =>
      dsimp only
      split
      · next member =>
          refine follows.die live member ?_ (keeps member)
          rw [Pool.stateMachine_workers]
          cases (app.pool.wkr worker).state <;> rfl
      · exact follows
  | timeout worker =>
      dsimp only
      split
      · next due => exact follows.waitCb live due.1 keeps
      · exact follows
  | reply worker =>
      dsimp only
      split
      · next member => exact stays _ rfl rfl rfl (steady.pool.reply_workers member)
      · exact follows
  | connect pid connection => exact absurd rfl (other pid connection)
  | wkrError pid => exact follows.wkrError steady.room live keeps
  | reload ctl read => exact follows.reloadCb live keeps
  | addAgain ctl => exact stays _ rfl rfl rfl rfl
  | remove ctl => exact fun alive => absurd rfl alive
  | ctlClosed ctl => exact stays _ rfl rfl rfl rfl
  | addTimeout =>
      dsimp only
      split
      · next active => exact follows.addTimeoutCb live active keeps
      · exact follows
  | addTimer =>
      dsimp only
      split
      · exact follows.addCb live
      · exact follows
  | removeTimer reported =>
      dsimp only
      split
      · exact follows.removeTimerCb live reported
      · exact follows

/-- One callback that meets its condition. -/
theorem Follows.step (follows : Follows config registered app) (steady : app.Steady config)
    (marked : app.Marked) {event : Event} (keeps : Keeps config fork registered event app) :
    Follows config (registered ∨ app.state ≠ .destroy ∧ Took config fork event app)
      (app.step config fork event) := by
  by_cases live : app.state = .destroy
  · have same : app.step config fork event = app := if_pos live
    rw [same]
    exact fun alive => absurd live alive
  · by_cases arrives : ∃ pid connection, event = .connect pid connection
    · obtain ⟨pid, connection, rfl⟩ := arrives
      have same : app.step config fork (.connect pid connection) =
          (app.connect config fork pid connection).1 := if_neg live
      rw [same]
      exact (follows.connect steady marked live keeps).weaken fun once => once.imp_right And.right
    · push Not at arrives
      refine (follows.other steady live keeps arrives).weaken fun once => ?_
      refine once.resolve_right fun ⟨_, took⟩ => ?_
      unfold Took at took
      split at took
      · exact arrives _ _ rfl
      · exact took

/-- What fits into a `short` is stored as it is. -/
theorem short_small {value : Nat} (small : value < 2 ^ 15) : short value = value := by
  unfold short
  omega

/-- The object as `wr_app_insert` makes it. -/
theorem Follows.insert (conf : Conf) (ctl : Option Nat) :
    Follows config False (App.insert config fork conf ctl) := by
  have created : High config (created config conf ctl) := by
    change (0 : Int) = short (((0 : Nat) * config.maxReqRatio : Nat))
    rw [Nat.zero_mul]
    exact (short_small (Nat.two_pow_pos 15)).symm
  exact fun _ => ⟨created.balance, False.elim⟩

theorem Follows.matches (follows : Follows config registered app) (live : app.state ≠ .destroy)
    (once : registered) : Matches config app := by
  obtain ⟨high, low⟩ := follows live
  refine ⟨fun small => ?_, fun small => ?_⟩
  · have ratio : app.highRatio = short ((app.total * config.maxReqRatio : Nat)) := by
      rw [high, Nat.cast_mul]
    rw [ratio, short_small small]
  · have ratio : app.lowRatio = short ((app.pool.workers.length * config.minReqRatio : Nat)) := by
      rw [low once, Nat.cast_mul]
    rw [ratio, short_small small]

section Runs

variable (config : Config) (fork : Nat → Int) (conf : Conf) (ctl : Option Nat)
  (input : Nat → Event)

/-- The application after some of its callbacks. -/
def run (count : Nat) : App :=
  Machine.after (App.step config fork) input (App.insert config fork conf ctl) count

/-- A worker has registered with it. -/
def Registered (count : Nat) : Prop :=
  ∃ before < count, (run config fork conf ctl input before).state ≠ .destroy ∧
    Took config fork (input before) (run config fork conf ctl input before)

/-- In a run of callbacks that meet their conditions the ratios follow the workers. -/
theorem ratios_follow (count : Nat)
    (keeps : ∀ before < count, Keeps config fork (Registered config fork conf ctl input before)
      (input before) (run config fork conf ctl input before)) :
    Follows config (Registered config fork conf ctl input count)
      (run config fork conf ctl input count) := by
  induction count with
  | zero =>
      exact (Follows.insert conf ctl).weaken fun ⟨_, wrong, _⟩ => absurd wrong (Nat.not_lt_zero _)
  | succ count ih =>
      have follows := ih fun before earlier => keeps before (Nat.lt_succ_of_lt earlier)
      have next := follows.step (steady_after fork conf ctl input count)
        (marked_after fork conf ctl input count) (keeps count (Nat.lt_succ_self count))
      refine next.weaken fun ⟨before, earlier, took⟩ => ?_
      rcases Nat.lt_succ_iff_lt_or_eq.mp earlier with earlier | rfl
      · exact .inl ⟨before, earlier, took⟩
      · exact .inr took

/-- The thresholds of an application that lives and has had a worker. -/
theorem thresholds_follow (count : Nat)
    (keeps : ∀ before < count, Keeps config fork (Registered config fork conf ctl input before)
      (input before) (run config fork conf ctl input before))
    (live : (run config fork conf ctl input count).state ≠ .destroy)
    (once : Registered config fork conf ctl input count) :
    Matches config (run config fork conf ctl input count) :=
  (ratios_follow config fork conf ctl input count keeps).matches live once

end Runs

/-- A worker registers, and it goes. -/
def shortInput : Nat → Event
  | 0 => .connect 100 ⟨true, true, true⟩
  | _ => .ctlFree 0

/-- While only one worker has come, the ratios are right. -/
theorem thresholds_follow_one :
    Matches Config.init (run Config.init (fun _ => 100) smallConf none shortInput 1) := by
  apply thresholds_follow
  · intro before earlier
    obtain rfl : before = 0 := Nat.lt_one_iff.mp earlier
    intro _ _
    exact ⟨fun restart => absurd restart (by decide +kernel), .inl (.inl (by decide +kernel))⟩
  · decide +kernel
  · exact ⟨0, Nat.one_pos, by decide +kernel, by
      change (App.connect _ _ _ _ _).2 = true
      decide +kernel⟩

/-- Once it has gone, no worker is registered, and a new one has been forked. The low ratio is that
of one worker. -/
theorem thresholds_lag :
    (run Config.init (fun _ => 100) smallConf none shortInput 2).state ≠ .destroy ∧
      Registered Config.init (fun _ => 100) smallConf none shortInput 2 ∧
        ¬ Matches Config.init (run Config.init (fun _ => 100) smallConf none shortInput 2) := by
  refine ⟨by decide +kernel, ⟨0, Nat.two_pos, by decide +kernel, ?_⟩, fun right => ?_⟩
  · change (App.connect _ _ _ _ _).2 = true
    decide +kernel
  · exact absurd (right.2 (by decide +kernel)) (by decide +kernel)

end App
