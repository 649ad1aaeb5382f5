import Webroar.App.Supply

/-! # The death of a worker

That a worker died is noticed on its data socket, on its control socket, by a message, or because
it does not answer pings. Each way frees the worker, but not each of them balances the application
afterwards.
-/

namespace Pool

variable {config : Config} {pool : Pool} {worker : Nat}

/-- What freeing a worker that holds a request does to everything but the record of the worker. -/
def unlist (pool : Pool) (worker : Nat) (held : Option Nat) : Pool :=
  let answered := match held with
    | some req =>
        { (pool.setReq req { pool.req req with usingWkr := false }).errResp req with
          failed := pool.failed ++ [req] }
    | none => pool
  { answered with
    workers := answered.workers.erase worker
    freeWorkers := answered.freeWorkers.erase worker }

theorem errResp_setWkr (wkr : Wkr) (req : Nat) :
    (pool.setWkr worker wkr).errResp req = (pool.errResp req).setWkr worker wkr := by
  unfold errResp setWkr
  dsimp only
  split
  · split <;> rfl
  · rfl

theorem errResp_failed (req : Nat) : (pool.errResp req).failed = pool.failed := by
  unfold errResp
  split
  · split <;> rfl
  · rfl

/-- The record of a freed worker stays as it was. -/
theorem wkrFree_setWkr (wkr : Wkr) :
    (pool.setWkr worker wkr).wkrFree worker = (pool.unlist worker wkr.req).setWkr worker wkr := by
  have placed : ∀ record req, (pool.setWkr worker wkr).setReq req record =
      (pool.setReq req record).setWkr worker wkr := fun _ _ => rfl
  have same : (pool.setWkr worker wkr).req = pool.req := rfl
  unfold wkrFree answerFailed unlist
  rw [setWkr_wkr]
  cases wkr.req with
  | none => rfl
  | some req =>
      simp only [placed, same, errResp_setWkr]
      rfl

theorem unlist_workers (held : Option Nat) :
    (pool.unlist worker held).workers = pool.workers.erase worker := by
  cases held with
  | none => rfl
  | some req => exact congrArg (·.erase worker) (errResp_workers _ _)

theorem unlist_freeWorkers (held : Option Nat) :
    (pool.unlist worker held).freeWorkers = pool.freeWorkers.erase worker := by
  cases held with
  | none => rfl
  | some req => exact congrArg (·.erase worker) (errResp_freeWorkers _ _)

theorem unlist_failed (held : Option Nat) :
    (pool.unlist worker held).failed = pool.failed ++ held.toList := by
  cases held with
  | none => exact (List.append_nil _).symm
  | some req => rfl

end Pool

/-- The ways in which the death of a worker is noticed. -/
inductive Sign where
  | dataError | ctlClosed | removed | hangup
deriving DecidableEq

namespace App

variable (config : Config) (fork : Nat → Int)

/-- The callback that notices the death of a worker. -/
def dies (app : App) (worker : Nat) : Sign → App
  | .dataError => app.dataError config worker
  | .ctlClosed => app.ctlFree config fork worker
  | .removed => app.removeCb config fork worker
  | .hangup => app.waitCb config fork worker

/-- The death can be noticed this way: the data socket is watched while there is a request, and a
worker hangs up when its trials are used up. -/
def Noticed (app : App) (worker : Nat) : Sign → Prop
  | .dataError => app.Occupied worker
  | .ctlClosed | .removed => True
  | .hangup =>
      ((app.pool.wkr worker).state = .active ∨ (app.pool.wkr worker).state = .pinging) ∧
        config.pingTrials ≤ (app.pool.wkr worker).trialsDone ∧
          (app.pool.wkr worker).tWait.active = true

/-- The same application but for the record of a worker that was freed. -/
def Alike (worker : Nat) (first second : App) : Prop :=
  first = { second with pool := second.pool.setWkr worker (first.pool.wkr worker) }

/-- The worker is gone, the ratios follow the number of workers, its request is answered once, and
there are as many workers as are needed. -/
structure Handled (app after : App) (worker : Nat) : Prop where
  workers : after.pool.workers = app.pool.workers.erase worker
  freeWorkers : after.pool.freeWorkers = app.pool.freeWorkers.erase worker
  high : after.highRatio = short (after.total * config.maxReqRatio)
  low : after.lowRatio = short (after.pool.workers.length * config.minReqRatio) ∨
    after.lowRatio = short (after.total * config.minReqRatio)
  failed : after.pool.failed = app.pool.failed ++ (app.pool.wkr worker).req.toList
  total : after.total = max (app.total - 1) app.conf.minWorker

/-- The death of a worker is handled, and the same whichever way it is noticed. -/
def HandledAlike (app : App) (worker : Nat) : Prop :=
  ∀ sign, app.Noticed config worker sign →
    app.Handled config (app.dies config fork worker sign) worker ∧
      ∀ other, app.Noticed config worker other →
        Alike worker (app.dies config fork worker sign) (app.dies config fork worker other)

/-- All forks that are needed without one of the workers succeed. -/
def Refills (app : App) : Prop :=
  app.timeoutCounter < config.addTrials ∧
    app.pending.length + (app.conf.minWorker + 1 - app.total) ≤ config.pending ∧
      ∀ turn < app.conf.minWorker + 1 - app.total, 0 < fork (app.forks + turn)

variable {config fork} {app : App} {worker : Nat}

/-! ### What the four ways have in common -/

/-- The record of the worker when it is freed. -/
def dying (app : App) (worker : Nat) : Sign → Wkr
  | .hangup =>
      { app.pool.wkr worker with tWait := (app.pool.wkr worker).tWait.stop, state := .hangup }
  | _ => { app.pool.wkr worker with state := .error }

/-- The application without the worker, before it is balanced. -/
def without (config : Config) (app : App) (worker : Nat) (wkr : Wkr) : App :=
  app.withPool config
    ((app.pool.unlist worker (app.pool.wkr worker).req).setWkr worker wkr)

theorem withPool_state (pool : Pool) : (app.withPool config pool).state = app.state := by
  rw [withPool]
  split <;> rfl

theorem stateMachine_dies {action : WkrAction} (known : action = .error ∨ action = .remove) :
    app.pool.stateMachine config worker action =
      (app.pool.unlist worker (app.pool.wkr worker).req).setWkr worker
        { app.pool.wkr worker with state := .error } := by
  unfold Pool.stateMachine
  rw [Wkr.stateMachine_free _ known]
  exact Pool.wkrFree_setWkr _

/-- Each way frees the worker; an active application is balanced but for an error on the data
socket. -/
theorem dies_eq (active : app.state = .active) {sign : Sign}
    (noticed : app.Noticed config worker sign) :
    app.dies config fork worker sign =
      if sign = .dataError then app.without config worker (app.dying worker sign)
      else (app.without config worker (app.dying worker sign)).balance config fork := by
  have stays : ∀ wkr, (app.without config worker wkr).state = .active := fun wkr =>
    (withPool_state _).trans active
  cases sign with
  | dataError =>
      change app.withPool config (app.pool.stateMachine config worker .error) = _
      rw [stateMachine_dies (.inl rfl)]
      rfl
  | ctlClosed =>
      change (if (app.withPool config _).state = .active then _ else _) = _
      rw [Pool.wkrFree_setWkr]
      exact if_pos (stays _)
  | removed =>
      change (if (app.withPool config _).state = .active then _ else _) = _
      rw [stateMachine_dies (.inr rfl)]
      exact if_pos (stays _)
  | hangup =>
      obtain ⟨state, spent, -⟩ := noticed
      have outcome : (app.pool.wkr worker).waitCb config =
          (app.dying worker .hangup, .freeAndBalance) := Wkr.waitCb_hangup state spent
      have freed : app.pool.waitCb config worker =
          (app.pool.unlist worker (app.pool.wkr worker).req).setWkr worker
            (app.dying worker .hangup) := by
        unfold Pool.waitCb Pool.stateMachine
        dsimp only
        rw [Pool.setWkr_wkr, Pool.setWkr_setWkr]
        unfold Wkr.waitCb at outcome
        rw [outcome]
        exact Pool.wkrFree_setWkr _
      change (if ((app.pool.wkr worker).waitCb config).2 = .freeAndBalance then _ else _) = _
      rw [outcome, freed]
      rfl

theorem without_eq (wkr : Wkr) :
    app.without config worker wkr =
      { app.withPool config (app.pool.unlist worker (app.pool.wkr worker).req) with
        pool := (app.pool.unlist worker (app.pool.wkr worker).req).setWkr worker wkr } := by
  unfold without withPool
  change (if (app.pool.unlist worker (app.pool.wkr worker).req).workers.length < _ then _ else _) = _
  split <;> rfl

/-- Two ways that do not balance differ in the record of the worker only. -/
theorem without_alike (first second : Wkr) :
    Alike worker (app.without config worker first) (app.without config worker second) := by
  unfold Alike
  rw [without_eq first, without_eq second]
  dsimp only
  rw [Pool.setWkr_setWkr, Pool.setWkr_wkr]

theorem alike_refl (app : App) (worker : Nat) : Alike worker app app := by
  unfold Alike
  rw [Pool.setWkr, Function.update_eq_self]

/-! ### Handling -/

section Without

variable (registered : worker ∈ app.pool.workers) (wkr : Wkr)
include registered

theorem without_fewer :
    (app.without config worker wkr).pool.workers = app.pool.workers.erase worker ∧
      (app.pool.workers.erase worker).length + 1 = app.pool.workers.length := by
  refine ⟨?_, Pool.length_erase_add registered⟩
  unfold without
  rw [withPool_pool]
  exact Pool.unlist_workers _

theorem without_total : (app.without config worker wkr).total = app.total - 1 := by
  obtain ⟨fewer, counted⟩ := @without_fewer config app worker registered wkr
  unfold total
  rw [fewer, ← counted]
  unfold without
  rw [withPool_pending]
  rfl

/-- But for the replacement the death is handled before the application is balanced. -/
theorem without_ratios :
    (app.without config worker wkr).highRatio =
        short ((app.without config worker wkr).total * config.maxReqRatio) ∧
      (app.without config worker wkr).lowRatio =
        short ((app.without config worker wkr).pool.workers.length * config.minReqRatio) := by
  obtain ⟨fewer, counted⟩ := @without_fewer config app worker registered wkr
  have less : ((app.pool.unlist worker (app.pool.wkr worker).req).setWkr worker
      wkr).workers.length < app.pool.workers.length := by
    change (app.pool.unlist worker (app.pool.wkr worker).req).workers.length < _
    rw [Pool.unlist_workers]
    omega
  unfold without withPool
  rw [if_pos less]
  exact ⟨rfl, rfl⟩

end Without

/-! ### Replacements -/

/-- Balancing never forks more workers than are missing. -/
theorem balanceLoop_total (turns : Nat) :
    app.total ≤ (app.balanceLoop config fork turns).total ∧
      (app.balanceLoop config fork turns).total ≤ app.total + turns := by
  induction turns generalizing app with
  | zero => exact ⟨Nat.le_refl _, Nat.le_refl _⟩
  | succ turns ih =>
      rcases Nat.lt_or_ge app.total app.conf.minWorker with few | enough
      · rcases wkrAdd_cases config fork app with ⟨unable, -⟩ | ⟨able, none, -⟩ | ⟨able, some, -⟩
        · rw [balanceLoop_unable _ unable]
          exact ⟨Nat.le_refl _, Nat.le_add_right _ _⟩
        · rw [balanceLoop_failed turns few able none]
          exact ⟨Nat.le_refl app.total, Nat.le_add_right app.total _⟩
        · have next := @ih (app.turned config (fork app.forks))
          rw [turned_total] at next
          rw [balanceLoop_forked turns few able some]
          omega
      · rw [balanceLoop_enough _ enough]
        exact ⟨Nat.le_refl _, Nat.le_add_right _ _⟩

/-- Where the loop ends with enough workers, every fork succeeded. -/
theorem balanceLoop_forks {turns : Nat} (room : app.pending.length ≤ config.pending)
    (missing : app.conf.minWorker = app.total + turns)
    (filled : app.conf.minWorker ≤ (app.balanceLoop config fork turns).total) :
    (0 < turns → app.timeoutCounter < config.addTrials) ∧
      app.pending.length + turns ≤ config.pending ∧
        ∀ turn < turns, 0 < fork (app.forks + turn) := by
  induction turns generalizing app with
  | zero => exact ⟨fun wrong => absurd wrong (Nat.lt_irrefl 0), room, nofun⟩
  | succ turns ih =>
      have few : app.total < app.conf.minWorker := by omega
      rcases wkrAdd_cases config fork app with ⟨unable, -⟩ | ⟨able, none, -⟩ | ⟨able, some, -⟩
      · rw [balanceLoop_unable _ unable] at filled
        exact absurd few (Nat.not_lt.mpr filled)
      · rw [balanceLoop_failed turns few able none] at filled
        exact absurd few (Nat.not_lt.mpr filled)
      · rw [balanceLoop_forked turns few able some] at filled
        have grown : (app.turned config (fork app.forks)).pending.length =
            app.pending.length + 1 := List.length_append
        have left : (app.turned config (fork app.forks)).conf.minWorker =
            (app.turned config (fork app.forks)).total + turns := by
          rw [turned_total]
          change app.conf.minWorker = _
          omega
        obtain ⟨-, fits, others⟩ := ih (grown.trans_le able.1) left filled
        refine ⟨fun _ => able.2, ?_, ?_⟩
        · omega
        · intro turn less
          cases turn with
          | zero => exact some
          | succ turn =>
              have next := others turn (Nat.lt_of_succ_lt_succ less)
              change 0 < fork (app.forks + 1 + turn) at next
              rwa [Nat.add_assoc, Nat.add_comm 1 turn] at next

/-- Balancing keeps the ratios in step with the number of workers. -/
theorem balanceLoop_ratios (turns : Nat)
    (high : app.highRatio = short (app.total * config.maxReqRatio))
    (low : app.lowRatio = short (app.pool.workers.length * config.minReqRatio)) :
    (app.balanceLoop config fork turns).highRatio =
        short ((app.balanceLoop config fork turns).total * config.maxReqRatio) ∧
      ((app.balanceLoop config fork turns).lowRatio =
          short ((app.balanceLoop config fork turns).pool.workers.length * config.minReqRatio) ∨
        (app.balanceLoop config fork turns).lowRatio =
          short ((app.balanceLoop config fork turns).total * config.minReqRatio)) := by
  apply balanceLoop_induct (fun after =>
    after.highRatio = short (after.total * config.maxReqRatio) ∧
      (after.lowRatio = short (after.pool.workers.length * config.minReqRatio) ∨
        after.lowRatio = short (after.total * config.minReqRatio))) turns ⟨high, .inl low⟩
  · intro after kept _ _ _
    exact kept
  · intro after _ _ _ _
    rw [turned_total]
    exact ⟨rfl, .inr rfl⟩

theorem balance_active (active : app.state = .active) :
    app.balance config fork =
      app.balanceLoop config fork (app.conf.minWorker - app.total) := by
  rw [balance_eq]
  apply if_neg
  rintro ⟨-, restarts⟩
  exact nomatch active.symm.trans restarts

/-- Freeing the worker handles its death when there was a worker to spare. -/
theorem without_handled (registered : worker ∈ app.pool.workers)
    (spare : app.conf.minWorker < app.total) (wkr : Wkr) :
    app.Handled config (app.without config worker wkr) worker := by
  obtain ⟨high, low⟩ := @without_ratios config app worker registered wkr
  refine ⟨(without_fewer registered wkr).1, ?_, high, .inl low, ?_, ?_⟩
  · unfold without
    rw [withPool_pool]
    exact Pool.unlist_freeWorkers _
  · unfold without
    rw [withPool_pool]
    exact @Pool.unlist_failed app.pool worker _
  · rw [without_total registered]
    exact (max_eq_left (Nat.le_sub_one_of_lt spare)).symm

theorem without_conf (wkr : Wkr) : (app.without config worker wkr).conf = app.conf ∧
    (app.without config worker wkr).pending = app.pending ∧
    (app.without config worker wkr).timeoutCounter = app.timeoutCounter ∧
    (app.without config worker wkr).forks = app.forks := by
  unfold without withPool
  split <;> exact ⟨rfl, rfl, rfl, rfl⟩

/-- With a balancing the death is handled exactly when all forks that are needed succeed. -/
theorem balance_handled (registered : worker ∈ app.pool.workers) (active : app.state = .active)
    (room : app.pending.length ≤ config.pending) (few : app.total ≤ app.conf.minWorker)
    (wkr : Wkr) :
    app.Handled config ((app.without config worker wkr).balance config fork) worker ↔
      app.Refills config fork := by
  have stays : (app.without config worker wkr).state = .active := (withPool_state _).trans active
  have some : 0 < app.total :=
    Nat.lt_of_lt_of_le (List.length_pos_of_mem registered) (Nat.le_add_left _ _)
  obtain ⟨conf, pending, counter, forks⟩ := @without_conf config app worker wkr
  have total := @without_total config app worker registered wkr
  have missing : (app.without config worker wkr).conf.minWorker -
      (app.without config worker wkr).total = app.conf.minWorker + 1 - app.total := by
    rw [conf, total]
    omega
  have bounds := @balanceLoop_total config fork (app.without config worker wkr)
    (app.conf.minWorker + 1 - app.total)
  rw [balance_active stays, missing]
  rw [total] at bounds
  constructor
  · intro handled
    have filled : (app.without config worker wkr).conf.minWorker ≤
        ((app.without config worker wkr).balanceLoop config fork
          (app.conf.minWorker + 1 - app.total)).total := by
      rw [handled.total, conf]
      exact le_max_right _ _
    obtain ⟨trials, fits, succeed⟩ := balanceLoop_forks (by rw [pending]; exact room)
      (by rw [conf, total]; omega) filled
    rw [counter] at trials
    rw [pending] at fits
    rw [forks] at succeed
    exact ⟨trials (by omega), fits, succeed⟩
  · rintro ⟨trials, fits, succeed⟩
    have filled := @balanceLoop_filled config fork _ _ missing
      (by rw [counter]; exact trials) (by rw [pending]; exact fits) (by rw [forks]; exact succeed)
    obtain ⟨same, pool, -⟩ := @balanceLoop_frame config fork (app.without config worker wkr)
      (app.conf.minWorker + 1 - app.total)
    rw [same, conf] at filled
    obtain ⟨high, low⟩ := @without_ratios config app worker registered wkr
    obtain ⟨high, low⟩ := @balanceLoop_ratios config fork _ (app.conf.minWorker + 1 - app.total)
      high low
    refine ⟨?_, ?_, high, low, ?_, ?_⟩
    · rw [pool]
      exact (without_fewer registered wkr).1
    · rw [pool]
      unfold without
      rw [withPool_pool]
      exact Pool.unlist_freeWorkers _
    · rw [pool]
      unfold without
      rw [withPool_pool]
      exact @Pool.unlist_failed app.pool worker _
    · rw [max_eq_right (by omega)]
      omega

/-! ### All ways together -/

/-- Where there is a worker to spare the balancing has nothing to do. -/
theorem dies_spare (active : app.state = .active) (registered : worker ∈ app.pool.workers)
    (spare : app.conf.minWorker < app.total) {sign : Sign}
    (noticed : app.Noticed config worker sign) :
    app.dies config fork worker sign = app.without config worker (app.dying worker sign) := by
  have stays : (app.without config worker (app.dying worker sign)).state = .active :=
    (withPool_state _).trans active
  have enough : (app.without config worker (app.dying worker sign)).conf.minWorker ≤
      (app.without config worker (app.dying worker sign)).total := by
    rw [without_total registered, (without_conf _).1]
    exact Nat.le_sub_one_of_lt spare
  rw [dies_eq active noticed]
  split
  · rfl
  · rw [balance_active stays, balanceLoop_enough _ enough]

/-- Who hangs up serves a request. -/
theorem hangup_occupied (steady : app.Steady config) (registered : worker ∈ app.pool.workers)
    (noticed : app.Noticed config worker .hangup) : app.Occupied worker := by
  have busy : worker ∉ app.pool.freeWorkers := by
    intro free
    have idle := (steady.pool.order.free_ready worker free).1
    rcases noticed.1 with active | pinging
    · exact nomatch active.symm.trans idle
    · exact nomatch pinging.symm.trans idle
  obtain ⟨req, serves⟩ := steady.pool.order.serves registered busy
  exact ⟨registered, by rw [serves.holds]; rfl⟩

theorem handledAlike_iff (steady : app.Steady config) (active : app.state = .active)
    (registered : worker ∈ app.pool.workers) :
    app.HandledAlike config fork worker ↔
      app.conf.minWorker < app.total ∨ ¬ app.Occupied worker ∧ app.Refills config fork := by
  have some : 0 < app.total :=
    Nat.lt_of_lt_of_le (List.length_pos_of_mem registered) (Nat.le_add_left _ _)
  constructor
  · intro alike
    rcases Nat.lt_or_ge app.conf.minWorker app.total with spare | few
    · exact .inl spare
    · right
      by_cases occupied : app.Occupied worker
      · have handled := (alike .dataError occupied).1
        rw [@dies_eq config fork app worker active .dataError occupied, if_pos rfl] at handled
        have total := handled.total
        rw [without_total registered] at total
        omega
      · have handled := (alike .ctlClosed trivial).1
        rw [@dies_eq config fork app worker active .ctlClosed trivial, if_neg nofun] at handled
        exact ⟨occupied, (balance_handled registered active steady.room few _).mp handled⟩
  · intro enough sign noticed
    by_cases spare : app.conf.minWorker < app.total
    · rw [dies_spare active registered spare noticed]
      refine ⟨without_handled registered spare _, fun other also => ?_⟩
      rw [dies_spare active registered spare also]
      exact without_alike _ _
    · obtain ⟨idle, refills⟩ := enough.resolve_left spare
      have few := Nat.not_lt.mp spare
      -- An idle worker is seen to die on its control socket or by a message.
      have known : ∀ {sign : Sign}, app.Noticed config worker sign →
          app.dies config fork worker sign =
            (app.without config worker
              { app.pool.wkr worker with state := .error }).balance config fork := by
        intro sign noticed
        rw [dies_eq active noticed]
        cases sign with
        | dataError => exact absurd noticed idle
        | ctlClosed => rfl
        | removed => rfl
        | hangup => exact absurd (hangup_occupied steady registered noticed) idle
      rw [known noticed]
      refine ⟨(balance_handled registered active steady.room few _).mpr refills, ?_⟩
      intro other also
      rw [known also]
      exact alike_refl _ worker

/-- In every state of a run, the death of a registered worker of an active application is handled,
and the same whichever way it is noticed, exactly when there is a worker to spare, or the worker is
idle and all forks that are needed succeed. -/
theorem death_handled_alike (config : Config) (fork : Nat → Int) (conf : Conf) (ctl : Option Nat)
    (input : Nat → Event) (count worker : Nat)
    (active : (Machine.after (App.step config fork) input (App.insert config fork conf ctl)
      count).state = .active)
    (registered : worker ∈ (Machine.after (App.step config fork) input
      (App.insert config fork conf ctl) count).pool.workers) :
    (Machine.after (App.step config fork) input
        (App.insert config fork conf ctl) count).HandledAlike config fork worker ↔
      (Machine.after (App.step config fork) input
          (App.insert config fork conf ctl) count).conf.minWorker <
        (Machine.after (App.step config fork) input
          (App.insert config fork conf ctl) count).total ∨
      ¬ (Machine.after (App.step config fork) input
          (App.insert config fork conf ctl) count).Occupied worker ∧
        (Machine.after (App.step config fork) input
          (App.insert config fork conf ctl) count).Refills config fork := by
  exact handledAlike_iff (steady_after fork conf ctl input count) active registered

/-- The only worker of an application registers and is given a request. -/
def busyInput : Nat → Event
  | 0 => .connect 100 ⟨true, true, true⟩
  | _ => .complete

def oneWorker : Conf := ⟨1, 2, ⟨⟨[], noNul_nil⟩, none, []⟩⟩

theorem death_handled_alike_idle :
    (Machine.after (App.step Config.init fun count => 100 + count) busyInput
      (App.insert Config.init (fun count => 100 + count) oneWorker none) 1).HandledAlike Config.init
        (fun count => 100 + count) 0 := by
  apply (death_handled_alike Config.init _ oneWorker none busyInput 1 0 (by decide +kernel)
    (by decide +kernel)).mpr
  right
  exact ⟨by decide +kernel, by decide +kernel, by decide +kernel, by decide +kernel⟩

/-- When the busy worker dies, an error on its data socket leaves the application without a
worker. -/
theorem death_unhandled :
    ¬ (Machine.after (App.step Config.init fun count => 100 + count) busyInput
      (App.insert Config.init (fun count => 100 + count) oneWorker none) 2).HandledAlike Config.init
        (fun count => 100 + count) 0 := by
  intro alike
  have handled := (alike .dataError (by decide +kernel :
    (Machine.after (App.step Config.init fun count => 100 + count) busyInput
      (App.insert Config.init (fun count => 100 + count) oneWorker none) 2).Occupied 0)).1
  exact absurd handled.total (by decide +kernel)

end App
