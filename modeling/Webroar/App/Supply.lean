import Webroar.App.Queueing

/-! # What an application has to start workers with

An application is short while it has fewer workers, pending ones included, than its configuration
asks for. Only a timer, or something that happens to one of the pending workers, makes it fork
more. Here is the part of an application that this depends on, and what the callbacks do to it.
-/

/-- The numbers and timers that decide whether workers are started. -/
structure Supply where
  state : AppState
  minWorker : Nat
  maxWorker : Nat
  workers : Nat
  pending : List Int
  counter : Int
  timer : Timer
  adds : Bool
  forks : Nat

/-- What the reader of the configuration accepts. -/
structure Config.Proper (config : Config) : Prop where
  pending : 0 < config.pending
  addTrials : 0 < config.addTrials
  addWait : 0 < config.addWait

namespace Supply

variable (config : Config) (fork : Nat → Int)

def total (supply : Supply) : Nat := supply.pending.length + supply.workers

/-- Nothing forbids to fork a worker. -/
def Able (supply : Supply) : Prop :=
  supply.pending.length < config.pending ∧ supply.counter < config.addTrials

/-- The timer of the pending workers runs, and there is one it runs for, or the application is
balanced when it expires. -/
def Timed (supply : Supply) : Prop :=
  supply.timer.active = true ∧
    (supply.pending ≠ [] ∨ (supply.state = .active ∨ supply.state = .restarting) ∧
      short (supply.counter + 1) ≤ config.addTrials)

/-- The timer for the load runs, and a worker is forked when it expires. -/
def Loaded (supply : Supply) : Prop :=
  supply.adds = true ∧ supply.total < supply.maxWorker ∧ supply.Able config

/-- Some event is left that starts a worker. -/
def Attended (supply : Supply) : Prop := supply.Timed config ∨ supply.Loaded config

/-- An application that is short of workers is attended. While a reload waits for its worker
nothing is asked. -/
def NoDeadEnd (supply : Supply) : Prop :=
  supply.total < supply.minWorker →
    supply.state = .new ∨ supply.state = .active ∨ supply.state = .restarting →
    supply.Attended config

instance (supply : Supply) : Decidable (supply.Able config) :=
  inferInstanceAs (Decidable (_ ∧ _))

instance (supply : Supply) : Decidable (supply.Timed config) :=
  inferInstanceAs (Decidable (_ ∧ _))

instance (supply : Supply) : Decidable (supply.Loaded config) :=
  inferInstanceAs (Decidable (_ ∧ _))

instance (supply : Supply) : Decidable (supply.Attended config) :=
  inferInstanceAs (Decidable (_ ∨ _))

instance (supply : Supply) : Decidable (supply.NoDeadEnd config) :=
  inferInstanceAs (Decidable (_ → _))

/-- Forking succeeds when `missing` workers are missing: for the first of them, when the timer
will run for it, otherwise for all. -/
def Forks (forks pending missing : Nat) : Prop :=
  pending < config.pending ∧ 0 < fork forks ∧
    (0 < config.addTimeout ∨
      pending + missing ≤ config.pending ∧ ∀ turn < missing, 0 < fork (forks + turn))

/-- The numbers and timers fit together. -/
structure Sound (supply : Supply) : Prop where
  room : supply.pending.length ≤ config.pending
  armed : 0 < config.addTimeout → supply.pending ≠ [] → supply.timer.active = true
  period : 0 < config.addTimeout → 0 < supply.timer.period
  idle : supply.timer.active = true → 0 < config.addTimeout
  spent : (config.addTrials : Int) ≤ supply.counter → supply.pending = []
  low : -32768 ≤ supply.counter
  high : supply.counter < 32768

variable {config fork}

/-- One pending worker more. -/
def grow (config : Config) (supply : Supply) (pid : Int) : Supply :=
  { supply with
    pending := supply.pending ++ [pid]
    timer := if 0 < config.addTimeout then supply.timer.again else supply.timer
    forks := supply.forks + 1 }

/-- A fork that failed. -/
def fail (supply : Supply) : Supply := { supply with forks := supply.forks + 1 }

theorem short_low (value : Int) : -32768 ≤ short value := by
  unfold short
  omega

theorem short_high (value : Int) : short value < 32768 := by
  unfold short
  omega

/-- A `short` that is counted up is the next number, but for the largest one. -/
theorem short_succ {value : Int} (low : -32768 ≤ value) (high : value < 32768) :
    short (value + 1) = value + 1 ∧ value < 32767 ∨
      short (value + 1) = -32768 ∧ value = 32767 := by
  unfold short
  omega

namespace Sound

variable {supply : Supply}

theorem grow (sound : supply.Sound config) (able : supply.Able config) (pid : Int) :
    (supply.grow config pid).Sound config where
  room := by
    rw [Supply.grow, List.length_append, List.length_singleton]
    exact able.1
  armed := by
    intro some _
    rw [Supply.grow, if_pos some, Timer.again]
    exact decide_eq_true (sound.period some)
  period := by
    intro some
    rw [Supply.grow, if_pos some]
    exact sound.period some
  idle := by
    intro active
    rw [Supply.grow] at active
    split at active
    · next some => exact some
    · exact sound.idle active
  spent := fun spent => absurd able.2 (Int.not_lt.mpr spent)
  low := sound.low
  high := sound.high

theorem fail (sound : supply.Sound config) : supply.fail.Sound config :=
  { sound with }

/-- The number of registered workers and the timer for the load do not matter. -/
theorem workers (sound : supply.Sound config) (state : AppState) (minWorker maxWorker workers : Nat)
    (adds : Bool) :
    { supply with
      state := state, minWorker := minWorker, maxWorker := maxWorker, workers := workers,
      adds := adds : Supply }.Sound config :=
  { sound with }

/-- A pending worker is gone and the count starts anew; without one the timer stops. -/
theorem take (sound : supply.Sound config) (proper : config.Proper) {rest : List Int}
    (less : rest.length ≤ supply.pending.length) (some : rest ≠ [] → supply.pending ≠ []) :
    { supply with
      pending := rest, counter := 0,
      timer := if rest = [] ∧ 0 < config.addTimeout then supply.timer.stop
        else supply.timer : Supply }.Sound config where
  room := less.trans sound.room
  armed := by
    intro due left
    dsimp only
    rw [if_neg fun both => left both.1]
    exact sound.armed due (some left)
  period := by
    intro due
    dsimp only
    split <;> exact sound.period due
  idle := by
    intro active
    dsimp only at active
    split at active
    · exact absurd active Bool.false_ne_true
    · exact sound.idle active
  spent := fun spent => absurd spent (Int.not_le.mpr (Int.natCast_pos.mpr proper.addTrials))
  low := (by decide : (-32768 : Int) ≤ 0)
  high := (by decide : (0 : Int) < 32768)

/-- The count starts anew. -/
theorem restart (sound : supply.Sound config) (proper : config.Proper) (state : AppState) :
    { supply with state := state, counter := 0 : Supply }.Sound config :=
  { sound with
    spent := fun spent => absurd spent (Int.not_le.mpr (Int.natCast_pos.mpr proper.addTrials))
    low := (by decide : (-32768 : Int) ≤ 0)
    high := (by decide : (0 : Int) < 32768) }

/-- A pending worker is attended as long as the timer is not disabled. -/
theorem attended (sound : supply.Sound config) (due : 0 < config.addTimeout)
    (some : supply.pending ≠ []) : supply.Attended config :=
  .inl ⟨sound.armed due some, .inl some⟩

end Sound

theorem NoDeadEnd.of_restart {supply : Supply} (state : supply.state = .restart) :
    supply.NoDeadEnd config := by
  intro _ listed
  rw [state] at listed
  rcases listed with wrong | wrong | wrong <;> cases wrong

end Supply

/-! ### How many workers are registered -/

namespace Wkr

variable {config : Config} {worker : Wkr}

/-- A worker whose trials are used up hangs up. -/
theorem waitCb_hangup (busy : worker.state = .active ∨ worker.state = .pinging)
    (spent : config.pingTrials ≤ worker.trialsDone) :
    worker.waitCb config =
      ({ worker with tWait := worker.tWait.stop, state := .hangup }, .freeAndBalance) := by
  obtain ⟨state, pid, trialsDone, tWait, req⟩ := worker
  rcases busy with same | same <;> cases same
  · exact if_neg (Nat.not_lt.mpr spent)
  · exact if_neg (Nat.not_lt.mpr spent)

/-- A timeout has a marked worker freed, and one that serves a request when its trials are used
up. -/
theorem waitCb_outcome (known : worker.state = .inactive ∨ worker.Busy) :
    (worker.waitCb config).2 = .stay ∨
      (worker.waitCb config).2 = .free ∧ worker.state = .expired ∨
      (worker.waitCb config).2 = .freeAndBalance ∧
        (worker.state = .active ∨ worker.state = .pinging) ∧
          config.pingTrials ≤ worker.trialsDone := by
  have timed : ∀ wkr : Wkr, (wkr.timeout config).2 = .stay ∨
      (wkr.timeout config).2 = .freeAndBalance ∧ config.pingTrials ≤ wkr.trialsDone := by
    intro wkr
    rw [timeout]
    split
    · exact .inl rfl
    · next spent => exact .inr ⟨rfl, Nat.not_lt.mp spent⟩
  obtain ⟨state, pid, trialsDone, tWait, req⟩ := worker
  rcases known with same | same | same | same <;> cases same
  · exact .inl rfl
  · rcases timed ⟨.active, pid, trialsDone, tWait.stop, req⟩ with stays | ⟨hangs, spent⟩
    · exact .inl stays
    · exact .inr (.inr ⟨hangs, .inl rfl, spent⟩)
  · rcases timed ⟨.pinging, pid, trialsDone, tWait.stop, req⟩ with stays | ⟨hangs, spent⟩
    · exact .inl stays
    · exact .inr (.inr ⟨hangs, .inr rfl, spent⟩)
  · exact .inr (.inl ⟨rfl, rfl⟩)

end Wkr

namespace Pool

variable {config : Config} {pool : Pool} {worker : Nat}

@[simp] theorem allocate_workers : (pool.allocate config worker).workers = pool.workers := by
  rw [allocate]
  split
  · rfl
  · rw [insertFree]
    split <;> rfl

/-- The registered workers after an action that asks for something. -/
def left (pool : Pool) (worker : Nat) : Next → List Nat
  | .stay | .allocate => pool.workers
  | .free | .freeAndBalance => pool.workers.erase worker

theorem stateMachine_workers (action : WkrAction) :
    (pool.stateMachine config worker action).workers =
      pool.left worker ((pool.wkr worker).stateMachine config action).2 := by
  unfold stateMachine
  dsimp only
  split
  · next outcome => rw [outcome]; rfl
  · next outcome => rw [outcome, allocate_workers]; rfl
  · next outcome => rw [outcome, wkrFree_workers]; rfl
  · next outcome => rw [outcome, wkrFree_workers]; rfl

theorem reqProcessed_workers :
    (pool.reqProcessed config worker).workers =
      pool.left worker (((pool.wkr worker).release config).stateMachine config .reqProcessed).2 := by
  unfold reqProcessed
  dsimp only
  rw [stateMachine_workers, setWkr_wkr]
  cases (pool.wkr worker).req <;> rfl

theorem waitCb_workers :
    (pool.waitCb config worker).workers =
      pool.left worker ((pool.wkr worker).waitCb config).2 := by
  unfold waitCb
  rw [stateMachine_workers, setWkr_wkr]
  rfl

theorem length_erase_add {registered : List Nat} (member : worker ∈ registered) :
    (registered.erase worker).length + 1 = registered.length := by
  have some := List.length_pos_of_mem member
  rw [List.length_erase_of_mem member]
  omega

@[simp] theorem complete_workers : (pool.complete config).workers = pool.workers := by
  unfold complete
  dsimp only
  split
  · rw [dispatch]
    split <;> rfl
  · rw [errResp_workers]
    rfl

/-- A reply to a ping does not have a worker of a sound pool freed. -/
theorem Sound.reply_stays (sound : pool.Sound config) (registered : worker ∈ pool.workers) :
    ((pool.wkr worker).stateMachine config .pingReplay).2 = .stay := by
  by_cases free : worker ∈ pool.freeWorkers
  · rw [Wkr.stateMachine_idle (sound.order.free_ready worker free).1 (.inl rfl)]
  · obtain ⟨req, serves⟩ := sound.order.serves registered free
    have stays : ∀ wkr : Wkr, wkr.Busy → (wkr.stateMachine config .pingReplay).2 = .stay := by
      rintro ⟨state, pid, trialsDone, tWait, holds⟩ busy
      rcases busy with same | same | same <;> cases same <;> rfl
    exact stays _ serves.state

theorem Sound.reply_workers (sound : pool.Sound config) (registered : worker ∈ pool.workers) :
    (pool.stateMachine config worker .pingReplay).workers = pool.workers := by
  rw [stateMachine_workers, sound.reply_stays registered]
  rfl

theorem removeWkr_workers (pid : Nat) :
    (pool.removeWkr pid).workers = pool.workers ∨
      ∃ worker ∈ pool.freeWorkers, (pool.removeWkr pid).workers = pool.workers.erase worker := by
  unfold removeWkr
  split
  · next worker found =>
      exact .inr ⟨worker, List.mem_of_find?_eq_some found, wkrFree_workers _ _⟩
  · split <;> exact .inl rfl

theorem length_freeIdle {idle : List Nat} (nodup : idle.Nodup)
    (registered : ∀ worker ∈ idle, worker ∈ pool.workers) :
    (idle.foldl (fun pool worker =>
        (pool.setWkr worker { pool.wkr worker with state := .error }).wkrFree worker)
      pool).workers.length + idle.length = pool.workers.length := by
  induction idle generalizing pool with
  | nil => rfl
  | cons worker idle ih =>
      rw [List.nodup_cons] at nodup
      have first := registered worker List.mem_cons_self
      have others : ∀ other ∈ idle, other ∈
          ((pool.setWkr worker { pool.wkr worker with state := .error }).wkrFree worker).workers := by
        intro other member
        have differs : other ≠ worker := fun same => nodup.1 (same ▸ member)
        rw [wkrFree_workers]
        exact (List.mem_erase_of_ne differs).mpr (registered other (List.mem_cons_of_mem _ member))
      have freed := ih nodup.2 others
      rw [wkrFree_workers] at freed
      change _ + idle.length = (pool.workers.erase worker).length at freed
      rw [List.foldl_cons, List.length_cons, ← length_erase_add first, ← freed]
      rfl

/-- A reload lets go of the workers that are free. -/
theorem Sound.length_reload (sound : pool.Sound config) :
    (pool.freeIdle.expireAll config).workers.length + pool.freeWorkers.length =
      pool.workers.length := by
  rw [expireAll_eq sound.order.freeIdle.1.workers_room]
  exact length_freeIdle sound.order.free_nodup sound.order.free_worker

theorem setRatio_isSome {pid : Nat} :
    (pool.setRatio config pid).isSome = true ↔ pool.workers.length < workerRoom config := by
  unfold setRatio queueInsert
  by_cases room : pool.workers.length < workerRoom config
  · simp only [room, ↓reduceIte, Option.isSome_some]
  · simp only [room, ↓reduceIte, Option.isSome_none, Bool.false_eq_true]

theorem setRatio_workers {pid : Nat} {after : Pool} (admitted : pool.setRatio config pid = some after) :
    after.workers.length = pool.workers.length + 1 := by
  unfold setRatio at admitted
  dsimp only at admitted
  split at admitted
  · next queue stored =>
      cases Option.some.inj admitted
      obtain ⟨-, same⟩ := Option.ite_none_right_eq_some.mp stored
      rw [stateMachine_workers, ← Option.some.inj same]
      simp only [setWkr_wkr]
      exact List.length_append
  · exact nomatch admitted

end Pool

namespace App

/-- What the application has to start workers with. -/
def supply (app : App) : Supply where
  state := app.state
  minWorker := app.conf.minWorker
  maxWorker := app.conf.maxWorker
  workers := app.pool.workers.length
  pending := app.pending
  counter := app.timeoutCounter
  timer := app.tAddTimeout
  adds := app.tAdd.active
  forks := app.forks

variable {config : Config} {fork : Nat → Int} {app : App}

theorem turned_supply (pid : Int) :
    (app.turned config pid).supply = app.supply.grow config pid := rfl

theorem failed_supply : app.failed.supply = app.supply.fail := rfl

theorem balanceLoop_frame (turns : Nat) :
    (app.balanceLoop config fork turns).conf = app.conf ∧
      (app.balanceLoop config fork turns).pool = app.pool ∧
      (app.balanceLoop config fork turns).state = app.state :=
  balanceLoop_induct
    (fun after => after.conf = app.conf ∧ after.pool = app.pool ∧ after.state = app.state) turns
    ⟨rfl, rfl, rfl⟩ (fun _ kept _ _ _ => kept) (fun _ kept _ _ _ => kept)

/-- When every fork succeeds the loop ends with enough workers. -/
theorem balanceLoop_filled {turns : Nat} (missing : app.conf.minWorker - app.total = turns)
    (trials : app.timeoutCounter < config.addTrials)
    (room : app.pending.length + turns ≤ config.pending)
    (forks : ∀ turn < turns, 0 < fork (app.forks + turn)) :
    (app.balanceLoop config fork turns).conf.minWorker ≤
      (app.balanceLoop config fork turns).total := by
  induction turns generalizing app with
  | zero => exact Nat.le_of_sub_eq_zero missing
  | succ turns ih =>
      have few : app.total < app.conf.minWorker := by omega
      have able : app.Able config := ⟨by omega, trials⟩
      rw [balanceLoop_forked turns few able (forks 0 (Nat.succ_pos turns))]
      apply ih
      · rw [turned_total]
        change app.conf.minWorker - (app.total + 1) = turns
        omega
      · exact trials
      · rw [turned, List.length_append, List.length_singleton]
        omega
      · intro turn less
        have next := forks (turn + 1) (Nat.succ_lt_succ less)
        rwa [Nat.add_comm turn 1, ← Nat.add_assoc] at next

/-- Balancing leaves no dead end where the application had enough workers or was attended, or where
the forks that are needed succeed. -/
def Balances (config : Config) (fork : Nat → Int) (supply : Supply) : Prop :=
  supply.minWorker ≤ supply.total ∨ 0 < config.addTimeout ∧ supply.Attended config ∨
    supply.counter < config.addTrials ∧
      Supply.Forks config fork supply.forks supply.pending.length
        (supply.minWorker - supply.total)

end App
