import Webroar.App.DeadEnd
import Webroar.App.Reload

/-! # Is a registration all or nothing?

The application acts on the arrival of a pending worker before the connection to it stands. So a
worker that cannot be connected to leaves traces: a reload that waits for it is carried out, a new
application starts, and the count of the timeouts begins anew.
-/

namespace Pool

variable {config : Config} {pool : Pool}

@[simp] theorem errResp_nextWkr (req : Nat) : (pool.errResp req).nextWkr = pool.nextWkr := by
  unfold errResp
  split
  · split <;> rfl
  · rfl

@[simp] theorem wkrFree_nextWkr (worker : Nat) : (pool.wkrFree worker).nextWkr = pool.nextWkr := by
  unfold wkrFree answerFailed
  dsimp only
  split
  · exact errResp_nextWkr _
  · rfl

@[simp] theorem freeIdle_nextWkr : pool.freeIdle.nextWkr = pool.nextWkr := by
  unfold freeIdle
  generalize pool.freeWorkers = idle
  induction idle generalizing pool with
  | nil => rfl
  | cons worker idle ih =>
      rw [List.foldl_cons, ih]
      exact wkrFree_nextWkr worker

theorem Sound.reload_nextWkr (sound : pool.Sound config) :
    (pool.freeIdle.expireAll config).nextWkr = pool.nextWkr := by
  rw [expireAll_eq sound.order.freeIdle.1.workers_room]
  exact freeIdle_nextWkr

end Pool

namespace App

variable {config : Config} {fork : Nat → Int} {app : App} {pid : Nat} {connection : Connection}

/-- A failed registration leaves the application as it is, except that the worker need not be
pending any more. -/
structure Untouched (pid : Nat) (app after : App) : Prop where
  conf : after.conf = app.conf
  new : after.new = app.new
  state : after.state = app.state
  timeoutCounter : after.timeoutCounter = app.timeoutCounter
  resolved : after.resolved = app.resolved
  pool : after.pool = app.pool
  ctl : after.ctl = app.ctl
  replies : after.replies = app.replies
  pending : after.pending = app.pending ∨
    after.pending.Perm (app.pending.erase ((pid % 65536 : Nat) : Int))

theorem Untouched.refl (pid : Nat) (app : App) : Untouched pid app app :=
  ⟨rfl, rfl, rfl, rfl, rfl, rfl, rfl, rfl, .inl rfl⟩

/-- The connection to the worker stands, and it finds room among those that stay. -/
def Connection.Completes (config : Config) (connection : Connection) (app : App) : Prop :=
  connection.works = true ∧ app.staying < Pool.workerRoom config

/-- Nothing is waiting for a worker to arrive. -/
def Calm (app : App) : Prop :=
  (app.state = .active ∨ app.state = .restarting) ∧ app.timeoutCounter = 0

theorem serving (live : app.state ≠ .destroy) (restart : app.state ≠ .restart)
    (new : app.state ≠ .new) : app.state = .active ∨ app.state = .restarting := by
  cases state : app.state with
  | active => exact .inl rfl
  | restarting => exact .inr rfl
  | new => exact absurd state new
  | restart => exact absurd state restart
  | destroy => exact absurd state live

/-- What is left of the pending workers when one of them was found. -/
theorem rotated (pid : Int) (before rest : List Int) :
    (rest ++ before).Perm ((before ++ pid :: rest).erase pid) := by
  have front : (before ++ pid :: rest).Perm (pid :: (before ++ rest)) := List.perm_middle
  have cut := front.erase pid
  rw [List.erase_cons_head] at cut
  exact List.perm_append_comm.trans cut.symm

@[simp] theorem allocate_pool_workers (worker : Nat) :
    (app.allocate config worker).pool.workers = app.pool.workers := by
  unfold allocate
  dsimp only
  rw [Pool.allocate_workers, chkLoadToRemove_pool]

/-! ### What the arrival of a worker does to the pool -/

theorem greet_pool (steady : app.Steady config) (marked : app.Marked) (live : app.state ≠ .destroy)
    (rest : List Int) :
    ((app.taken config rest).greet config).pool.workers.length = app.staying ∧
      ((app.taken config rest).greet config).pool.nextWkr = app.pool.nextWkr := by
  by_cases restart : app.state = .restart
  · obtain ⟨new, renewed⟩ := Option.isSome_iff_exists.mp ((marked live).mpr restart)
    have restarts : (app.taken config rest).state = .restart := restart
    have pool : ((app.taken config rest).reload config new).replyOk.pool =
        app.pool.freeIdle.expireAll config := withPool_pool _
    rw [greet_restart restarts renewed, pool, staying, if_pos restart]
    exact ⟨Nat.eq_sub_of_add_eq steady.pool.length_reload, steady.pool.reload_nextWkr⟩
  · rw [staying, if_neg restart]
    by_cases new : app.state = .new
    · have starts : (app.taken config rest).state = .new := new
      rw [greet_new starts]
      exact ⟨rfl, rfl⟩
    · have other : (app.taken config rest).greet config = app.taken config rest :=
        greet_other restart new
      rw [other]
      exact ⟨rfl, rfl⟩

end App

/-! ### The message of a worker -/

namespace Apps

variable (config : Config) (fork : Nat → Nat → Int)

/-- `WORKER ADD`, for the application its name leads to; one that was removed is not found. -/
def register (apps : Nat → Option App) (number pid : Nat) (connection : App.Connection) :
    (Nat → Option App) × Bool :=
  match apps number with
  | some app =>
      if app.state = .destroy then (apps, false)
      else
        let (after, taken) := app.connect config (fork number) pid connection
        (Function.update apps number (some after), taken)
  | none => (apps, false)

variable {config fork} {apps : Nat → Option App} {number pid : Nat} {connection : App.Connection}

theorem register_step :
    (register config fork apps number pid connection).1 =
      step config fork (.app number (.connect pid connection)) apps := by
  unfold register step
  dsimp only
  cases found : apps number with
  | none => rfl
  | some app =>
      have same : Function.update apps number (some app) = apps := by
        rw [← found, Function.update_eq_self]
      dsimp only
      unfold App.step
      split
      · exact same.symm
      · rfl

/-- The message is harmless: a worker that is accepted can be connected to and finds room, or
nothing was waiting for it. -/
def Harmless (config : Config) (apps : Nat → Option App) (number pid : Nat)
    (connection : App.Connection) : Prop :=
  ∀ app, apps number = some app → app.state ≠ .destroy → app.Accepts pid connection →
    connection.Completes config app ∨ app.Calm

end Apps
