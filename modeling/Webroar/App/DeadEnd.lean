import Webroar.App.Supply

/-! # Does an application that is short of workers get new ones?

Several callbacks take a worker or a pending one away without balancing the application, a fork
that fails leaves no timer behind, and the time an application waits after its trials are used up
ends without a balancing. Where none of this strikes an application that has nothing else to rely
on, something is always left that starts a worker.
-/

namespace App

variable (config : Config) (fork : Nat → Int)

/-- The application can do without one of its workers, or balancing it starts another. -/
def Recovers (app : App) : Prop :=
  app.state = .restart ∨ app.conf.minWorker < app.total ∨
    0 < config.addTimeout ∧ app.supply.Attended config ∨
      app.timeoutCounter < config.addTrials ∧
        Supply.Forks config fork app.forks app.pending.length
          (app.conf.minWorker + 1 - app.total)

/-- So many workers, pending ones included, are enough, or the timer runs for one of those pending,
or the one for the load is left. -/
def Suffices (app : App) (conf : Conf) (pending workers : Nat) : Prop :=
  conf.minWorker ≤ pending + workers ∨ 0 < config.addTimeout ∧ pending ≠ 0 ∨
    app.tAdd.active = true ∧ pending + workers < conf.maxWorker ∧ pending < config.pending

/-- The workers that stay when a pending one is heard of: a reload lets the free ones go. -/
def staying (app : App) : Nat :=
  if app.state = .restart then app.pool.workers.length - app.pool.freeWorkers.length
  else app.pool.workers.length

/-- The configuration the application has then. -/
def upcoming (app : App) : Conf := if app.state = .restart then app.new.getD app.conf else app.conf

variable {config fork} {app : App}

/-- An application as it is kept between two callbacks. -/
structure Kept (config : Config) (app : App) : Prop where
  steady : app.Steady config
  sound : app.supply.Sound config

/-- With fewer workers an application is as attended as before. -/
theorem attended_lose {supply : Supply} {workers : Nat} (attended : supply.Attended config)
    (less : workers ≤ supply.workers) :
    { supply with workers := workers : Supply }.Attended config := by
  refine attended.imp_right fun loaded => ⟨loaded.1, ?_, loaded.2.2⟩
  exact Nat.lt_of_le_of_lt (Nat.add_le_add_left less _) loaded.2.1

theorem Recovers.balances (recovers : app.Recovers config fork) {workers : Nat}
    (lost : workers + 1 = app.pool.workers.length) :
    app.state = .restart ∨
      Balances config fork { app.supply with workers := workers } := by
  have counted : app.total = app.pending.length + workers + 1 := by
    rw [total, ← lost, Nat.add_assoc]
  rcases recovers with waits | many | ⟨due, attended⟩ | ⟨trials, forks⟩
  · exact .inl waits
  · rw [counted] at many
    exact .inr (.inl (Nat.le_of_lt_succ many))
  · exact .inr (.inr (.inl ⟨due,
      attended_lose attended (by change workers ≤ app.pool.workers.length; omega)⟩))
  · rw [counted, Nat.succ_sub_succ] at forks
    exact .inr (.inr (.inr ⟨trials, forks⟩))

/-- What suffices is enough or attended. -/
theorem Suffices.spec {conf : Conf} {pending workers : Nat}
    (suffices' : app.Suffices config conf pending workers) {supply : Supply}
    (sound : supply.Sound config) (least : supply.minWorker = conf.minWorker)
    (most : supply.maxWorker = conf.maxWorker) (length : supply.pending.length = pending)
    (registered : supply.workers = workers) (adds : supply.adds = app.tAdd.active)
    (trials : supply.counter < config.addTrials) :
    supply.minWorker ≤ supply.total ∨ supply.Attended config := by
  rcases suffices' with enough | ⟨due, some⟩ | ⟨load, few, room⟩
  · left
    rw [Supply.total, least, length, registered]
    exact enough
  · right
    apply sound.attended due
    intro empty
    rw [empty] at length
    exact some length.symm
  · right
    refine .inr ⟨adds.trans load, ?_, ?_, trials⟩
    · rw [Supply.total, most, length, registered]
      exact few
    · rw [length]
      exact room

theorem chkLoadToRemove_pool : app.chkLoadToRemove.pool = app.pool := by
  obtain ⟨timer, same⟩ := chkLoadToRemove_eq app
  rw [same]

/-- The trials are used up: nothing is pending, and the timer runs for the time to wait. -/
theorem killOldest_spent_supply (spent : app.timeoutCounter = (config.addTrials : Int)) :
    (app.killOldest config).supply =
      { app.supply with
        pending := []
        counter := short (app.timeoutCounter + 1)
        timer := { app.tAddTimeout with period := config.addWait }.again } := by
  rw [killOldest_spent spent]
  rfl

/-- The oldest pending worker is killed, and the timer runs on for the others. -/
theorem killOldest_left_supply (left : app.timeoutCounter ≠ (config.addTrials : Int)) :
    (app.killOldest config).supply =
      { app.supply with
        pending := app.pending.tail
        timer := if app.pending.tail = [] then app.tAddTimeout else app.tAddTimeout.again } := by
  rw [killOldest_left left]
  split <;> rfl

theorem killOldest_state : (app.killOldest config).state = app.state := by
  by_cases spent : app.timeoutCounter = (config.addTrials : Int)
  · exact congrArg Supply.state (killOldest_spent_supply spent)
  · exact congrArg Supply.state (killOldest_left_supply spent)

/-- What a callback keeps of an application that is not gone. -/
def Fine (config : Config) (app : App) : Prop :=
  app.state = .destroy ∨ app.supply.Sound config ∧ app.supply.NoDeadEnd config

end App
