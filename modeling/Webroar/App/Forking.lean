import Webroar.App.Application

/-! # What forking and balancing do to an application

A worker is forked when there is room among the pending ones and the timeouts have not used up the
trials. Balancing repeats this until there are enough workers or no more can be added.
-/

namespace App

variable {config : Config} {fork : Nat → Int} {app : App}

/-- Nothing forbids to fork a worker. -/
def Able (config : Config) (app : App) : Prop :=
  app.pending.length < config.pending ∧ app.timeoutCounter < config.addTrials

/-- The timer of the pending workers after one was forked. -/
def watched (config : Config) (app : App) : Timer :=
  if 0 < config.addTimeout then app.tAddTimeout.again else app.tAddTimeout

/-- The application with one more pending worker. -/
def grown (config : Config) (app : App) (pid : Int) : App :=
  { app with
    forks := app.forks + 1
    pending := app.pending ++ [pid]
    highRatio := short ((app.total + 1 : Nat) * config.maxReqRatio)
    tAddTimeout := app.watched config }

/-- The application after a fork that failed. -/
def failed (app : App) : App := { app with forks := app.forks + 1 }

theorem wkrAdd_unable (unable : ¬ app.Able config) : app.wkrAdd config fork = (app, false) := by
  unfold wkrAdd
  split
  · next room =>
      have spent : (config.addTrials : Int) ≤ app.timeoutCounter := by
        by_contra less
        exact unable ⟨room, Int.not_le.mp less⟩
      exact if_pos spent
  · rfl

theorem wkrAdd_failed (able : app.Able config) (none : fork app.forks ≤ 0) :
    app.wkrAdd config fork = (app.failed, false) := by
  unfold wkrAdd
  rw [if_pos able.1, if_neg (Int.not_le.mpr able.2)]
  exact if_neg (Int.not_lt.mpr none)

theorem wkrAdd_forked (able : app.Able config) (some : 0 < fork app.forks) :
    app.wkrAdd config fork = (app.grown config (fork app.forks), true) := by
  have stored : queueInsert config.pending app.pending (fork app.forks) =
      .some (app.pending ++ [fork app.forks]) := if_pos able.1
  have counted : (app.pending ++ [fork app.forks]).length + app.pool.workers.length =
      app.total + 1 := by
    rw [List.length_append, List.length_singleton, total]
    exact Nat.add_right_comm _ _ _
  unfold wkrAdd
  rw [if_pos able.1, if_neg (Int.not_le.mpr able.2)]
  simp only [some, ↓reduceIte, insertPending, stored, resetHighRatio, total, counted, grown,
    watched]
  split <;> rfl

/-- The three ways an attempt to add a worker can end. -/
theorem wkrAdd_cases (config : Config) (fork : Nat → Int) (app : App) :
    ¬ app.Able config ∧ app.wkrAdd config fork = (app, false) ∨
      app.Able config ∧ fork app.forks ≤ 0 ∧ app.wkrAdd config fork = (app.failed, false) ∨
      app.Able config ∧ 0 < fork app.forks ∧
        app.wkrAdd config fork = (app.grown config (fork app.forks), true) := by
  by_cases able : app.Able config
  · rcases lt_or_ge 0 (fork app.forks) with some | none
    · exact .inr (.inr ⟨able, some, wkrAdd_forked able some⟩)
    · exact .inr (.inl ⟨able, none, wkrAdd_failed able none⟩)
  · exact .inl ⟨able, wkrAdd_unable able⟩

/-- What an attempt keeps in each of its three ways holds after it. -/
theorem wkrAdd_induct (Inv : App → Prop) (begins : Inv app)
    (fails : app.Able config → fork app.forks ≤ 0 → Inv app.failed)
    (grows : app.Able config → 0 < fork app.forks → Inv (app.grown config (fork app.forks))) :
    Inv (app.wkrAdd config fork).1 := by
  rcases wkrAdd_cases config fork app with ⟨-, same⟩ | ⟨able, none, same⟩ | ⟨able, some, same⟩
  · rw [same]
    exact begins
  · rw [same]
    exact fails able none
  · rw [same]
    exact grows able some

/-- One turn of the loop that added a worker. -/
def turned (config : Config) (app : App) (pid : Int) : App :=
  { app with
    forks := app.forks + 1
    pending := app.pending ++ [pid]
    highRatio := short ((app.total + 1 : Nat) * config.maxReqRatio)
    lowRatio := short ((app.total + 1 : Nat) * config.minReqRatio)
    tAddTimeout := app.watched config }

@[simp] theorem grown_total (pid : Int) : (app.grown config pid).total = app.total + 1 := by
  rw [total, grown, List.length_append, List.length_singleton]
  exact Nat.add_right_comm _ _ _

@[simp] theorem turned_total (pid : Int) : (app.turned config pid).total = app.total + 1 :=
  (congrArg (· + _) List.length_append).trans (Nat.add_right_comm _ _ _)

theorem balanceLoop_enough (turns : Nat) (enough : app.conf.minWorker ≤ app.total) :
    app.balanceLoop config fork turns = app := by
  cases turns with
  | zero => rfl
  | succ turns => exact if_neg (Nat.not_lt.mpr enough)

theorem balanceLoop_unable (turns : Nat) (unable : ¬ app.Able config) :
    app.balanceLoop config fork turns = app := by
  cases turns with
  | zero => rfl
  | succ turns =>
      rw [balanceLoop, wkrAdd_unable unable]
      split <;> rfl

theorem balanceLoop_failed (turns : Nat) (few : app.total < app.conf.minWorker)
    (able : app.Able config) (none : fork app.forks ≤ 0) :
    app.balanceLoop config fork (turns + 1) = app.failed := by
  rw [balanceLoop, if_pos few, wkrAdd_failed able none]

theorem balanceLoop_forked (turns : Nat) (few : app.total < app.conf.minWorker)
    (able : app.Able config) (some : 0 < fork app.forks) :
    app.balanceLoop config fork (turns + 1) =
      (app.turned config (fork app.forks)).balanceLoop config fork turns := by
  rw [balanceLoop, if_pos few, wkrAdd_forked able some]
  dsimp only
  rw [grown_total]
  rfl

/-- What each turn keeps holds after the loop. -/
theorem balanceLoop_induct (Inv : App → Prop) (turns : Nat) (begins : Inv app)
    (fails : ∀ app, Inv app → app.total < app.conf.minWorker → app.Able config →
      fork app.forks ≤ 0 → Inv app.failed)
    (grows : ∀ app, Inv app → app.total < app.conf.minWorker → app.Able config →
      0 < fork app.forks → Inv (app.turned config (fork app.forks))) :
    Inv (app.balanceLoop config fork turns) := by
  induction turns generalizing app with
  | zero => exact begins
  | succ turns ih =>
      rcases Nat.lt_or_ge app.total app.conf.minWorker with few | enough
      · by_cases able : app.Able config
        · rcases lt_or_ge 0 (fork app.forks) with some | none
          · rw [balanceLoop_forked turns few able some]
            exact ih (grows app begins few able some)
          · rw [balanceLoop_failed turns few able none]
            exact fails app begins few able none
        · rw [balanceLoop_unable _ able]
          exact begins
      · rw [balanceLoop_enough _ enough]
        exact begins

/-- Balancing also ends a reload that is not answered while there are enough workers. -/
theorem balance_eq (app : App) :
    let looped := app.balanceLoop config fork (app.conf.minWorker - app.total)
    app.balance config fork =
      if app.conf.minWorker ≤ app.pool.workers.length ∧ app.state = .restart then
        { looped with state := .active, new := none }
      else looped := by
  have same : ∀ turns, (app.balanceLoop config fork turns).conf = app.conf ∧
      (app.balanceLoop config fork turns).pool = app.pool ∧
      (app.balanceLoop config fork turns).state = app.state := fun turns =>
    balanceLoop_induct (fun after => after.conf = app.conf ∧ after.pool = app.pool ∧
        after.state = app.state) turns ⟨rfl, rfl, rfl⟩
      (fun _ kept _ _ _ => kept) (fun _ kept _ _ _ => kept)
  obtain ⟨conf, pool, state⟩ := same (app.conf.minWorker - app.total)
  intro looped
  change (if looped.conf.minWorker ≤ looped.pool.workers.length ∧ looped.state = .restart then
    { looped with state := .active, new := none } else looped) = _
  rw [conf, pool, state]

/-! ### Pending workers -/

/-- A process id that is not among the fetched ones is passed over. -/
theorem pendingExist_absent {pid : Int} {todo done : List Int}
    (room : todo.length + done.length ≤ config.pending) (absent : pid ∉ todo) :
    pendingExist config pid todo.length (todo ++ done) = (false, done ++ todo, false) := by
  induction todo generalizing done with
  | nil => rw [List.append_nil, List.nil_append]; rfl
  | cons first todo ih =>
      rw [List.length_cons] at room
      rw [List.mem_cons, not_or] at absent
      have stored : queueInsert config.pending (todo ++ done) first =
          some (todo ++ (done ++ [first])) := by
        rw [queueInsert, if_pos (by rw [List.length_append]; omega), List.append_assoc]
      have next : todo.length + (done ++ [first]).length ≤ config.pending := by
        rw [List.length_append, List.length_singleton]
        omega
      rw [List.length_cons, List.cons_append, pendingExist, if_neg (Ne.symm absent.1), stored]
      dsimp only
      rw [ih next absent.2, List.append_assoc, List.singleton_append]

/-- The first place of a process id is where the queue is cut. -/
theorem pendingExist_present {pid : Int} {before rest done : List Int} (more : Nat)
    (room : before.length + 1 + rest.length + done.length ≤ config.pending)
    (absent : pid ∉ before) :
    pendingExist config pid (before.length + (more + 1)) (before ++ pid :: rest ++ done) =
      (true, rest ++ done ++ before, false) := by
  induction before generalizing done with
  | nil =>
      rw [List.length_nil, Nat.zero_add, List.nil_append, List.append_nil, List.cons_append,
        pendingExist, if_pos rfl]
  | cons first before ih =>
      rw [List.length_cons] at room
      rw [List.mem_cons, not_or] at absent
      have fits : (before ++ pid :: rest ++ done).length < config.pending := by
        rw [List.length_append, List.length_append, List.length_cons]
        omega
      have stored : queueInsert config.pending (before ++ pid :: rest ++ done) first =
          some (before ++ pid :: rest ++ (done ++ [first])) := by
        rw [queueInsert, if_pos fits, List.append_assoc]
      have next : before.length + 1 + rest.length + (done ++ [first]).length ≤ config.pending := by
        rw [List.length_append, List.length_singleton]
        omega
      rw [List.length_cons, Nat.add_right_comm, List.cons_append, List.cons_append, pendingExist,
        if_neg (Ne.symm absent.1), stored]
      dsimp only
      rw [ih next absent.2]
      simp only [List.append_assoc, List.singleton_append]

theorem takePending_absent {pid : Int} (room : app.pending.length ≤ config.pending)
    (absent : pid ∉ app.pending) : app.takePending config pid = (app, false) := by
  have turned := @pendingExist_absent config pid app.pending [] room absent
  rw [List.append_nil, List.nil_append] at turned
  unfold takePending
  rw [turned]
  dsimp only
  rw [Bool.or_false]

/-- A pending worker that is found is taken out; those behind it come first now. -/
theorem takePending_present {pid : Int} (room : app.pending.length ≤ config.pending)
    (present : pid ∈ app.pending) :
    ∃ before rest, app.pending = before ++ pid :: rest ∧ pid ∉ before ∧
      app.takePending config pid = ({ app with pending := rest ++ before }, true) := by
  obtain ⟨before, rest, split, absent⟩ := List.eq_append_cons_of_mem present
  have length : app.pending.length = before.length + (rest.length + 1) := by
    rw [split, List.length_append, List.length_cons]
  have turned := @pendingExist_present config pid before rest [] rest.length
    (by rw [List.length_nil]; omega) absent
  rw [List.append_nil, List.append_nil, ← split, ← length] at turned
  refine ⟨before, rest, split, absent, ?_⟩
  unfold takePending
  rw [turned]
  dsimp only
  rw [Bool.or_false]

/-- When the trials are used up no pending worker is left and the timer runs for the time to
wait. -/
theorem killOldest_spent (spent : app.timeoutCounter = (config.addTrials : Int)) :
    app.killOldest config = (app.backOff config).killPending config true := by
  unfold killOldest
  rw [if_pos spent]
  exact if_pos rfl

theorem killOldest_left (left : app.timeoutCounter ≠ (config.addTrials : Int)) :
    app.killOldest config =
      if app.pending.tail = [] then app.killPending config true
      else { app.killPending config true with tAddTimeout := app.tAddTimeout.again } := by
  unfold killOldest
  rw [if_neg left]
  rfl

end App
