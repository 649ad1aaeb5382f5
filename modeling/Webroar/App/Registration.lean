import Webroar.App.Forking

/-! # How a worker registers

A worker that announces itself is looked up among the pending ones. The application acts on its
arrival before the connection to it stands; only then is the worker put into the queue.
-/

namespace App

variable {config : Config} {fork : Nat → Int} {app : App} {pid : Nat}

/-- The application takes up a worker. -/
def Open (app : App) : Prop :=
  app.pool.workers.length < app.conf.maxWorker ∨ app.state = .restart

/-- The application after one of its pending workers was heard of. -/
def taken (config : Config) (app : App) (rest : List Int) : App :=
  { app with pending := rest }.heard config

/-- What the arrival of a pending worker sets off: the reload that was waiting for it, or the start
of the application. -/
def greet (config : Config) (app : App) : App :=
  match app.state, app.new with
  | .restart, some new => (app.reload config new).replyOk
  | .new, _ => { app.replyOk with state := .active }
  | _, _ => app

theorem wkrInsert_refused (room : app.pending.length ≤ config.pending)
    (refused : ¬ (app.Open ∧ (pid : Int) ∈ app.pending)) :
    app.wkrInsert config pid = (app, false) := by
  unfold wkrInsert
  split
  · next opened =>
      have absent : (pid : Int) ∉ app.pending := fun present => refused ⟨opened, present⟩
      rw [takePending_absent room absent]
  · rfl

theorem wkrInsert_taken (room : app.pending.length ≤ config.pending) (opened : app.Open)
    (present : (pid : Int) ∈ app.pending) :
    ∃ before rest, app.pending = before ++ (pid : Int) :: rest ∧ (pid : Int) ∉ before ∧
      app.wkrInsert config pid = ((app.taken config (rest ++ before)).greet config, true) := by
  obtain ⟨before, rest, split, absent, found⟩ := takePending_present room present
  refine ⟨before, rest, split, absent, ?_⟩
  rw [Open] at opened
  unfold wkrInsert
  rw [if_pos opened, found]
  dsimp only
  unfold taken
  generalize heard config { app with pending := rest ++ before } = after
  obtain ⟨pool, conf, new, state⟩ := after
  cases state <;> cases new <;> rfl

/-- The steps of connecting to the worker succeed. -/
def Connection.works (connection : Connection) : Bool := connection.connected && connection.nonblock

/-- The application with the worker in its queue. -/
def joined (config : Config) (app : App) (pool : Pool) : App :=
  { app with pool := pool, lowRatio := short (pool.workers.length * config.minReqRatio) }

@[simp] theorem joined_pending (pool : Pool) : (app.joined config pool).pending = app.pending := rfl

theorem connect_refused {connection : Connection} (room : app.pending.length ≤ config.pending)
    (refused : ¬ (connection.uds = true ∧ app.Open ∧ ((pid % 65536 : Nat) : Int) ∈ app.pending)) :
    app.connect config fork pid connection = (app, false) := by
  unfold connect
  split
  · next uds =>
      rw [wkrInsert_refused room fun both => refused ⟨uds, both⟩]
  · rfl

theorem connect_failed {connection : Connection} {after : App} (uds : connection.uds = true)
    (inserted : app.wkrInsert config (pid % 65536) = (after, true))
    (fails : connection.works = false ∨ after.pool.setRatio config pid = none) :
    app.connect config fork pid connection = (after.resetHighRatio config, false) := by
  unfold connect
  rw [if_pos uds, inserted]
  dsimp only
  rcases fails with broken | full
  · rw [← Connection.works, broken, if_neg Bool.false_ne_true]
  · rw [full]
    split <;> rfl

theorem connect_joined {connection : Connection} {after : App} {pool : Pool}
    (uds : connection.uds = true)
    (inserted : app.wkrInsert config (pid % 65536) = (after, true))
    (works : connection.works = true) (admitted : after.pool.setRatio config pid = some pool) :
    app.connect config fork pid connection =
      (((after.joined config pool).allocate config after.pool.nextWkr).balance config fork,
        true) := by
  unfold connect
  rw [if_pos uds, inserted]
  dsimp only
  rw [← Connection.works, works, if_pos rfl, admitted]
  rfl

/-- The three ways the attempt of a worker to register can end. -/
theorem connect_cases (fork : Nat → Int) (pid : Nat) (connection : Connection)
    (room : app.pending.length ≤ config.pending) :
    ¬ (connection.uds = true ∧ app.Open ∧ ((pid % 65536 : Nat) : Int) ∈ app.pending) ∧
        app.connect config fork pid connection = (app, false) ∨
      ∃ before rest, app.pending = before ++ ((pid % 65536 : Nat) : Int) :: rest ∧
        connection.uds = true ∧ app.Open ∧
        ((connection.works = false ∨
            ((app.taken config (rest ++ before)).greet config).pool.setRatio config pid = none) ∧
          app.connect config fork pid connection =
            (((app.taken config (rest ++ before)).greet config).resetHighRatio config, false) ∨
          connection.works = true ∧ ∃ pool,
            ((app.taken config (rest ++ before)).greet config).pool.setRatio config pid = some pool ∧
            app.connect config fork pid connection =
              (((((app.taken config (rest ++ before)).greet config).joined config pool).allocate
                config ((app.taken config (rest ++ before)).greet config).pool.nextWkr).balance
                  config fork, true)) := by
  by_cases accepted : connection.uds = true ∧ app.Open ∧ ((pid % 65536 : Nat) : Int) ∈ app.pending
  · obtain ⟨uds, opened, present⟩ := accepted
    obtain ⟨before, rest, split, -, inserted⟩ := wkrInsert_taken room opened present
    refine .inr ⟨before, rest, split, uds, opened, ?_⟩
    cases works : connection.works with
    | false => exact .inl ⟨.inl rfl, connect_failed uds inserted (.inl works)⟩
    | true =>
        cases admitted : ((app.taken config (rest ++ before)).greet config).pool.setRatio config pid with
        | none => exact .inl ⟨.inr rfl, connect_failed uds inserted (.inr admitted)⟩
        | some pool =>
            exact .inr ⟨rfl, pool, rfl, connect_joined uds inserted works admitted⟩
  · exact .inl ⟨accepted, connect_refused room accepted⟩

end App
