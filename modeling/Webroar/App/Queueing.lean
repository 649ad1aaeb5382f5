import Webroar.App.Allocation
import Webroar.App.Registration
import Webroar.Library.Transition

/-! # The queues in every state of the head

Each callback leaves the pool of an application sound, and puts a worker among the pending ones
only where there is room. So the workers and requests of every application are in order between
any two callbacks, whatever happened before.
-/

namespace Pool

variable {config : Config} {pool : Pool}

/-- An error for one request leaves the others waiting. -/
theorem mem_errResp {req other : Nat} (member : req ∈ pool.messages)
    (differs : req ≠ other) : req ∈ (pool.errResp other).messages := by
  rw [Pool.errResp]
  split
  · split <;> exact member
  · exact (List.mem_erase_of_ne differs).mpr member

namespace Sound

/-- The workers of a list are freed one after the other. -/
theorem foldl_wkrFree {workers : List Nat} (sound : pool.Sound config) (nodup : workers.Nodup)
    (registered : ∀ worker ∈ workers, worker ∈ pool.workers) :
    (workers.foldl Pool.wkrFree pool).Sound config := by
  induction workers generalizing pool with
  | nil => exact sound
  | cons worker workers ih =>
      rw [List.nodup_cons] at nodup
      have freed := sound.wkrFree (registered worker List.mem_cons_self)
        (rfl : (pool.wkr worker).req = _)
      rw [Pool.setWkr, Function.update_eq_self] at freed
      apply ih freed nodup.2
      intro other member
      rw [wkrFree_workers]
      have differs : other ≠ worker := fun same => nodup.1 (same ▸ member)
      exact (List.mem_erase_of_ne differs).mpr (registered other (List.mem_cons_of_mem _ member))

/-- The requests of a list are answered one after the other. -/
theorem foldl_errResp {messages : List Nat} (sound : pool.Sound config) (nodup : messages.Nodup)
    (waiting : ∀ req ∈ messages, req ∈ pool.messages) :
    (messages.foldl Pool.errResp pool).Sound config := by
  induction messages generalizing pool with
  | nil => exact sound
  | cons req messages ih =>
      rw [List.nodup_cons] at nodup
      have live := (sound.order.waiting req (waiting req List.mem_cons_self)).2
      apply ih (sound.errResp live) nodup.2
      intro other member
      have differs : other ≠ req := fun same => nodup.1 (same ▸ member)
      exact mem_errResp (waiting other (List.mem_cons_of_mem _ member)) differs

/-- The pool of an application that is freed. -/
theorem free (sound : pool.Sound config) : pool.free.Sound config := by
  have emptied := sound.foldl_wkrFree sound.order.workers_nodup fun _ member => member
  have nodup := (List.nodup_append.mp emptied.order.messages_nodup).2.1
  exact emptied.foldl_errResp nodup fun _ member => member

theorem reply {worker : Nat} (sound : pool.Sound config) (registered : worker ∈ pool.workers) :
    (pool.stateMachine config worker .pingReplay).Sound config :=
  sound.act registered (.inr (.inl rfl))

/-- A worker that has a request serves it. -/
theorem occupied {worker : Nat} (sound : pool.Sound config) (registered : worker ∈ pool.workers)
    (some : (pool.wkr worker).req.isSome = true) : ∃ req, pool.Serves worker req := by
  apply sound.order.serves registered
  intro free
  rw [(sound.order.free_ready worker free).2] at some
  exact Bool.false_ne_true some

/-- A registered worker is idle, or it serves a request. -/
theorem idle_or_busy {worker : Nat} (sound : pool.Sound config)
    (registered : worker ∈ pool.workers) :
    (pool.wkr worker).state = .inactive ∨ (pool.wkr worker).Busy := by
  by_cases free : worker ∈ pool.freeWorkers
  · exact .inl (sound.order.free_ready worker free).1
  · obtain ⟨req, serves⟩ := sound.order.serves registered free
    exact .inr serves.state

end Sound

end Pool

namespace App

variable {config : Config} {fork : Nat → Int} {app : App}

/-- An application between two callbacks. -/
structure Steady (config : Config) (app : App) : Prop where
  pool : app.pool.Sound config
  room : app.pending.length ≤ config.pending
  lost : app.lost = false

@[simp] theorem withPool_pool (pool : Pool) : (app.withPool config pool).pool = pool := by
  rw [withPool]
  split <;> rfl

@[simp] theorem withPool_pending (pool : Pool) :
    (app.withPool config pool).pending = app.pending := by
  rw [withPool]
  split <;> rfl

@[simp] theorem withPool_lost (pool : Pool) : (app.withPool config pool).lost = app.lost := by
  rw [withPool]
  split <;> rfl

/-- Looking at the load touches nothing but a timer. -/
theorem chkLoadToAdd_eq (app : App) (messages : Nat) :
    ∃ timer, app.chkLoadToAdd messages = { app with tAdd := timer } := by
  rw [chkLoadToAdd]
  split
  · split
    · split
      · exact ⟨app.tAdd, rfl⟩
      · exact ⟨_, rfl⟩
    · exact ⟨_, rfl⟩
  · exact ⟨app.tAdd, rfl⟩

theorem chkLoadToRemove_eq (app : App) :
    ∃ timer, app.chkLoadToRemove = { app with tRemove := timer } := by
  rw [chkLoadToRemove]
  split
  · split
    · split
      · exact ⟨app.tRemove, rfl⟩
      · exact ⟨_, rfl⟩
    · exact ⟨_, rfl⟩
  · exact ⟨app.tRemove, rfl⟩

namespace Steady

theorem withPool (steady : app.Steady config) {pool : Pool} (sound : pool.Sound config) :
    (app.withPool config pool).Steady config where
  pool := by rwa [withPool_pool]
  room := by rw [withPool_pending]; exact steady.room
  lost := by rw [withPool_lost]; exact steady.lost

theorem grown (steady : app.Steady config) (able : app.Able config) (pid : Int) :
    (app.grown config pid).Steady config := by
  refine ⟨steady.pool, ?_, steady.lost⟩
  rw [App.grown, List.length_append, List.length_singleton]
  exact able.1

theorem wkrAdd (steady : app.Steady config) : (app.wkrAdd config fork).1.Steady config := by
  apply wkrAdd_induct (·.Steady config) steady
  · intro _ _
    exact ⟨steady.pool, steady.room, steady.lost⟩
  · intro able _
    exact steady.grown able _

theorem balanceLoop (steady : app.Steady config) (turns : Nat) :
    (app.balanceLoop config fork turns).Steady config := by
  apply balanceLoop_induct (·.Steady config) turns steady
  · intro after kept _ _ _
    exact ⟨kept.pool, kept.room, kept.lost⟩
  · intro after kept _ able _
    have grown := kept.grown able (fork after.forks)
    exact ⟨grown.pool, grown.room, grown.lost⟩

theorem balance (steady : app.Steady config) : (app.balance config fork).Steady config := by
  have looped := @balanceLoop config fork app steady (app.conf.minWorker - app.total)
  rw [balance_eq]
  split <;> exact ⟨looped.pool, looped.room, looped.lost⟩

theorem killPending (steady : app.Steady config) (single : Bool) :
    (app.killPending config single).Steady config := by
  refine ⟨steady.pool, ?_, steady.lost⟩
  change (if single = true then app.pending.tail else []).length ≤ config.pending
  have less := List.length_tail (l := app.pending)
  have room := steady.room
  split
  · omega
  · exact Nat.zero_le _

theorem takePending (steady : app.Steady config) (pid : Int) :
    (app.takePending config pid).1.Steady config := by
  by_cases present : pid ∈ app.pending
  · obtain ⟨before, rest, split, -, taken⟩ := takePending_present steady.room present
    have room := steady.room
    rw [split, List.length_append, List.length_cons] at room
    rw [taken]
    refine ⟨steady.pool, ?_, steady.lost⟩
    rw [List.length_append]
    omega
  · rw [takePending_absent steady.room present]
    exact steady

theorem heard (steady : app.Steady config) : (app.heard config).Steady config :=
  ⟨steady.pool, steady.room, steady.lost⟩

theorem addErrorMsg (steady : app.Steady config) : app.addErrorMsg.Steady config :=
  ⟨steady.pool, steady.room, steady.lost⟩

theorem rollBack (steady : app.Steady config) : app.rollBack.Steady config :=
  ⟨steady.pool, steady.room, steady.lost⟩

theorem remove (steady : app.Steady config) : (app.remove config).Steady config :=
  ⟨steady.pool.free, steady.room, steady.lost⟩

theorem addCb (steady : app.Steady config) : (app.addCb config fork).Steady config := by
  have stopped : ({ app with tAdd := app.tAdd.stop } : App).Steady config :=
    ⟨steady.pool, steady.room, steady.lost⟩
  rw [App.addCb]
  dsimp only
  split
  · exact stopped.wkrAdd
  · exact stopped

theorem backOff (steady : app.Steady config) : (app.backOff config).Steady config :=
  ⟨steady.pool, Nat.zero_le _, steady.lost⟩

theorem killOldest (steady : app.Steady config) : (app.killOldest config).Steady config := by
  by_cases spent : app.timeoutCounter = (config.addTrials : Int)
  · rw [killOldest_spent spent]
    exact steady.backOff.killPending true
  · have killed := steady.killPending true
    rw [killOldest_left spent]
    split
    · exact killed
    · exact ⟨killed.pool, killed.room, killed.lost⟩

theorem addTimeoutCb (steady : app.Steady config) :
    (app.addTimeoutCb config fork).Steady config := by
  have expired : ({ app with
      tAddTimeout := app.tAddTimeout.stop
      timeoutCounter := short (app.timeoutCounter + 1) } : App).Steady config :=
    ⟨steady.pool, steady.room, steady.lost⟩
  rw [App.addTimeoutCb]
  dsimp only
  split
  · exact ⟨steady.pool, steady.room, steady.lost⟩
  · have killed := expired.killOldest
    split
    · exact killed.rollBack
    · split
      · exact killed.addErrorMsg.remove
      · exact killed
    · exact killed.balance

theorem removeTimerCb (steady : app.Steady config) (reported : Option Nat) :
    (app.removeTimerCb config reported).Steady config := by
  have stopped : ({ app with tRemove := app.tRemove.stop } : App).Steady config :=
    ⟨steady.pool, steady.room, steady.lost⟩
  have again : ∀ {after : App} (due : Prop) [Decidable due], after.Steady config →
      (if due then { after with tRemove := after.tRemove.again } else after).Steady config := by
    intro after due _ kept
    split
    · exact ⟨kept.pool, kept.room, kept.lost⟩
    · exact kept
  unfold App.removeTimerCb
  dsimp only
  by_cases many : app.conf.minWorker < app.pool.workers.length
  · rw [if_pos many]
    cases reported with
    | none => exact again _ stopped
    | some pid => exact again _ (stopped.withPool (steady.pool.removeWkr pid))
  · rw [if_neg many]
    exact again _ stopped

theorem complete (steady : app.Steady config) : (app.complete config).Steady config := by
  unfold App.complete
  dsimp only
  split
  · obtain ⟨timer, same⟩ := chkLoadToAdd_eq app (app.pool.messages.length + 1)
    rw [same]
    exact ⟨steady.pool.complete, steady.room, steady.lost⟩
  · exact ⟨steady.pool.complete, steady.room, steady.lost⟩

theorem reqProcessed {worker : Nat} (steady : app.Steady config)
    (occupied : app.Occupied worker) : (app.reqProcessed config worker).Steady config := by
  obtain ⟨req, serves⟩ := steady.pool.occupied occupied.1 occupied.2
  have sound := steady.pool.reqProcessed occupied.1 serves
  unfold App.reqProcessed
  dsimp only
  split
  · obtain ⟨timer, same⟩ := chkLoadToRemove_eq app
    rw [same]
    have looked : ({ app with tRemove := timer } : App).Steady config :=
      ⟨steady.pool, steady.room, steady.lost⟩
    exact looked.withPool sound
  · exact steady.withPool sound

theorem waitStart {worker : Nat} (steady : app.Steady config) (occupied : app.Occupied worker) :
    ({ app with pool := app.pool.waitStart config worker } : App).Steady config := by
  obtain ⟨req, serves⟩ := steady.pool.occupied occupied.1 occupied.2
  exact ⟨steady.pool.waitStart serves, steady.room, steady.lost⟩

theorem dataError {worker : Nat} (steady : app.Steady config)
    (registered : worker ∈ app.pool.workers) : (app.dataError config worker).Steady config :=
  steady.withPool (steady.pool.act registered (.inl (.inl rfl)))

theorem balanceIf (steady : app.Steady config) (due : Prop) [Decidable due] :
    (if due then app.balance config fork else app).Steady config := by
  split
  · exact steady.balance
  · exact steady

theorem ctlFree {worker : Nat} (steady : app.Steady config)
    (registered : worker ∈ app.pool.workers) : (app.ctlFree config fork worker).Steady config := by
  have sound := steady.pool.wkrFree registered
    (rfl : ({ app.pool.wkr worker with state := .error } : Wkr).req = _)
  exact (steady.withPool sound).balanceIf _

theorem removeCb {worker : Nat} (steady : app.Steady config)
    (registered : worker ∈ app.pool.workers) : (app.removeCb config fork worker).Steady config :=
  (steady.withPool (steady.pool.act registered (.inl (.inr rfl)))).balanceIf _

theorem waitCb {worker : Nat} (steady : app.Steady config)
    (registered : worker ∈ app.pool.workers) : (app.waitCb config fork worker).Steady config :=
  (steady.withPool (steady.pool.waitCb registered)).balanceIf _

theorem reload (steady : app.Steady config) (new : Conf) : (app.reload config new).Steady config := by
  have renewed : ({ app with conf := new, new := none, resolved := new } : App).Steady config :=
    ⟨steady.pool, steady.room, steady.lost⟩
  have expired := renewed.withPool steady.pool.reload
  exact ⟨expired.pool, expired.room, expired.lost⟩

theorem taken (steady : app.Steady config) {rest : List Int}
    (less : rest.length ≤ app.pending.length) : (app.taken config rest).Steady config :=
  ⟨steady.pool, less.trans steady.room, steady.lost⟩

theorem resetHighRatio (steady : app.Steady config) : (app.resetHighRatio config).Steady config :=
  ⟨steady.pool, steady.room, steady.lost⟩

theorem greet (steady : app.Steady config) : (app.greet config).Steady config := by
  rw [App.greet]
  split
  · next new _ _ =>
      have reloaded := steady.reload new
      exact ⟨reloaded.pool, reloaded.room, reloaded.lost⟩
  · exact ⟨steady.pool, steady.room, steady.lost⟩
  · exact steady

theorem allocate {worker : Nat} (room : app.pending.length ≤ config.pending)
    (lost : app.lost = false) (sound : (app.pool.allocate config worker).Sound config) :
    (app.allocate config worker).Steady config := by
  obtain ⟨timer, same⟩ := chkLoadToRemove_eq app
  unfold App.allocate
  rw [same]
  exact ⟨sound, room, lost⟩

/-- The worker that was put into the queue is given the oldest request or is free. -/
theorem joined (steady : app.Steady config) {pid : Nat} {pool : Pool}
    (admitted : app.pool.setRatio config pid = some pool) :
    ((app.joined config pool).allocate config app.pool.nextWkr).Steady config := by
  apply allocate
  · rw [joined_pending]
    exact steady.room
  · exact steady.lost
  · exact steady.pool.setRatio admitted

theorem connect (steady : app.Steady config) (pid : Nat) (connection : Connection) :
    (app.connect config fork pid connection).1.Steady config := by
  rcases connect_cases fork pid connection steady.room with
    ⟨-, same⟩ | ⟨before, rest, split, -, -, ⟨-, same⟩ | ⟨-, pool, admitted, same⟩⟩
  · rw [same]
    exact steady
  all_goals
    have less : (rest ++ before).length ≤ app.pending.length := by
      rw [split, List.length_append, List.length_append, List.length_cons]
      omega
    have greeted := (steady.taken less).greet
  · rw [same]
    exact greeted.resetHighRatio
  · rw [same]
    exact (greeted.joined admitted).balance

theorem wkrError (steady : app.Steady config) (pid : Int) :
    (app.wkrError config pid).Steady config := by
  rw [App.wkrError]
  split
  · exact steady.rollBack
  · exact steady.addErrorMsg.remove
  · exact (steady.takePending pid).heard

theorem reloadCb (steady : app.Steady config) (ctl : Nat) (read : Option Conf) :
    (app.reloadCb config fork ctl read).Steady config := by
  cases read with
  | none => exact ⟨steady.pool, steady.room, steady.lost⟩
  | some new =>
      apply wkrAdd
      exact ⟨steady.pool, Nat.zero_le _, steady.lost⟩

/-- Every callback leaves a steady application steady. -/
theorem step (steady : app.Steady config) (event : Event) :
    (app.step config fork event).Steady config := by
  unfold App.step
  split
  · exact steady
  · cases event with
    | complete => exact steady.complete
    | clientError req =>
        dsimp only
        split
        · next live => exact ⟨steady.pool.errResp live, steady.room, steady.lost⟩
        · exact steady
    | sent worker | part worker =>
        dsimp only
        split
        · next occupied => exact steady.waitStart occupied
        · exact steady
    | processed worker =>
        dsimp only
        split
        · next occupied => exact steady.reqProcessed occupied
        · exact steady
    | dataError worker =>
        dsimp only
        split
        · next occupied => exact steady.dataError occupied.1
        · exact steady
    | ctlFree worker =>
        dsimp only
        split
        · next registered => exact steady.ctlFree registered
        · exact steady
    | removeCb worker =>
        dsimp only
        split
        · next registered => exact steady.removeCb registered
        · exact steady
    | timeout worker =>
        dsimp only
        split
        · next due => exact steady.waitCb due.1
        · exact steady
    | reply worker =>
        dsimp only
        split
        · next registered => exact ⟨steady.pool.reply registered, steady.room, steady.lost⟩
        · exact steady
    | connect pid connection => exact steady.connect pid connection
    | wkrError pid => exact steady.wkrError pid
    | reload ctl read => exact steady.reloadCb ctl read
    | addAgain ctl => exact ⟨steady.pool, steady.room, steady.lost⟩
    | remove ctl => exact ⟨steady.pool.free, steady.room, steady.lost⟩
    | ctlClosed ctl => exact ⟨steady.pool, steady.room, steady.lost⟩
    | addTimeout =>
        dsimp only
        split
        · exact steady.addTimeoutCb
        · exact steady
    | addTimer =>
        dsimp only
        split
        · exact steady.addCb
        · exact steady
    | removeTimer reported =>
        dsimp only
        split
        · exact steady.removeTimerCb reported
        · exact steady

theorem created (conf : Conf) (ctl : Option Nat) : (created config conf ctl).Steady config :=
  ⟨.empty, Nat.zero_le _, rfl⟩

theorem insert (conf : Conf) (ctl : Option Nat) :
    (App.insert config fork conf ctl).Steady config := (Steady.created conf ctl).balance

end Steady

/-- An application is steady in every state of a run. -/
theorem steady_after (fork : Nat → Int) (conf : Conf) (ctl : Option Nat) (input : Nat → Event)
    (count : Nat) :
    (Machine.after (App.step config fork) input (App.insert config fork conf ctl)
      count).Steady config := by
  induction count with
  | zero => exact .insert conf ctl
  | succ count ih => exact ih.step (input count)

end App

/-! ### All applications of the head -/

/-- The head inserts an application, or one of its applications has a callback. -/
inductive AppsEvent where
  | insert (number : Nat) (conf : Conf) (ctl : Option Nat)
  | app (number : Nat) (event : Event)

namespace Apps

variable (config : Config) (fork : Nat → Nat → Int)

/-- The applications are objects known by number; an inserted one takes a number that no other
had. -/
def step (event : AppsEvent) (apps : Nat → Option App) : Nat → Option App :=
  match event with
  | .insert number conf ctl =>
      match apps number with
      | none =>
          Function.update apps number (some (App.insert config (fork number) conf ctl))
      | some _ => apps
  | .app number event =>
      match apps number with
      | none => apps
      | some app => Function.update apps number (some (app.step config (fork number) event))

variable {config fork}

/-- All applications are between two callbacks. -/
def Steady (config : Config) (apps : Nat → Option App) : Prop :=
  ∀ number app, apps number = some app → app.Steady config

/-- What holds of an inserted application and is kept by every callback holds of all applications
at all times. -/
theorem each (Inv : Nat → App → Prop)
    (inserted : ∀ number conf ctl, Inv number (App.insert config (fork number) conf ctl))
    (kept : ∀ number app event, Inv number app → Inv number (app.step config (fork number) event))
    (input : Nat → AppsEvent) (count number : Nat) (app : App)
    (found : Machine.after (step config fork) input (fun _ => none) count number = some app) :
    Inv number app := by
  have update : ∀ {apps : Nat → Option App} {app : App} (number : Nat),
      (∀ other app, apps other = some app → Inv other app) → Inv number app →
      ∀ other found, Function.update apps number (some app) other = some found →
        Inv other found := by
    intro apps app number holds new other found member
    by_cases same : other = number
    · subst same
      rw [Function.update_self] at member
      exact Option.some.inj member ▸ new
    · rw [Function.update_of_ne same] at member
      exact holds other found member
  have begins : ∀ number app, (fun _ : Nat => (none : Option App)) number = some app →
      Inv number app := fun _ _ absent => nomatch absent
  refine Machine.invariant (fun apps : Nat → Option App =>
    ∀ number app, apps number = some app → Inv number app) begins ?_ count number app found
  intro count apps holds
  cases input count with
  | insert number conf ctl =>
      rw [Apps.step]
      cases apps number with
      | none => exact update number holds (inserted number conf ctl)
      | some => exact holds
  | app number event =>
      rw [Apps.step]
      cases found : apps number with
      | none => exact holds
      | some app => exact update number holds (kept number app event (holds number app found))

/-- Whatever happens to the applications, they are steady between two callbacks. -/
theorem steady_after (input : Nat → AppsEvent) (count : Nat) :
    Steady config (Machine.after (step config fork) input (fun _ => none) count) :=
  each (fun _ app => app.Steady config) (fun _ conf ctl => .insert conf ctl)
    (fun _ _ event steady => steady.step event) input count

end Apps

/-! ### Workers and requests -/

/-- The workers of an application and the requests they serve are in order. -/
structure Pool.InOrder (pool : Pool) : Prop where
  free_nodup : pool.freeWorkers.Nodup
  free_sublist : pool.freeWorkers.Subperm pool.workers
  free_idle : ∀ worker ∈ pool.freeWorkers,
    (pool.wkr worker).state = .inactive ∧ (pool.wkr worker).req = none
  busy : ∀ worker ∈ pool.workers,
    (pool.wkr worker).state = .active ∨ (pool.wkr worker).state = .pinging →
    ∃ req, (pool.wkr worker).req = some req ∧
      ∀ other, (pool.req other).live = true ∧ (pool.req other).wkr = some worker ↔ other = req
  not_both : ∀ req ∈ pool.messages, ∀ worker ∈ pool.workers, (pool.wkr worker).req ≠ some req
  one_owner : ∀ worker ∈ pool.workers, ∀ other ∈ pool.workers, ∀ req,
    (pool.wkr worker).req = some req → (pool.wkr other).req = some req → worker = other

namespace Pool.Sound

variable {config : Config} {pool : Pool}

/-- Who has a request serves it. -/
theorem serves_of_holds {worker req : Nat} (sound : pool.Sound config)
    (registered : worker ∈ pool.workers) (holds : (pool.wkr worker).req = some req) :
    pool.Serves worker req := by
  obtain ⟨other, serves⟩ := sound.occupied registered (by rw [holds]; rfl)
  rwa [Option.some.inj (holds.symm.trans serves.holds)]

theorem inOrder (sound : pool.Sound config) : pool.InOrder where
  free_nodup := sound.order.free_nodup
  free_sublist := sound.order.free_nodup.subperm sound.order.free_worker
  free_idle := sound.order.free_ready
  busy := by
    intro worker registered state
    have occupied : worker ∉ pool.freeWorkers := by
      intro free
      have idle := (sound.order.free_ready worker free).1
      rcases state with active | pinging
      · exact nomatch active.symm.trans idle
      · exact nomatch pinging.symm.trans idle
    obtain ⟨req, serves⟩ := sound.order.serves registered occupied
    refine ⟨req, serves.holds, fun other => ⟨?_, ?_⟩⟩
    · rintro ⟨live, back⟩
      rcases sound.order.live_known other live with waits | ⟨owner, listed, holds⟩
      · exact nomatch back.symm.trans (sound.order.waiting other waits).1
      · have owned := sound.serves_of_holds listed holds
        cases Option.some.inj (back.symm.trans owned.back)
        exact Order.serves_req owned serves
    · rintro rfl
      exact ⟨serves.live, serves.back⟩
  not_both := by
    intro req waits worker registered holds
    have serves := sound.serves_of_holds registered holds
    exact nomatch serves.back.symm.trans (sound.order.waiting req waits).1
  one_owner := by
    intro worker registered other listed req holds also
    exact Order.serves_unique (sound.serves_of_holds registered holds)
      (sound.serves_of_holds listed also)

end Pool.Sound

namespace Apps

variable {config : Config} {fork : Nat → Nat → Int}

/-- In every state of the head the workers of each application and the requests they serve are in
order, and no insertion whose result the code ignores has failed. -/
theorem workers_in_order (input : Nat → AppsEvent) (count number : Nat) (app : App)
    (found : Machine.after (step config fork) input (fun _ => none) count number = some app) :
    app.pool.InOrder ∧ app.pool.lost = false ∧ app.lost = false := by
  have steady := steady_after input count number app found
  exact ⟨steady.pool.inOrder, steady.pool.order.lost, steady.lost⟩

/-- An application is inserted, its worker registers and requests arrive. -/
def sampleInput : Nat → AppsEvent
  | 0 => .insert 0 ⟨1, 2, ⟨⟨[], noNul_nil⟩, none, []⟩⟩ none
  | 1 => .app 0 (.connect 100 ⟨true, true, true⟩)
  | _ => .app 0 .complete

theorem workers_in_order_sample :
    ∃ app, Machine.after (step Config.init fun _ count => 100 + count) sampleInput (fun _ => none)
        5 0 = some app ∧
      app.pool.InOrder ∧ app.pool.lost = false ∧ app.lost = false := by
  obtain ⟨app, found⟩ := Option.isSome_iff_exists.mp (by decide +kernel :
    (Machine.after (step Config.init fun _ count => 100 + count) sampleInput (fun _ => none)
      5 0).isSome = true)
  exact ⟨app, found, workers_in_order sampleInput 5 0 app found⟩

end Apps

/-! ### The message queue -/

/-- No request waits while a worker is free. The requests given to workers, followed by those that
wait, are the queued ones in their order, but for those an error took out while they waited. -/
structure Pool.Fifo (pool : Pool) : Prop where
  conserves : pool.messages = [] ∨ pool.freeWorkers = []
  history : pool.given ++ pool.messages = pool.queued.filter (· ∉ pool.dropped)
  queued_nodup : pool.queued.Nodup
  given_nodup : pool.given.Nodup

namespace Apps

variable {config : Config} {fork : Nat → Nat → Int}

theorem messages_in_order (input : Nat → AppsEvent) (count number : Nat) (app : App)
    (found : Machine.after (step config fork) input (fun _ => none) count number = some app) :
    app.pool.Fifo where
  conserves := (steady_after input count number app found).pool.conserves
  history := (steady_after input count number app found).pool.order.history
  queued_nodup := (steady_after input count number app found).pool.order.queued_nodup
  given_nodup := (List.nodup_append.mp
    (steady_after input count number app found).pool.order.messages_nodup).1

theorem messages_in_order_sample :
    ∃ app, Machine.after (step Config.init fun _ count => 100 + count) sampleInput (fun _ => none)
        5 0 = some app ∧ app.pool.Fifo := by
  obtain ⟨app, found⟩ := Option.isSome_iff_exists.mp (by decide +kernel :
    (Machine.after (step Config.init fun _ count => 100 + count) sampleInput (fun _ => none)
      5 0).isSome = true)
  exact ⟨app, found, messages_in_order sampleInput 5 0 app found⟩

end Apps
