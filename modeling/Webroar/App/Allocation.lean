import Mathlib
import Webroar.App.Pool

/-! # The invariant of the pool

Every registered worker is free or serves exactly one request, and every request that is waiting
or served is where it should be. The operations take one worker at a time out of this order and
put it back; the invariant says which worker that is.
-/

namespace Pool

/-- A worker serves a request that points back to it. -/
structure Serves (pool : Pool) (worker req : Nat) : Prop where
  holds : (pool.wkr worker).req = some req
  back : (pool.req req).wkr = some worker
  inUse : (pool.req req).usingWkr = true
  live : (pool.req req).live = true
  state : (pool.wkr worker).state = .active ∨ (pool.wkr worker).state = .pinging ∨
    (pool.wkr worker).state = .expired

/-- A worker that can be given a request. -/
def Ready (pool : Pool) (worker : Nat) : Prop :=
  (pool.wkr worker).state = .inactive ∧ (pool.wkr worker).req = none

/-- The pool is in order but for one worker at most. -/
structure Order (config : Config) (pool : Pool) (out : Option Nat) : Prop where
  workers_nodup : pool.workers.Nodup
  workers_room : pool.workers.length ≤ workerRoom config
  workers_below : ∀ worker ∈ pool.workers, worker < pool.nextWkr
  free_nodup : pool.freeWorkers.Nodup
  free_worker : ∀ worker ∈ pool.freeWorkers, worker ∈ pool.workers
  free_ready : ∀ worker ∈ pool.freeWorkers, pool.Ready worker
  busy : ∀ worker ∈ pool.workers, worker ∉ pool.freeWorkers → out ≠ some worker →
    ∃ req, pool.Serves worker req
  out_worker : ∀ worker, out = some worker → worker ∈ pool.workers ∧ worker ∉ pool.freeWorkers
  waiting : ∀ req ∈ pool.messages, (pool.req req).wkr = none ∧ (pool.req req).live = true
  live_known : ∀ req, (pool.req req).live = true →
    req ∈ pool.messages ∨ ∃ worker ∈ pool.workers, (pool.wkr worker).req = some req
  live_below : ∀ req, (pool.req req).live = true → req < pool.nextReq
  lost : pool.lost = false
  queued_nodup : pool.queued.Nodup
  queued_below : ∀ req ∈ pool.queued, req < pool.nextReq
  dropped_queued : ∀ req ∈ pool.dropped, req ∈ pool.queued
  history : pool.given ++ pool.messages = pool.queued.filter (· ∉ pool.dropped)

/-- No request waits while a worker is free. -/
def Conserves (pool : Pool) : Prop := pool.messages = [] ∨ pool.freeWorkers = []

variable {config : Config} {pool : Pool} {worker req : Nat} {out : Option Nat}

namespace Order

theorem messages_nodup (order : pool.Order config out) : (pool.given ++ pool.messages).Nodup := by
  rw [order.history]
  exact order.queued_nodup.filter _

theorem message_below (order : pool.Order config out) (member : req ∈ pool.messages) :
    req < pool.nextReq := order.live_below req (order.waiting req member).2

/-- A request is served by one worker at most. -/
theorem serves_unique {other : Nat} (first : pool.Serves worker req)
    (second : pool.Serves other req) : worker = other :=
  Option.some.inj (first.back.symm.trans second.back)

theorem serves_req {other : Nat} (first : pool.Serves worker req)
    (second : pool.Serves worker other) : req = other :=
  Option.some.inj (first.holds.symm.trans second.holds)

end Order

/-- The same records say the same. -/
theorem Serves.congr {after : Pool} (serves : pool.Serves worker req)
    (same : after.wkr worker = pool.wkr worker) (also : after.req req = pool.req req) :
    after.Serves worker req where
  holds := same ▸ serves.holds
  back := also ▸ serves.back
  inUse := also ▸ serves.inUse
  live := also ▸ serves.live
  state := same ▸ serves.state

theorem Ready.congr {after : Pool} (ready : pool.Ready worker)
    (same : after.wkr worker = pool.wkr worker) : after.Ready worker := by
  rw [Ready, same]
  exact ready

theorem Serves.not_ready (serves : pool.Serves worker req) : ¬ pool.Ready worker :=
  fun ready => nomatch serves.holds.symm.trans ready.2

namespace Order

/-- A worker that is not free serves a request. -/
theorem serves (order : pool.Order config none) (registered : worker ∈ pool.workers)
    (occupied : worker ∉ pool.freeWorkers) : ∃ req, pool.Serves worker req :=
  order.busy worker registered occupied nofun

/-- A free worker is taken out of its queue. -/
theorem fetch (order : pool.Order config none) {idle : List Nat}
    (oldest : pool.freeWorkers = worker :: idle) :
    ({ pool with freeWorkers := idle } : Pool).Order config (some worker) := by
  have nodup := oldest ▸ order.free_nodup
  rw [List.nodup_cons] at nodup
  have part : ∀ other ∈ idle, other ∈ pool.freeWorkers := fun other member =>
    oldest ▸ List.mem_cons_of_mem worker member
  refine { order with
    free_nodup := nodup.2
    free_worker := fun other member => order.free_worker other (part other member)
    free_ready := fun other member => order.free_ready other (part other member)
    busy := ?_, out_worker := ?_ }
  · intro other registered occupied differs
    have occupied : other ∉ pool.freeWorkers := by
      rw [oldest, List.mem_cons]
      rintro (same | member)
      · exact differs (congrArg some same.symm)
      · exact occupied member
    obtain ⟨req, serves⟩ := order.serves registered occupied
    exact ⟨req, serves.congr rfl rfl⟩
  · rintro other named
    cases named
    exact ⟨order.free_worker worker (oldest ▸ List.mem_cons_self), nodup.1⟩

/-- The oldest message goes to the worker that is out of order. -/
theorem give (order : pool.Order config (some worker)) (ready : pool.Ready worker)
    {rest : List Nat} (oldest : pool.messages = req :: rest) :
    ({ pool with messages := rest }.reqProcessing config worker req).Order config none := by
  obtain ⟨worker_member, worker_out⟩ := order.out_worker worker rfl
  have member : req ∈ pool.messages := oldest ▸ List.mem_cons_self
  obtain ⟨unowned, live⟩ := order.waiting req member
  have nodup : (req :: rest).Nodup := oldest ▸ (List.nodup_append.mp order.messages_nodup).2.1
  have apart : ∀ other ∈ rest, other ≠ req := fun other present same =>
    (List.nodup_cons.mp nodup).1 (same ▸ present)
  have taken : ((pool.wkr worker).take config req).state = .active ∧
      ((pool.wkr worker).take config req).req = some req := by
    obtain ⟨state, -⟩ := ready
    simp only [Wkr.take, Wkr.stateMachine, state, reduceCtorEq, or_self, ↓reduceIte, and_self]
  refine { order with
    free_ready := ?_, busy := ?_, out_worker := by rintro _ ⟨⟩, waiting := ?_, live_known := ?_,
    live_below := ?_, history := ?_ }
  · intro other free
    have differs : other ≠ worker := fun same => worker_out (same ▸ free)
    exact (order.free_ready other free).congr (Function.update_of_ne differs _ _)
  · intro other registered occupied _
    by_cases same : other = worker
    · subst same
      refine ⟨req, ?_, ?_, ?_, ?_, ?_⟩
      · simp only [reqProcessing, setReq, setWkr, Function.update_self, taken.2]
      · simp only [reqProcessing, setReq, setWkr, Function.update_self]
      · simp only [reqProcessing, setReq, setWkr, Function.update_self]
      · simp only [reqProcessing, setReq, setWkr, Function.update_self, live]
      · simp only [reqProcessing, setReq, setWkr, Function.update_self, taken.1, true_or]
    · obtain ⟨own, serves⟩ := order.busy other registered occupied
        fun named => same (Option.some.inj named).symm
      have differs : own ≠ req := by
        rintro rfl
        cases serves.back.symm.trans unowned
      exact ⟨own, serves.congr (Function.update_of_ne same _ _)
        (Function.update_of_ne differs _ _)⟩
  · intro other present
    have before : other ∈ pool.messages := oldest ▸ List.mem_cons_of_mem req present
    simp only [reqProcessing, setReq, setWkr, Function.update_of_ne (apart other present)]
    exact order.waiting other before
  · intro other alive
    by_cases same : other = req
    · refine .inr ⟨worker, worker_member, ?_⟩
      simp only [reqProcessing, setReq, setWkr, Function.update_self, taken.2, same]
    · simp only [reqProcessing, setReq, setWkr, Function.update_of_ne same] at alive
      rcases order.live_known other alive with waits | ⟨owner, registered, holds⟩
      · rw [oldest, List.mem_cons] at waits
        exact .inl (waits.resolve_left same)
      · have differs : owner ≠ worker := by
          rintro rfl
          cases holds.symm.trans ready.2
        refine .inr ⟨owner, registered, ?_⟩
        simp only [reqProcessing, setReq, setWkr, Function.update_of_ne differs, holds]
  · intro other alive
    by_cases same : other = req
    · subst same
      exact order.message_below member
    · simp only [reqProcessing, setReq, setWkr, Function.update_of_ne same] at alive
      exact order.live_below other alive
  · simp only [reqProcessing, setReq, setWkr, List.append_assoc, List.singleton_append, ← oldest]
    exact order.history

/-- There is room for every registered worker among the free ones. -/
theorem park (order : pool.Order config (some worker)) (ready : pool.Ready worker) :
    (pool.insertFree config worker).Order config none := by
  obtain ⟨worker_member, worker_out⟩ := order.out_worker worker rfl
  have nodup : (worker :: pool.freeWorkers).Nodup :=
    List.nodup_cons.mpr ⟨worker_out, order.free_nodup⟩
  have part : ∀ other ∈ worker :: pool.freeWorkers, other ∈ pool.workers := by
    intro other member
    rcases List.mem_cons.mp member with rfl | old
    · exact worker_member
    · exact order.free_worker other old
  have room : pool.freeWorkers.length < workerRoom config := by
    have short := (nodup.subperm part).length_le
    rw [List.length_cons] at short
    exact Nat.lt_of_lt_of_le short order.workers_room
  have stored : pool.insertFree config worker =
      { pool with freeWorkers := pool.freeWorkers ++ [worker] } := by
    simp only [insertFree, queueInsert, if_pos room]
  rw [stored]
  have listed : ∀ other, other ∈ pool.freeWorkers ++ [worker] ↔
      other ∈ worker :: pool.freeWorkers := fun other =>
    (List.perm_append_singleton worker pool.freeWorkers).mem_iff
  refine { order with
    free_nodup := (List.perm_append_singleton _ _).nodup_iff.mpr nodup
    free_worker := fun other member => part other ((listed other).mp member)
    free_ready := ?_, busy := ?_, out_worker := nofun }
  · intro other member
    rcases List.mem_cons.mp ((listed other).mp member) with rfl | old
    · exact ready
    · exact order.free_ready other old
  · intro other registered occupied _
    have absent : other ∉ worker :: pool.freeWorkers :=
      fun member => occupied ((listed other).mpr member)
    rw [List.mem_cons, not_or] at absent
    obtain ⟨req, serves⟩ := order.busy other registered absent.2
      fun named => absent.1 (Option.some.inj named).symm
    exact ⟨req, serves.congr rfl rfl⟩

theorem allocate (order : pool.Order config (some worker)) (ready : pool.Ready worker) :
    (pool.allocate config worker).Order config none := by
  rw [Pool.allocate]
  split
  · next req rest oldest => exact order.give ready oldest
  · exact order.park ready

end Order

/-! ### The loop that marks the workers -/

/-- The pool with every registered worker marked. -/
def marked (pool : Pool) : Pool :=
  { pool with
    wkr := fun worker =>
      if worker ∈ pool.workers then { pool.wkr worker with state := .expired }
      else pool.wkr worker }

/-- What was fetched has room to be put back, so the queue turns and no worker is lost. -/
theorem expireLoop_eq {todo done : List Nat} (pool : Pool)
    (room : todo.length + done.length ≤ workerRoom config) (split : pool.workers = todo ++ done) :
    pool.expireLoop config todo.length =
      { pool with
        workers := done ++ todo
        wkr := fun worker =>
          if worker ∈ todo then { pool.wkr worker with state := .expired } else pool.wkr worker } := by
  induction todo generalizing done pool with
  | nil =>
      simp only [List.nil_append] at split
      simp only [List.length_nil, expireLoop, List.append_nil, List.not_mem_nil, ↓reduceIte, ← split]
  | cons worker todo ih =>
      rw [List.length_cons] at room
      have fits : (todo ++ done).length < workerRoom config := by
        rw [List.length_append]
        omega
      have stored : queueInsert (workerRoom config) (todo ++ done) worker =
          some (todo ++ (done ++ [worker])) := by
        rw [queueInsert, if_pos fits, List.append_assoc]
      have next : todo.length + (done ++ [worker]).length ≤ workerRoom config := by
        rw [List.length_append, List.length_singleton]
        omega
      simp only [List.length_cons, expireLoop, split, List.cons_append, stored]
      rw [ih _ next rfl]
      simp only [setWkr, List.append_assoc, List.singleton_append, List.mem_cons]
      congr 1
      funext other
      by_cases same : other = worker
      · subst same
        simp only [Function.update_self, true_or, ↓reduceIte, ite_self]
      · simp only [Function.update_of_ne same, same, false_or]

theorem expireAll_eq (room : pool.workers.length ≤ workerRoom config) :
    pool.expireAll config = pool.marked := by
  have fits : pool.workers.length + ([] : List Nat).length ≤ workerRoom config := room
  rw [expireAll, expireLoop_eq pool fits (List.append_nil pool.workers).symm]
  rfl

/-! ### Requests come and go -/

namespace Order

theorem mem_queued (order : pool.Order config out) (member : req ∈ pool.messages) :
    req ∈ pool.queued ∧ req ∉ pool.dropped ∧ req ∉ pool.given := by
  have listed : req ∈ pool.queued.filter (· ∉ pool.dropped) := by
    rw [← order.history]
    exact List.mem_append_right _ member
  obtain ⟨queued, kept⟩ := List.mem_filter.mp listed
  refine ⟨queued, of_decide_eq_true kept, fun given => ?_⟩
  exact (List.nodup_append.mp order.messages_nodup).2.2 req given req member rfl

/-- A new request at the end of the message queue. -/
theorem push (order : pool.Order config none) :
    ({ pool.setReq pool.nextReq ⟨none, false, false, true⟩ with
      nextReq := pool.nextReq + 1
      messages := pool.messages ++ [pool.nextReq]
      queued := pool.queued ++ [pool.nextReq] } : Pool).Order config none := by
  have fresh : ∀ req, (pool.req req).live = true → req ≠ pool.nextReq := fun req live =>
    Nat.ne_of_lt (order.live_below req live)
  have unlisted : pool.nextReq ∉ pool.queued := fun member =>
    Nat.lt_irrefl _ (order.queued_below _ member)
  have kept : pool.nextReq ∉ pool.dropped := fun member =>
    unlisted (order.dropped_queued _ member)
  refine { order with
    busy := ?_, waiting := ?_, live_known := ?_, live_below := ?_, queued_nodup := ?_,
    queued_below := ?_, dropped_queued := ?_, history := ?_ }
  · intro worker registered occupied _
    obtain ⟨req, serves⟩ := order.serves registered occupied
    exact ⟨req, serves.congr rfl (Function.update_of_ne (fresh req serves.live) _ _)⟩
  · intro req member
    rcases List.mem_append.mp member with old | new
    · have differs := fresh req (order.waiting req old).2
      simp only [setReq, Function.update_of_ne differs]
      exact order.waiting req old
    · rw [List.mem_singleton.mp new]
      simp only [setReq, Function.update_self, and_self]
  · intro req live
    by_cases same : req = pool.nextReq
    · exact .inl (List.mem_append_right _ (List.mem_singleton.mpr same))
    · simp only [setReq, Function.update_of_ne same] at live
      exact (order.live_known req live).imp_left (List.mem_append_left _)
  · intro req live
    by_cases same : req = pool.nextReq
    · exact same ▸ Nat.lt_succ_self _
    · simp only [setReq, Function.update_of_ne same] at live
      exact Nat.lt_succ_of_lt (order.live_below req live)
  · exact (List.perm_append_singleton _ _).nodup_iff.mpr
      (List.nodup_cons.mpr ⟨unlisted, order.queued_nodup⟩)
  · intro req member
    rcases List.mem_append.mp member with old | new
    · exact Nat.lt_succ_of_lt (order.queued_below req old)
    · exact List.mem_singleton.mp new ▸ Nat.lt_succ_self _
  · exact fun req member => List.mem_append_left _ (order.dropped_queued req member)
  · have last : [pool.nextReq].filter (· ∉ pool.dropped) = [pool.nextReq] := by simp [kept]
    change pool.given ++ (pool.messages ++ [pool.nextReq]) =
      (pool.queued ++ [pool.nextReq]).filter (· ∉ pool.dropped)
    rw [List.filter_append, last, ← order.history, List.append_assoc]

/-- A number that was never queued does not count as a request. -/
theorem skip (order : pool.Order config none) {record : ReqState} (dead : record.live = false) :
    ({ pool.setReq pool.nextReq record with nextReq := pool.nextReq + 1 } : Pool).Order config
      none := by
  have fresh : ∀ req, (pool.req req).live = true → req ≠ pool.nextReq := fun req live =>
    Nat.ne_of_lt (order.live_below req live)
  refine { order with
    busy := ?_, waiting := ?_, live_known := ?_, live_below := ?_, queued_below := ?_ }
  · intro worker registered occupied _
    obtain ⟨req, serves⟩ := order.serves registered occupied
    exact ⟨req, serves.congr rfl (Function.update_of_ne (fresh req serves.live) _ _)⟩
  · intro req member
    simp only [setReq, Function.update_of_ne (fresh req (order.waiting req member).2)]
    exact order.waiting req member
  · intro req live
    by_cases same : req = pool.nextReq
    · simp only [setReq, same, Function.update_self, dead] at live
      exact Bool.noConfusion live
    · simp only [setReq, Function.update_of_ne same] at live
      exact order.live_known req live
  · intro req live
    by_cases same : req = pool.nextReq
    · exact same ▸ Nat.lt_succ_self _
    · simp only [setReq, Function.update_of_ne same] at live
      exact Nat.lt_succ_of_lt (order.live_below req live)
  · exact fun req member => Nat.lt_succ_of_lt (order.queued_below req member)

/-- A waiting request is taken out of the queue and freed. -/
theorem drop (order : pool.Order config out) (member : req ∈ pool.messages) :
    ({ pool.reqFree req with
      messages := pool.messages.erase req, dropped := pool.dropped ++ [req] } : Pool).Order config
      out := by
  obtain ⟨queued, kept, ungiven⟩ := order.mem_queued member
  have nodup := (List.nodup_append.mp order.messages_nodup).2.1
  have gone : req ∉ pool.messages.erase req := nodup.not_mem_erase
  refine { order with
    busy := ?_, waiting := ?_, live_known := ?_, live_below := ?_, dropped_queued := ?_,
    history := ?_ }
  · intro worker registered occupied differs
    obtain ⟨own, serves⟩ := order.busy worker registered occupied differs
    have apart : own ≠ req := by
      rintro rfl
      exact nomatch serves.back.symm.trans (order.waiting own member).1
    exact ⟨own, serves.congr rfl (Function.update_of_ne apart _ _)⟩
  · intro other present
    have differs : other ≠ req := fun same => gone (same ▸ present)
    simp only [reqFree, setReq, Function.update_of_ne differs]
    exact order.waiting other (List.mem_of_mem_erase present)
  · intro other live
    by_cases same : other = req
    · simp only [reqFree, setReq, same, Function.update_self] at live
      exact Bool.noConfusion live
    · simp only [reqFree, setReq, Function.update_of_ne same] at live
      exact (order.live_known other live).imp_left (List.mem_erase_of_ne same).mpr
  · intro other live
    by_cases same : other = req
    · subst same
      exact order.message_below member
    · simp only [reqFree, setReq, Function.update_of_ne same] at live
      exact order.live_below other live
  · intro other present
    rcases List.mem_append.mp present with old | new
    · exact order.dropped_queued other old
    · exact List.mem_singleton.mp new ▸ queued
  · have joined : (pool.given ++ pool.messages).filter (· ≠ req) =
        pool.given ++ pool.messages.erase req := by
      rw [List.filter_append, nodup.erase_eq_filter]
      congr 1
      · rw [List.filter_eq_self]
        exact fun other given => decide_eq_true fun same => ungiven (same ▸ given)
      · exact List.filter_congr fun other _ => by simp only [bne, beq_eq_decide, decide_not]
    change pool.given ++ pool.messages.erase req =
      pool.queued.filter (· ∉ pool.dropped ++ [req])
    rw [← joined, order.history, List.filter_filter]
    refine List.filter_congr fun other _ => ?_
    simp only [List.mem_append, List.mem_singleton, not_or, Bool.decide_and, Bool.and_comm]

/-! ### Workers leave -/

/-- A worker that is out of order and serves nobody who still lives leaves the queues. -/
theorem leave (order : pool.Order config (some worker))
    (finished : ∀ req, (pool.wkr worker).req = some req → (pool.req req).live = false) :
    ({ pool with
      workers := pool.workers.erase worker
      freeWorkers := pool.freeWorkers.erase worker } : Pool).Order config none := by
  obtain ⟨-, absent⟩ := order.out_worker worker rfl
  have same : pool.freeWorkers.erase worker = pool.freeWorkers := List.erase_of_not_mem absent
  rw [same]
  have part : ∀ other ∈ pool.workers.erase worker, other ∈ pool.workers ∧ other ≠ worker :=
    fun other member => ⟨List.mem_of_mem_erase member,
      fun same => order.workers_nodup.not_mem_erase (same ▸ member)⟩
  refine { order with
    workers_nodup := order.workers_nodup.erase _
    workers_room := Nat.le_trans (List.length_erase_le) order.workers_room
    workers_below := fun other member => order.workers_below other (part other member).1
    free_worker := ?_, free_ready := order.free_ready, busy := ?_, out_worker := nofun
    live_known := ?_ }
  · intro other member
    have differs : other ≠ worker := fun same => absent (same ▸ member)
    exact (List.mem_erase_of_ne differs).mpr (order.free_worker other member)
  · intro other registered occupied _
    obtain ⟨registered, differs⟩ := part other registered
    obtain ⟨req, serves⟩ := order.busy other registered occupied
      fun named => differs (Option.some.inj named).symm
    exact ⟨req, serves.congr rfl rfl⟩
  · intro req live
    refine (order.live_known req live).imp_right ?_
    rintro ⟨owner, registered, holds⟩
    have differs : owner ≠ worker := by
      rintro rfl
      exact nomatch (finished req holds).symm.trans live
    exact ⟨owner, (List.mem_erase_of_ne differs).mpr registered, holds⟩

theorem leave_idle (order : pool.Order config (some worker))
    (idle : (pool.wkr worker).req = none) : (pool.wkrFree worker).Order config none := by
  have same : pool.answerFailed worker = pool := by
    rw [answerFailed]
    simp only [idle]
  rw [wkrFree, same]
  exact order.leave fun req holds => by cases idle.symm.trans holds

/-- A free worker leaves the queues, whatever becomes of its record. -/
theorem leave_free (order : pool.Order config none) (free : worker ∈ pool.freeWorkers) (wkr : Wkr) :
    ({ pool.setWkr worker wkr with
      workers := pool.workers.erase worker
      freeWorkers := pool.freeWorkers.erase worker } : Pool).Order config none := by
  have part : ∀ other ∈ pool.workers.erase worker, other ∈ pool.workers ∧ other ≠ worker :=
    fun other member => ⟨List.mem_of_mem_erase member,
      fun same => order.workers_nodup.not_mem_erase (same ▸ member)⟩
  have apart : ∀ other ∈ pool.freeWorkers.erase worker, other ≠ worker :=
    fun other member same => order.free_nodup.not_mem_erase (same ▸ member)
  refine { order with
    workers_nodup := order.workers_nodup.erase _
    workers_room := Nat.le_trans (List.length_erase_le) order.workers_room
    workers_below := fun other member => order.workers_below other (part other member).1
    free_nodup := order.free_nodup.erase _
    free_worker := ?_, free_ready := ?_, busy := ?_, out_worker := nofun, live_known := ?_ }
  · intro other member
    exact (List.mem_erase_of_ne (apart other member)).mpr
      (order.free_worker other (List.mem_of_mem_erase member))
  · intro other member
    exact (order.free_ready other (List.mem_of_mem_erase member)).congr
      (Function.update_of_ne (apart other member) _ _)
  · intro other registered occupied _
    obtain ⟨registered, differs⟩ := part other registered
    obtain ⟨req, serves⟩ := order.serves registered
      fun member => occupied ((List.mem_erase_of_ne differs).mpr member)
    exact ⟨req, serves.congr (Function.update_of_ne differs _ _) rfl⟩
  · intro req live
    refine (order.live_known req live).imp_right ?_
    rintro ⟨owner, registered, holds⟩
    have differs : owner ≠ worker := by
      rintro rfl
      exact nomatch holds.symm.trans (order.free_ready owner free).2
    refine ⟨owner, (List.mem_erase_of_ne differs).mpr registered, ?_⟩
    simp only [setWkr, Function.update_of_ne differs, holds]

/-- A worker is done with its request, which is freed; its record may change. -/
theorem finish (order : pool.Order config none) (serves : pool.Serves worker req)
    (registered : worker ∈ pool.workers) {record : ReqState} {wkr : Wkr}
    (dead : record.live = false) (own : wkr.req = none ∨ wkr.req = some req) :
    ((pool.setReq req record).setWkr worker wkr).Order config (some worker) := by
  have occupied : worker ∉ pool.freeWorkers := fun free =>
    serves.not_ready (order.free_ready worker free)
  have apart : ∀ other own, other ≠ worker → pool.Serves other own → own ≠ req := by
    rintro other own differs others rfl
    exact differs (serves_unique others serves)
  have foreign : ∀ other ∈ pool.messages, other ≠ req := by
    rintro other member rfl
    exact nomatch serves.back.symm.trans (order.waiting other member).1
  refine { order with
    free_ready := ?_, busy := ?_, out_worker := ?_, waiting := ?_, live_known := ?_,
    live_below := ?_ }
  · intro other free
    have differs : other ≠ worker := fun same => occupied (same ▸ free)
    exact (order.free_ready other free).congr (Function.update_of_ne differs _ _)
  · intro other member absent differs
    have differs : other ≠ worker := fun same => differs (congrArg some same.symm)
    obtain ⟨own, others⟩ := order.serves member absent
    exact ⟨own, others.congr (Function.update_of_ne differs _ _)
      (Function.update_of_ne (apart other own differs others) _ _)⟩
  · rintro other named
    cases named
    exact ⟨registered, occupied⟩
  · intro other member
    simp only [setReq, setWkr, Function.update_of_ne (foreign other member)]
    exact order.waiting other member
  · intro other live
    by_cases same : other = req
    · simp only [setReq, setWkr, same, Function.update_self, dead] at live
      exact Bool.noConfusion live
    · simp only [setReq, setWkr, Function.update_of_ne same] at live
      refine (order.live_known other live).imp_right ?_
      rintro ⟨owner, member, holds⟩
      have differs : owner ≠ worker := by
        rintro rfl
        exact same (Option.some.inj (holds.symm.trans serves.holds))
      refine ⟨owner, member, ?_⟩
      simp only [setReq, setWkr, Function.update_of_ne differs, holds]
  · intro other live
    by_cases same : other = req
    · subst same
      exact order.live_below other serves.live
    · simp only [setReq, setWkr, Function.update_of_ne same] at live
      exact order.live_below other live

/-! ### Records change -/

/-- A busy worker keeps its request while its record changes. -/
theorem setWkr (order : pool.Order config none) {wkr : Wkr}
    (serves : pool.Serves worker req) (holds : wkr.req = some req)
    (state : wkr.state = .active ∨ wkr.state = .pinging ∨ wkr.state = .expired) :
    (pool.setWkr worker wkr).Order config none := by
  have occupied : worker ∉ pool.freeWorkers := fun free =>
    serves.not_ready (order.free_ready worker free)
  refine { order with free_ready := ?_, busy := ?_, live_known := ?_, out_worker := nofun }
  · intro other free
    have differs : other ≠ worker := fun same => occupied (same ▸ free)
    exact (order.free_ready other free).congr (Function.update_of_ne differs _ _)
  · intro other registered absent _
    by_cases same : other = worker
    · subst same
      refine ⟨req, ?_, serves.back, serves.inUse, serves.live, ?_⟩
      · simp only [Pool.setWkr, Function.update_self, holds]
      · simp only [Pool.setWkr, Function.update_self]
        exact state
    · obtain ⟨own, others⟩ := order.serves registered absent
      exact ⟨own, others.congr (Function.update_of_ne same _ _) rfl⟩
  · intro other live
    refine (order.live_known other live).imp_right ?_
    rintro ⟨owner, registered, held⟩
    refine ⟨owner, registered, ?_⟩
    by_cases same : owner = worker
    · subst same
      have one : other = req := Option.some.inj (held.symm.trans serves.holds)
      simp only [Pool.setWkr, Function.update_self, holds, one]
    · simp only [Pool.setWkr, Function.update_of_ne same, held]

/-- A free worker stays free while its record changes. -/
theorem setWkr_free (order : pool.Order config none) (free : worker ∈ pool.freeWorkers) {wkr : Wkr}
    (ready : wkr.state = .inactive ∧ wkr.req = none) : (pool.setWkr worker wkr).Order config none := by
  have idle := (order.free_ready worker free).2
  refine { order with free_ready := ?_, busy := ?_, live_known := ?_, out_worker := by rintro _ ⟨⟩ }
  · intro other member
    by_cases same : other = worker
    · subst same
      simp only [Ready, Pool.setWkr, Function.update_self]
      exact ready
    · exact (order.free_ready other member).congr (Function.update_of_ne same _ _)
  · intro other registered absent _
    have differs : other ≠ worker := fun same => absent (same ▸ free)
    obtain ⟨own, others⟩ := order.serves registered absent
    exact ⟨own, others.congr (Function.update_of_ne differs _ _) rfl⟩
  · intro other live
    refine (order.live_known other live).imp_right ?_
    rintro ⟨owner, registered, held⟩
    have differs : owner ≠ worker := by
      rintro rfl
      cases held.symm.trans idle
    exact ⟨owner, registered, (congrArg Wkr.req (Function.update_of_ne differs _ _)).trans held⟩

/-- A request keeps its worker while the state of its connection changes. -/
theorem setReq (order : pool.Order config none) (serves : pool.Serves worker req) (failed : Bool) :
    (pool.setReq req { pool.req req with connErr := failed }).Order config none := by
  have same : ∀ other, ((pool.setReq req { pool.req req with connErr := failed }).req other).wkr =
      (pool.req other).wkr ∧
      ((pool.setReq req { pool.req req with connErr := failed }).req other).usingWkr =
        (pool.req other).usingWkr ∧
      ((pool.setReq req { pool.req req with connErr := failed }).req other).live =
        (pool.req other).live := by
    intro other
    by_cases same : other = req
    · subst same
      simp only [Pool.setReq, Function.update_self, and_self]
    · simp only [Pool.setReq, Function.update_of_ne same, and_self]
  refine { order with
    busy := ?_, waiting := ?_, live_known := ?_, live_below := ?_, out_worker := by rintro _ ⟨⟩ }
  · intro other registered absent _
    obtain ⟨own, others⟩ := order.serves registered absent
    obtain ⟨wkr, inUse, live⟩ := same own
    exact ⟨own, others.holds, wkr.trans others.back, inUse.trans others.inUse,
      live.trans others.live, others.state⟩
  · intro other member
    obtain ⟨wkr, -, live⟩ := same other
    rw [wkr, live]
    exact order.waiting other member
  · intro other alive
    rw [(same other).2.2] at alive
    exact order.live_known other alive
  · intro other alive
    rw [(same other).2.2] at alive
    exact order.live_below other alive

/-- With no worker free, all workers are marked, and the queue has turned once. -/
theorem expireAll (order : pool.Order config none) (none_free : pool.freeWorkers = []) :
    (pool.expireAll config).Order config none := by
  have absent : ∀ other, other ∉ pool.freeWorkers := fun other member =>
    List.not_mem_nil (none_free ▸ member)
  rw [expireAll_eq order.workers_room]
  have held : ∀ other, ((pool.marked).wkr other).req = (pool.wkr other).req := by
    intro other
    simp only [marked]
    split <;> rfl
  refine { order with free_ready := ?_, busy := ?_, live_known := ?_, out_worker := nofun }
  · exact fun other member => absurd member (absent other)
  · intro other registered _ _
    obtain ⟨own, others⟩ := order.serves registered (absent other)
    refine ⟨own, (held other).trans others.holds, others.back, others.inUse, others.live,
      .inr (.inr ?_)⟩
    have member : other ∈ pool.workers := registered
    simp only [marked, if_pos member]
  · intro other live
    refine (order.live_known other live).imp_right ?_
    rintro ⟨owner, registered, holds⟩
    exact ⟨owner, registered, (held owner).trans holds⟩

end Order

/-! ### The operations -/

/-- The request of a freed worker is answered and freed. -/
theorem answerFailed_eq {pool : Pool} (holds : (pool.wkr worker).req = some req)
    (back : (pool.req req).wkr = some worker) :
    pool.answerFailed worker =
      { pool.setReq req { pool.req req with usingWkr := false, live := false } with
        failed := pool.failed ++ [req] } := by
  have answered : (pool.setReq req { pool.req req with usingWkr := false }).errResp req =
      pool.setReq req { pool.req req with usingWkr := false, live := false } := by
    simp only [errResp, reqFree, setReq, Function.update_self, back, Bool.false_eq_true,
      ↓reduceIte, Function.update_idem]
  rw [answerFailed]
  simp only [holds, answered]
  rfl

theorem answerFailed_idle {pool : Pool} (idle : (pool.wkr worker).req = none) :
    pool.answerFailed worker = pool := by
  rw [answerFailed]
  simp only [idle]

namespace Order

/-- Which requests failed is no matter of order. -/
theorem note (order : pool.Order config out) (failed : List Nat) :
    ({ pool with failed := failed } : Pool).Order config out := by
  refine { order with busy := ?_ }
  intro worker registered occupied differs
  obtain ⟨req, serves⟩ := order.busy worker registered occupied differs
  exact ⟨req, serves.congr rfl rfl⟩

/-- Any registered worker can be freed, whatever becomes of its record. -/
theorem retire (order : pool.Order config none) (registered : worker ∈ pool.workers) {wkr : Wkr}
    (same : wkr.req = (pool.wkr worker).req) :
    ((pool.setWkr worker wkr).wkrFree worker).Order config none := by
  have record : (pool.setWkr worker wkr).wkr worker = wkr := Function.update_self _ _ _
  by_cases free : worker ∈ pool.freeWorkers
  · have idle : ((pool.setWkr worker wkr).wkr worker).req = none := by
      rw [record, same]
      exact (order.free_ready worker free).2
    rw [wkrFree, answerFailed_idle idle]
    exact order.leave_free free wkr
  · obtain ⟨req, serves⟩ := order.serves registered free
    have holds : ((pool.setWkr worker wkr).wkr worker).req = some req := by
      rw [record, same, serves.holds]
    rw [wkrFree, answerFailed_eq holds serves.back]
    have out := @finish _ _ _ _ order serves registered
      { pool.req req with usingWkr := false, live := false } wkr rfl
      (.inr (same.trans serves.holds))
    refine (out.leave ?_).note _
    intro own held
    have one : own = req := by
      rw [setWkr_wkr, same, serves.holds] at held
      exact (Option.some.inj held).symm
    subst one
    exact congrArg ReqState.live (setReq_req pool own _)

/-- Actions of the head on a registered worker, other than the end of a request: the worker stays
as it is but for its record, or it is freed. -/
theorem act (order : pool.Order config none) (registered : worker ∈ pool.workers) {wkr : Wkr}
    (state : wkr.state = (pool.wkr worker).state) (holds : wkr.req = (pool.wkr worker).req)
    {action : WkrAction} (known : (action = .error ∨ action = .remove) ∨
      action = .pingReplay ∨ action = .pingTimeout) :
    ((pool.setWkr worker wkr).stateMachine config worker action).Order config none := by
  simp only [stateMachine, setWkr_wkr, setWkr_setWkr]
  by_cases free : worker ∈ pool.freeWorkers
  · obtain ⟨idle, unused⟩ := order.free_ready worker free
    rcases known with gone | quiet
    · rw [Wkr.stateMachine_free wkr gone]
      exact order.retire registered holds
    · rw [Wkr.stateMachine_idle (state.trans idle) quiet]
      exact order.setWkr_free free ⟨state.trans idle, holds.trans unused⟩
  · obtain ⟨req, serves⟩ := order.serves registered free
    have busy : wkr.Busy := by
      rw [Wkr.Busy, state]
      exact serves.state
    have other : action ≠ .reqProcessed := by
      rintro rfl
      rcases known with gone | quiet
      · exact gone.elim nofun nofun
      · exact quiet.elim nofun nofun
    obtain ⟨kept, outcome⟩ := @Wkr.stateMachine_busy config _ busy _ other
    rcases outcome with ⟨stays, still⟩ | leaves | leaves
    · rw [stays]
      exact order.setWkr serves (kept.trans (holds.trans serves.holds)) still
    · rw [leaves]
      exact order.retire registered (kept.trans holds)
    · rw [leaves]
      exact order.retire registered (kept.trans holds)

/-- The watch over a worker starts anew: its request was sent, or a part of its response came. -/
theorem waitStart (order : pool.Order config none) (serves : pool.Serves worker req) :
    (pool.waitStart config worker).Order config none := by
  obtain ⟨kept, still⟩ := @Wkr.waitStart_spec config _ serves.state
  exact order.setWkr serves (kept.trans serves.holds) still

/-- The end of a response: the request is freed, and the worker goes on or leaves. -/
theorem reqProcessed (order : pool.Order config none) (registered : worker ∈ pool.workers)
    (serves : pool.Serves worker req) : (pool.reqProcessed config worker).Order config none := by
  have released : ((pool.wkr worker).release config).Busy := serves.state
  obtain ⟨kept, outcome⟩ := @Wkr.stateMachine_processed config _ released
  have unused : (((pool.wkr worker).release config).stateMachine config .reqProcessed).1.req =
      none := kept
  have out := @finish _ _ _ _ order serves registered { pool.req req with live := false }
    (((pool.wkr worker).release config).stateMachine config .reqProcessed).1 rfl (.inl unused)
  simp only [Pool.reqProcessed, serves.holds, stateMachine, setWkr_wkr, setWkr_setWkr, reqFree_wkr]
  rcases outcome with ⟨goes_on, idle⟩ | leaves
  · rw [goes_on]
    refine out.allocate ⟨?_, ?_⟩
    · rw [setWkr_wkr]
      exact idle
    · rw [setWkr_wkr]
      exact unused
  · rw [leaves]
    refine out.leave_idle ?_
    rw [setWkr_wkr]
    exact unused

/-- Freeing the free workers one after the other. -/
theorem freeIdle (order : pool.Order config none) :
    (pool.freeIdle).Order config none ∧ (pool.freeIdle).freeWorkers = [] := by
  have loop : ∀ (idle : List Nat) (pool : Pool), pool.Order config none →
      pool.freeWorkers = idle →
      (idle.foldl (fun pool worker =>
        (pool.setWkr worker { pool.wkr worker with state := .error }).wkrFree worker) pool).Order
          config none ∧
      (idle.foldl (fun pool worker =>
        (pool.setWkr worker { pool.wkr worker with state := .error }).wkrFree worker)
          pool).freeWorkers = [] := by
    intro idle
    induction idle with
    | nil => exact fun pool order empty => ⟨order, empty⟩
    | cons worker idle ih =>
        intro pool order listed
        have free : worker ∈ pool.freeWorkers := listed ▸ List.mem_cons_self
        have next := order.retire (order.free_worker worker free)
          (rfl : ({ pool.wkr worker with state := .error } : Wkr).req = _)
        refine ih _ next ?_
        rw [wkrFree_freeWorkers]
        change pool.freeWorkers.erase worker = idle
        rw [listed, List.erase_cons_head]
  exact loop pool.freeWorkers pool order rfl

/-- What a reload does to the workers. -/
theorem reload (order : pool.Order config none) :
    (pool.freeIdle.expireAll config).Order config none := by
  obtain ⟨order, empty⟩ := order.freeIdle
  exact order.expireAll empty

/-- Taking away the worker with a given process id. -/
theorem removeWkr (order : pool.Order config none) (pid : Nat) :
    (pool.removeWkr pid).Order config none := by
  rw [Pool.removeWkr]
  cases idle : pool.freeWorkers.find? fun worker => (pool.wkr worker).pid = pid with
  | some worker =>
      have free := List.mem_of_find?_eq_some idle
      exact order.retire (order.free_worker worker free)
        (rfl : ({ pool.wkr worker with state := .error } : Wkr).req = _)
  | none =>
      cases found : pool.workers.find? fun worker => (pool.wkr worker).pid = pid with
      | none => exact order
      | some worker =>
          have matched := List.find?_some found
          have registered := List.mem_of_find?_eq_some found
          have occupied : worker ∉ pool.freeWorkers := fun free =>
            absurd matched (List.find?_eq_none.mp idle worker free)
          obtain ⟨req, serves⟩ := order.serves registered occupied
          exact order.setWkr serves
            (show ({ pool.wkr worker with state := .expired } : Wkr).req = some req from
              serves.holds) (.inr (.inr rfl))

/-- A new worker enters the queue and is given work. -/
theorem setRatio (order : pool.Order config none) {pid : Nat} {after : Pool}
    (admitted : pool.setRatio config pid = some after) :
    after.Order config (some pool.nextWkr) ∧ after.Ready pool.nextWkr := by
  have absent : pool.nextWkr ∉ pool.workers := fun member =>
    Nat.lt_irrefl _ (order.workers_below _ member)
  have unlisted : pool.nextWkr ∉ pool.freeWorkers := fun member =>
    absent (order.free_worker _ member)
  rw [Pool.setRatio, queueInsert] at admitted
  split at admitted
  · next queue stored =>
      obtain ⟨room, same⟩ := Option.ite_none_right_eq_some.mp stored
      cases Option.some.inj same
      cases Option.some.inj admitted
      have idle : ((Wkr.new config pid).stateMachine config .add) =
        ({ Wkr.new config pid with state := .inactive }, .stay) := rfl
      simp only [stateMachine, setWkr_wkr, idle]
      have other : ∀ worker ∈ pool.workers, worker ≠ pool.nextWkr := fun worker member same =>
        absent (same ▸ member)
      refine ⟨{ order with
        workers_nodup := ?_, workers_room := ?_, workers_below := ?_, free_worker := ?_,
        free_ready := ?_, busy := ?_, out_worker := ?_, live_known := ?_ }, ?_⟩
      · exact (List.perm_append_singleton _ _).nodup_iff.mpr
          (List.nodup_cons.mpr ⟨absent, order.workers_nodup⟩)
      · have fits : (pool.workers ++ [pool.nextWkr]).length ≤ workerRoom config := by
          rw [List.length_append, List.length_singleton]
          exact room
        exact fits
      · intro worker member
        rcases List.mem_append.mp member with old | new
        · exact Nat.lt_succ_of_lt (order.workers_below worker old)
        · exact List.mem_singleton.mp new ▸ Nat.lt_succ_self _
      · exact fun worker member => List.mem_append_left _ (order.free_worker worker member)
      · intro worker member
        have differs := other worker (order.free_worker worker member)
        refine (order.free_ready worker member).congr ?_
        simp only [Pool.setWkr, Function.update_of_ne differs]
      · intro worker member occupied differs
        have differs : worker ≠ pool.nextWkr := fun same => differs (congrArg some same.symm)
        have old : worker ∈ pool.workers := (List.mem_append.mp member).resolve_right
          fun new => differs (List.mem_singleton.mp new)
        obtain ⟨req, serves⟩ := order.serves old occupied
        refine ⟨req, serves.congr ?_ rfl⟩
        simp only [Pool.setWkr, Function.update_of_ne differs]
      · rintro worker named
        cases named
        exact ⟨List.mem_append_right _ (List.mem_singleton.mpr rfl), unlisted⟩
      · intro req live
        refine (order.live_known req live).imp_right ?_
        rintro ⟨owner, member, holds⟩
        refine ⟨owner, List.mem_append_left _ member, ?_⟩
        simp only [Pool.setWkr, Function.update_of_ne (other owner member), holds]
      · exact ⟨congrArg Wkr.state (setWkr_wkr _ _ _), congrArg Wkr.req (setWkr_wkr _ _ _)⟩
  · cases admitted

/-- A free worker and the oldest message meet. -/
theorem dispatch (order : pool.Order config none) : (pool.dispatch config).Order config none := by
  rw [Pool.dispatch]
  split
  · next worker idle req rest listed oldest =>
      have free : worker ∈ pool.freeWorkers := listed ▸ List.mem_cons_self
      exact (order.fetch listed).give
        ((order.free_ready worker free).congr rfl) (show pool.messages = req :: rest from oldest)
  · exact order

/-- A request arrives. -/
theorem complete (order : pool.Order config none) : (pool.complete config).Order config none := by
  rw [Pool.complete]
  dsimp only
  split
  · next queue stored =>
      obtain ⟨-, same⟩ := Option.ite_none_right_eq_some.mp stored
      cases Option.some.inj same
      exact order.push.dispatch
  · -- the queue is full: the request was never part of it
    have absent : pool.nextReq ∉ pool.messages := fun member =>
      Nat.lt_irrefl _ (order.message_below member)
    have turned_away : ({ pool.setReq pool.nextReq ⟨none, false, false, true⟩ with
        nextReq := pool.nextReq + 1 } : Pool).errResp pool.nextReq =
        { pool.setReq pool.nextReq ⟨none, false, false, false⟩ with
          nextReq := pool.nextReq + 1 } := by
      simp only [Pool.errResp, Pool.reqFree, Pool.setReq, Function.update_self,
        Function.update_idem, List.erase_of_not_mem absent, absent, ↓reduceIte]
    rw [turned_away]
    exact order.skip rfl

/-- An error on the connection of a request of this application. -/
theorem errResp (order : pool.Order config none) (live : (pool.req req).live = true) :
    (pool.errResp req).Order config none := by
  rcases order.live_known req live with waits | ⟨owner, registered, holds⟩
  · have unowned := (order.waiting req waits).1
    simp only [Pool.errResp, unowned, if_pos waits]
    exact order.drop waits
  · have occupied : owner ∉ pool.freeWorkers := fun free =>
      by cases holds.symm.trans (order.free_ready owner free).2
    obtain ⟨own, serves⟩ := order.serves registered occupied
    have one : own = req := Option.some.inj (serves.holds.symm.trans holds)
    subst one
    rw [Pool.errResp]
    split
    · rw [if_pos serves.inUse]
      exact order.setReq serves true
    · next none => cases serves.back.symm.trans none

end Order

/-! ### No request waits while a worker is free -/

/-- Queues that do not come to life keep the pool as it should be. -/
theorem Conserves.of_queues {after : Pool} (conserves : pool.Conserves)
    (messages : pool.messages = [] → after.messages = [])
    (free : pool.freeWorkers = [] → after.freeWorkers = []) : after.Conserves :=
  conserves.imp messages free

theorem Conserves.allocate (conserves : pool.Conserves) :
    (pool.allocate config worker).Conserves := by
  rw [Pool.allocate]
  split
  · next req rest oldest =>
      refine .inr (conserves.resolve_left fun empty => ?_)
      exact nomatch oldest.symm.trans empty
  · next empty =>
      refine .inl ?_
      rw [insertFree]
      split <;> exact empty

theorem errResp_messages (empty : pool.messages = []) (req : Nat) :
    (pool.errResp req).messages = [] := by
  rw [errResp]
  split
  · split <;> exact empty
  · exact congrArg (List.erase · req) empty

theorem Conserves.errResp (conserves : pool.Conserves) (req : Nat) :
    (pool.errResp req).Conserves :=
  conserves.of_queues (fun empty => errResp_messages empty req)
    fun empty => (errResp_freeWorkers pool req).trans empty

theorem Conserves.wkrFree (conserves : pool.Conserves) (worker : Nat) :
    (pool.wkrFree worker).Conserves := by
  refine conserves.of_queues (fun empty => ?_) fun empty => ?_
  · have answered : (pool.answerFailed worker).messages = [] := by
      rw [answerFailed]
      split
      · next req _ => exact @errResp_messages (pool.setReq req _) empty req
      · exact empty
    exact answered
  · rw [wkrFree_freeWorkers, empty]
    rfl

theorem Conserves.stateMachine (conserves : pool.Conserves) (worker : Nat) (action : WkrAction) :
    (pool.stateMachine config worker action).Conserves := by
  have changed : (pool.setWkr worker
      ((pool.wkr worker).stateMachine config action).1).Conserves := conserves
  rw [Pool.stateMachine]
  split
  · exact changed
  · exact changed.allocate
  · exact changed.wkrFree worker
  · exact changed.wkrFree worker

theorem Conserves.reqProcessed (conserves : pool.Conserves) (worker : Nat) :
    (pool.reqProcessed config worker).Conserves := by
  rw [Pool.reqProcessed]
  refine Conserves.stateMachine ?_ worker _
  split <;> exact conserves

theorem Conserves.removeWkr (conserves : pool.Conserves) (pid : Nat) :
    (pool.removeWkr pid).Conserves := by
  rw [Pool.removeWkr]
  split
  · next worker _ =>
      have changed : (pool.setWkr worker
        { pool.wkr worker with state := .error }).Conserves := conserves
      exact changed.wkrFree worker
  · split <;> exact conserves

/-- A request that finds a free worker is the only one that waits. -/
theorem conserves_dispatch (short : pool.freeWorkers = [] ∨ ∃ req, pool.messages = [req]) :
    (pool.dispatch config).Conserves := by
  rw [dispatch]
  split
  · next worker idle req rest listed oldest =>
      rcases short with none | ⟨only, one⟩
      · exact nomatch listed.symm.trans none
      · exact .inl (List.cons.inj (oldest.symm.trans one)).2
  · next nothing =>
      rcases short with none | ⟨only, one⟩
      · exact .inr none
      · refine .inr ?_
        cases free : pool.freeWorkers with
        | nil => rfl
        | cons worker idle => exact absurd one (nothing worker idle only [] free)

theorem Conserves.complete (conserves : pool.Conserves) : (pool.complete config).Conserves := by
  rw [Pool.complete]
  dsimp only
  split
  · next queue stored =>
      obtain ⟨-, same⟩ := Option.ite_none_right_eq_some.mp stored
      cases Option.some.inj same
      refine conserves_dispatch (conserves.symm.imp_right fun empty => ⟨pool.nextReq, ?_⟩)
      change pool.messages ++ [pool.nextReq] = [pool.nextReq]
      rw [empty, List.nil_append]
  · exact @Conserves.errResp { pool.setReq pool.nextReq _ with nextReq := _ } conserves _

theorem Conserves.setRatio (conserves : pool.Conserves) {pid : Nat} {after : Pool}
    (admitted : pool.setRatio config pid = some after) : after.Conserves := by
  rw [Pool.setRatio] at admitted
  split at admitted
  · cases Option.some.inj admitted
    exact @Conserves.stateMachine config { pool.setWkr pool.nextWkr _ with
      workers := _, nextWkr := _ } conserves _ _
  · exact nomatch admitted

theorem conserves_reload (order : pool.Order config none) :
    (pool.freeIdle.expireAll config).Conserves := by
  rw [expireAll_eq order.freeIdle.1.workers_room]
  exact .inr order.freeIdle.2

/-! ### Sound pools -/

/-- The pool as it is between two callbacks. -/
structure Sound (config : Config) (pool : Pool) : Prop where
  order : pool.Order config none
  conserves : pool.Conserves

namespace Sound

theorem empty : (Pool.empty config).Sound config where
  order := {
    workers_nodup := List.nodup_nil
    workers_room := Nat.zero_le _
    workers_below := fun _ member => absurd member List.not_mem_nil
    free_nodup := List.nodup_nil
    free_worker := fun _ member => absurd member List.not_mem_nil
    free_ready := fun _ member => absurd member List.not_mem_nil
    busy := fun _ member => absurd member List.not_mem_nil
    out_worker := nofun
    waiting := fun _ member => absurd member List.not_mem_nil
    live_known := nofun
    live_below := nofun
    lost := rfl
    queued_nodup := List.nodup_nil
    queued_below := fun _ member => absurd member List.not_mem_nil
    dropped_queued := fun _ member => absurd member List.not_mem_nil
    history := rfl }
  conserves := .inl rfl

theorem complete (sound : pool.Sound config) : (pool.complete config).Sound config :=
  ⟨sound.order.complete, sound.conserves.complete⟩

theorem errResp (sound : pool.Sound config) (live : (pool.req req).live = true) :
    (pool.errResp req).Sound config :=
  ⟨sound.order.errResp live, sound.conserves.errResp req⟩

theorem reqProcessed (sound : pool.Sound config) (registered : worker ∈ pool.workers)
    (serves : pool.Serves worker req) : (pool.reqProcessed config worker).Sound config :=
  ⟨sound.order.reqProcessed registered serves, sound.conserves.reqProcessed worker⟩

theorem waitStart (sound : pool.Sound config) (serves : pool.Serves worker req) :
    (pool.waitStart config worker).Sound config :=
  ⟨sound.order.waitStart serves, sound.conserves⟩

theorem act (sound : pool.Sound config) (registered : worker ∈ pool.workers) {action : WkrAction}
    (known : (action = .error ∨ action = .remove) ∨ action = .pingReplay ∨
      action = .pingTimeout) : (pool.stateMachine config worker action).Sound config := by
  have same : pool.setWkr worker (pool.wkr worker) = pool := by
    rw [setWkr, Function.update_eq_self]
  have order := sound.order.act registered (rfl : (pool.wkr worker).state = _) rfl known
  rw [same] at order
  exact ⟨order, sound.conserves.stateMachine worker action⟩

theorem waitCb (sound : pool.Sound config) (registered : worker ∈ pool.workers) :
    (pool.waitCb config worker).Sound config := by
  have state : ({ pool.wkr worker with tWait := (pool.wkr worker).tWait.stop } : Wkr).state =
      (pool.wkr worker).state := rfl
  refine ⟨sound.order.act registered state rfl (.inr (.inr rfl)), ?_⟩
  exact @Conserves.stateMachine config (pool.setWkr worker _) sound.conserves worker _

theorem wkrFree (sound : pool.Sound config) (registered : worker ∈ pool.workers) {wkr : Wkr}
    (same : wkr.req = (pool.wkr worker).req) :
    ((pool.setWkr worker wkr).wkrFree worker).Sound config :=
  ⟨sound.order.retire registered same,
    @Conserves.wkrFree (pool.setWkr worker wkr) sound.conserves worker⟩

theorem reload (sound : pool.Sound config) : (pool.freeIdle.expireAll config).Sound config :=
  ⟨sound.order.reload, conserves_reload sound.order⟩

theorem removeWkr (sound : pool.Sound config) (pid : Nat) : (pool.removeWkr pid).Sound config :=
  ⟨sound.order.removeWkr pid, sound.conserves.removeWkr pid⟩

theorem setRatio (sound : pool.Sound config) {pid : Nat} {after : Pool}
    (admitted : pool.setRatio config pid = some after) :
    (after.allocate config pool.nextWkr).Sound config := by
  obtain ⟨order, ready⟩ := sound.order.setRatio admitted
  exact ⟨order.allocate ready, (sound.conserves.setRatio admitted).allocate⟩

end Sound

end Pool
