import Webroar.Client.Connection

/-! # Requests whose connection has failed

When the client sends something that cannot be parsed while a worker uses its request, the request
is marked and the worker goes on with it. From then on what the worker does is meant to leave the
connection alone. It does so with everything but its own death.
-/

namespace Client

/-- The same requests with another connection. -/
def withConn (client : Client) (conn : Conn) : Client := { client with conn := conn }

/-- The request on whose behalf a callback runs. -/
def Event.subject : Event → Option Nat
  | .taken req | .head req _ _ | .part req _ | .death req | .removed req => some req
  | _ => none

/-- The callback neither reads nor writes the connection: whatever that is, the same becomes of the
requests, and the connection stays as it is. -/
def Apart (serverKeepAlive : Bool) (page : Nat → Status → List UInt8) (event : Event)
    (client : Client) : Prop :=
  ∀ conn, step serverKeepAlive page event (client.withConn conn) =
    (step serverKeepAlive page event client).map (·.withConn conn)

/-- The worker of the request dies. -/
def Event.Kills (event : Event) (client : Client) (req : Nat) : Prop :=
  client.executing = false ∧ client.Held req ∧
    match event with
    | .death dead => dead = req
    | .head dead announced _ => dead = req ∧ (client.reqs req).respBufLen = 0 ∧ announced = 0
    | .part dead read => dead = req ∧ (client.reqs req).respBufLen ≠ 0 ∧ read = []
    | _ => False

variable {serverKeepAlive : Bool} {page : Nat → Status → List UInt8} {client after : Client}
  {req : Nat}

/-! ### Where a request is -/

/-- A request that is being parsed is not queued yet, one that a worker has is not queued any more,
and only such a request can have failed. -/
structure Placed (current : Option Nat) (reqs : Nat → Req) : Prop where
  fresh : ∀ req, current = some req →
    (reqs req).queued = false ∧ (reqs req).wkr = false ∧ (reqs req).connErr = false
  served : ∀ req, (reqs req).wkr = true → (reqs req).queued = false
  failed : ∀ req, (reqs req).connErr = true → (reqs req).wkr = true

/-- The requests of a connection are where they belong. -/
def Tidy (client : Client) : Prop := Placed client.conn.currentRequest client.reqs

theorem Placed.forget {current : Option Nat} {reqs : Nat → Req} (placed : Placed current reqs) :
    Placed none reqs := ⟨nofun, placed.served, placed.failed⟩

theorem Placed.set {current : Option Nat} {reqs : Nat → Req} (placed : Placed current reqs)
    {record : Req}
    (fresh : current = some req →
      record.queued = false ∧ record.wkr = false ∧ record.connErr = false)
    (served : record.wkr = true → record.queued = false)
    (failed : record.connErr = true → record.wkr = true) :
    Placed current (Function.update reqs req record) := by
  constructor
  · intro other parsed
    by_cases same : other = req
    · subst same
      rw [Function.update_self]
      exact fresh parsed
    · rw [Function.update_of_ne same]
      exact placed.fresh other parsed
  · intro other
    by_cases same : other = req
    · subst same
      rw [Function.update_self]
      exact served
    · rw [Function.update_of_ne same]
      exact placed.served other
  · intro other
    by_cases same : other = req
    · subst same
      rw [Function.update_self]
      exact failed
    · rw [Function.update_of_ne same]
      exact placed.failed other

namespace Conn

variable {conn : Conn}

@[simp] theorem ebbWrite_current (bytes : List UInt8) :
    (conn.ebbWrite bytes).currentRequest = conn.currentRequest := by
  unfold ebbWrite
  split <;> rfl

@[simp] theorem add_current (piece : Piece) :
    (conn.add piece).currentRequest = conn.currentRequest := by
  unfold add
  split
  · exact ebbWrite_current _
  · rfl

theorem respBodyAdd_current {piece : Piece} {after : Conn}
    (added : conn.respBodyAdd piece = some after) :
    after.currentRequest = conn.currentRequest := by
  unfold respBodyAdd at added
  split at added
  · exact nomatch added
  · split at added
    · split at added
      · cases added
        rfl
      · cases added
        rfl
    · cases added
      exact add_current piece

@[simp] theorem scheduleClose_current :
    conn.scheduleClose.currentRequest = conn.currentRequest := by
  unfold scheduleClose closeCb
  split <;> rfl

@[simp] theorem afterWriteCb_current :
    (conn.afterWriteCb serverKeepAlive).currentRequest = conn.currentRequest := by
  unfold afterWriteCb
  dsimp only
  split
  · exact ebbWrite_current _
  · split
    · split
      · rfl
      · exact scheduleClose_current
    · rfl

@[simp] theorem release_current : conn.release.currentRequest = conn.currentRequest := by
  unfold release
  dsimp only
  split <;> rfl

end Conn

namespace Tidy

theorem withConn (tidy : client.Tidy) {conn : Conn}
    (same : conn.currentRequest = client.conn.currentRequest) : (client.withConn conn).Tidy := by
  unfold Tidy Client.withConn
  rw [same]
  exact tidy

theorem reqFree (tidy : client.Tidy) (freed : client.reqFree req = some after) : after.Tidy := by
  have forgotten : (client.forget req).Tidy :=
    tidy.set (fun parsed => tidy.fresh req parsed) (tidy.served req) (tidy.failed req)
  unfold Client.reqFree at freed
  split at freed
  · split at freed
    · cases freed
      exact forgotten
    · split at freed
      · exact nomatch freed
      · cases freed
        exact forgotten.withConn Conn.release_current
  · exact nomatch freed

theorem dropRequest (tidy : client.Tidy) (dropped : client.dropRequest = some after) :
    after.Tidy := by
  unfold Client.dropRequest at dropped
  split at dropped
  · exact nomatch dropped
  · split at dropped
    · cases dropped
      exact tidy
    · next req _ =>
        split at dropped
        · split at dropped
          · next busy =>
              have served := (Bool.and_eq_true _ _ ▸ busy).1
              cases dropped
              refine tidy.set (fun parsed => ?_) (tidy.served req) (fun _ => served)
              exact nomatch served.symm.trans (tidy.fresh req parsed).2.1
          · have removed : (client.setReq req { client.reqs req with queued := false }).Tidy :=
              tidy.set (fun parsed => ⟨rfl, (tidy.fresh req parsed).2⟩) (fun _ => rfl)
                (tidy.failed req)
            exact removed.reqFree dropped
        · exact nomatch dropped

theorem errResp {owner : Nat} {status : Status} (tidy : client.Tidy)
    (answered : client.errResp page owner status = some after) : after.Tidy := by
  unfold Client.errResp at answered
  split at answered
  · next conn added =>
      have same := Conn.respBodyAdd_current added
      exact (tidy.withConn same).dropRequest answered
  · exact nomatch answered

theorem reqInvalid {owner : Nat} {status : Status} (tidy : client.Tidy)
    (rejected : client.reqInvalid page owner status = some after) : after.Tidy := by
  unfold Client.reqInvalid at rejected
  split at rejected
  · exact nomatch rejected
  · have stopped : (client.withConn client.conn.stopRead).Tidy := tidy.forget
    exact stopped.errResp rejected

theorem newReqCb (tidy : client.Tidy) : client.newReqCb.Tidy := by
  unfold Client.newReqCb
  dsimp only
  split
  · exact tidy
  · have placed : Placed none (Function.update client.reqs client.nextReq Req.new) :=
      tidy.forget.set nofun (fun _ => rfl) (fun failed => nomatch failed)
    refine ⟨fun req parsed => ?_, placed.served, placed.failed⟩
    cases parsed
    have fresh : Function.update client.reqs client.nextReq Req.new client.nextReq = Req.new :=
      Function.update_self _ _ _
    change (Function.update client.reqs client.nextReq Req.new client.nextReq).queued = false ∧
      (Function.update client.reqs client.nextReq Req.new client.nextReq).wkr = false ∧
      (Function.update client.reqs client.nextReq Req.new client.nextReq).connErr = false
    rw [fresh]
    exact ⟨rfl, rfl, rfl⟩

theorem wkrFree (tidy : client.Tidy) (freed : client.wkrFree page req = some after) :
    after.Tidy := by
  have unused : (client.setReq req { client.reqs req with usingWkr := false }).Tidy :=
    tidy.set (fun parsed => tidy.fresh req parsed) (tidy.served req) (tidy.failed req)
  exact unused.errResp freed

theorem appFree (tidy : client.Tidy) (freed : client.appFree page req = some after) :
    after.Tidy := by
  have fetched : (client.setReq req { client.reqs req with queued := false }).Tidy :=
    tidy.set (fun parsed => ⟨rfl, (tidy.fresh req parsed).2⟩) (fun _ => rfl) (tidy.failed req)
  exact fetched.errResp freed

theorem take (tidy : client.Tidy) (waits : client.Waits req) : (client.take req).Tidy := by
  refine tidy.set (fun parsed => ?_) (fun _ => rfl) (fun _ => rfl)
  exact nomatch waits.2.symm.trans (tidy.fresh req parsed).1

theorem passOn {kind : Kind} {bytes : List UInt8} (tidy : client.Tidy)
    (passed : client.passOn req kind bytes = some after) : after.Tidy := by
  unfold Client.passOn at passed
  split at passed
  · cases passed
    exact tidy
  · split at passed
    · next conn added =>
        cases passed
        exact tidy.withConn (Conn.respBodyAdd_current added)
    · exact nomatch passed

theorem setReceived (tidy : client.Tidy) (length received : Nat) :
    (client.setReq req { client.reqs req with
      respBufLen := length, bytesReceived := received }).Tidy :=
  tidy.set (fun parsed => tidy.fresh req parsed) (tidy.served req) (tidy.failed req)

theorem setRespLen {announced : Nat} {body : List UInt8} (tidy : client.Tidy)
    (ran : client.setRespLen page req announced body = some after) : after.Tidy := by
  unfold Client.setRespLen at ran
  split at ran
  · exact tidy.wkrFree ran
  · dsimp only at ran
    have known := @setReceived client req tidy announced body.length
    generalize client.setReq req _ = known_ at *
    split at ran
    · next passed same =>
        have kept : passed.Tidy := by
          split at same
          · cases same
            exact known
          · exact known.passOn same
        split at ran
        · exact kept.reqFree ran
        · cases ran
          exact kept
    · exact nomatch ran

theorem respReadCb {read : List UInt8} (tidy : client.Tidy)
    (ran : client.respReadCb page req read = some after) : after.Tidy := by
  unfold Client.respReadCb at ran
  split at ran
  · exact tidy.wkrFree ran
  · dsimp only at ran
    have counted : (client.setReq req { client.reqs req with
        bytesReceived := (client.reqs req).bytesReceived + read.length }).Tidy :=
      tidy.set (fun parsed => tidy.fresh req parsed) (tidy.served req) (tidy.failed req)
    split at ran
    · next passed same =>
        have kept := counted.passOn same
        split at ran
        · exact kept.reqFree ran
        · cases ran
          exact kept
    · exact nomatch ran

theorem reqCompleteCb {keepAlive room taken : Bool} (tidy : client.Tidy)
    (fresh : client.conn.currentRequest = some req)
    (ran : client.reqCompleteCb page req keepAlive room taken = some after) :
    Placed none after.reqs := by
  obtain ⟨-, free, intact⟩ := tidy.fresh req fresh
  have counted : (client.withConn { client.conn with
      keepAlive := keepAlive, respToWrite := client.conn.respToWrite + 1 }).Tidy :=
    tidy.withConn rfl
  unfold Client.reqCompleteCb at ran
  split at ran
  · dsimp only at ran
    split at ran
    · split at ran
      · have queued : Placed none (Function.update client.reqs req
            { client.reqs req with queued := true }) :=
          tidy.forget.set nofun (fun served => nomatch free.symm.trans served)
            (fun failed => nomatch intact.symm.trans failed)
        cases ran
        cases taken with
        | true => exact queued.set nofun (fun _ => rfl) (fun _ => rfl)
        | false => exact queued
      · exact (counted.reqInvalid ran).forget
    · exact (counted.reqInvalid ran).forget
  · exact nomatch ran

theorem endRequest {keepAlive room taken : Bool} (tidy : client.Tidy)
    (ran : client.endRequest page keepAlive room taken = some after) : after.Tidy := by
  unfold Client.endRequest at ran
  dsimp only at ran
  split at ran
  · cases ran
    exact tidy.withConn rfl
  · next req parsed =>
      have between : (client.withConn { client.conn with parsing := none }).Tidy :=
        tidy.withConn rfl
      split at ran
      · next ended completed =>
          have placed := between.reqCompleteCb parsed completed
          cases ran
          exact placed
      · exact nomatch ran

theorem parse {callback : Nat → Option Client} (tidy : client.Tidy)
    (kept : ∀ req after, client.conn.currentRequest = some req → callback req = some after →
      after.Tidy)
    (ran : client.parse callback = some after) : after.Tidy := by
  unfold Client.parse at ran
  split at ran
  · next req parsed => exact kept req after parsed ran
  · cases ran
    exact tidy

theorem timeoutCb (tidy : client.Tidy) (ran : client.timeoutCb = some after) : after.Tidy := by
  unfold Client.timeoutCb at ran
  split at ran
  · cases ran
    exact tidy
  · split at ran
    · cases ran
      exact tidy.withConn Conn.scheduleClose_current
    · split at ran
      · next freed same =>
          cases ran
          exact (tidy.reqFree same).withConn Conn.scheduleClose_current
      · exact nomatch ran

theorem stepParser {event : Event} (tidy : client.Tidy)
    (ran : client.stepParser page event = some after) : after.Tidy := by
  unfold Client.stepParser at ran
  split at ran
  · split at ran
    · cases ran
      exact tidy.newReqCb
    · cases ran
      exact tidy
  · next app =>
      apply tidy.parse ?_ ran
      intro req after parsed resolved
      unfold resolve at resolved
      split at resolved
      · cases resolved
        exact tidy.set (fun _ => tidy.fresh req parsed) (tidy.served req) (tidy.failed req)
      · exact nomatch resolved
  · apply tidy.parse ?_ ran
    intro req after _ failed
    exact nomatch failed
  · exact tidy.parse (fun req after _ rejected => tidy.reqInvalid rejected) ran
  · split at ran
    · cases ran
      exact tidy
    · exact tidy.endRequest ran
  · cases ran
    exact tidy
  · unfold Client.parseErrCb at ran
    dsimp only at ran
    generalize client.faulty = owner at ran
    have counted : Tidy { client with
        executing := false
        nextReq := if owner = client.nextReq then client.nextReq + 1 else client.nextReq
        conn := { client.conn with keepAlive := false } } := tidy
    exact counted.reqInvalid ran
  · cases ran
    exact tidy

theorem stepOther {event : Event} (tidy : client.Tidy)
    (ran : client.stepOther serverKeepAlive page event = some after) : after.Tidy := by
  unfold Client.stepOther at ran
  split at ran
  · cases ran
    split <;> exact tidy
  · cases ran
    split
    · exact tidy.withConn Conn.afterWriteCb_current
    · exact tidy
  · cases ran
    split
    · exact tidy.withConn Conn.scheduleClose_current
    · exact tidy
  · split at ran
    · exact tidy.timeoutCb ran
    · cases ran
      exact tidy
  · cases ran
    split
    · next waits => exact tidy.take waits
    · exact tidy
  · split at ran
    · exact tidy.setRespLen ran
    · cases ran
      exact tidy
  · split at ran
    · exact tidy.respReadCb ran
    · cases ran
      exact tidy
  · split at ran
    · exact tidy.wkrFree ran
    · cases ran
      exact tidy
  · split at ran
    · exact tidy.appFree ran
    · cases ran
      exact tidy
  · cases ran
    exact tidy

theorem step (event : Event) (client after : Client) (tidy : client.Tidy)
    (ran : client.step serverKeepAlive page event = some after) : after.Tidy := by
  unfold Client.step at ran
  split at ran
  · exact tidy.stepParser ran
  · exact tidy.stepOther ran

end Tidy

theorem tidy_after (input : Nat → Event) (count : Nat) (client : Client)
    (reached : Client.after serverKeepAlive page input count = some client) : client.Tidy := by
  have begins : accepted.Tidy := ⟨nofun, fun _ _ => rfl, fun _ failed => nomatch failed⟩
  exact Machine.attempt_invariant Tidy begins Tidy.step count client reached

/-! ### What a worker does with such a request -/

theorem passOn_failed {kind : Kind} {bytes : List UInt8}
    (failed : (client.reqs req).connErr = true) : client.passOn req kind bytes = some client :=
  if_pos failed

theorem reqFree_failed (failed : (client.reqs req).connErr = true)
    (live : (client.reqs req).live = true) : client.reqFree req = some (client.forget req) := by
  unfold reqFree
  rw [if_pos live, if_pos failed]

/-- A request that failed can be finished without its connection. -/
theorem setRespLen_failed {announced : Nat} {body : List UInt8}
    (failed : (client.reqs req).connErr = true) (live : (client.reqs req).live = true)
    (some : announced ≠ 0) :
    client.setRespLen page req announced body =
      let known := client.setReq req { client.reqs req with
        respBufLen := announced, bytesReceived := body.length }
      Option.some (if announced = body.length then known.forget req else known) := by
  unfold setRespLen
  rw [if_neg some]
  dsimp only
  have record : (client.setReq req { client.reqs req with
      respBufLen := announced, bytesReceived := body.length }).reqs req =
      { client.reqs req with respBufLen := announced, bytesReceived := body.length } :=
    Function.update_self _ _ _
  have fails := (congrArg Req.connErr record).trans failed
  have lives := (congrArg Req.live record).trans live
  generalize client.setReq req _ = known at *
  rw [passOn_failed fails, ite_self]
  dsimp only
  rw [reqFree_failed fails lives]
  split <;> rfl

theorem respReadCb_failed {read : List UInt8} (failed : (client.reqs req).connErr = true)
    (live : (client.reqs req).live = true) (some : read ≠ []) :
    client.respReadCb page req read =
      let received := (client.reqs req).bytesReceived + read.length
      let counted := client.setReq req { client.reqs req with bytesReceived := received }
      Option.some (if (client.reqs req).respBufLen ≤ received then counted.forget req
        else counted) := by
  unfold respReadCb
  rw [if_neg some]
  dsimp only
  have record : (client.setReq req { client.reqs req with
      bytesReceived := (client.reqs req).bytesReceived + read.length }).reqs req =
      { client.reqs req with
        bytesReceived := (client.reqs req).bytesReceived + read.length } :=
    Function.update_self _ _ _
  have fails := (congrArg Req.connErr record).trans failed
  have lives := (congrArg Req.live record).trans live
  generalize client.setReq req _ = counted at *
  rw [passOn_failed fails]
  dsimp only
  rw [reqFree_failed fails lives]
  split <;> rfl

theorem kills_step {event : Event} (kills : event.Kills client req) :
    client.step serverKeepAlive page event = client.wkrFree page req := by
  obtain ⟨idle, held, due⟩ := kills
  unfold step
  rw [idle, if_neg Bool.false_ne_true]
  cases event with
  | death dead =>
      cases due
      exact if_pos held
  | head dead announced body =>
      obtain ⟨rfl, unread, rfl⟩ := due
      unfold stepOther
      dsimp only
      rw [if_pos ⟨held, unread⟩]
      exact if_pos rfl
  | part dead read =>
      obtain ⟨rfl, known, rfl⟩ := due
      unfold stepOther
      dsimp only
      rw [if_pos ⟨held, known⟩]
      exact if_pos rfl
  | _ => exact due.elim

/-- When the worker dies the connection is used, so that it matters whether it is still there. -/
theorem kills_not_apart {event : Event} (kills : event.Kills client req) :
    ¬ Apart serverKeepAlive page event client := by
  intro apart
  have other : ∀ conn, event.Kills (client.withConn conn) req := fun conn => kills
  have gone := apart { client.conn with freed := true }
  rw [kills_step (other _)] at gone
  have fails : client.step serverKeepAlive page event = none :=
    Option.map_eq_none_iff.mp gone.symm
  have stands := apart accepted.conn
  rw [kills_step (other _), fails] at stands
  exact nomatch stands

theorem apart_of_unkilled {event : Event} (tidy : client.Tidy)
    (failed : (client.reqs req).connErr = true) (subject : event.subject = some req)
    (unkilled : ¬ event.Kills client req) : Apart serverKeepAlive page event client := by
  have unqueued := tidy.served req (tidy.failed req failed)
  have waits : ¬ client.Waits req := fun waits => nomatch unqueued.symm.trans waits.2
  intro conn
  unfold step
  cases idle : client.executing with
  | true =>
      have busy : (client.withConn conn).executing = true := idle
      rw [busy, if_pos rfl, if_pos rfl]
      cases event <;> first | rfl | exact nomatch subject
  | false =>
      have same : (client.withConn conn).executing = false := idle
      rw [same, if_neg Bool.false_ne_true, if_neg Bool.false_ne_true]
      cases event with
      | taken _ =>
          cases subject
          unfold stepOther
          dsimp only
          have other : ¬ (client.withConn conn).Waits req := waits
          rw [if_neg waits, if_neg other]
          rfl
      | removed _ =>
          cases subject
          have other : ¬ (client.withConn conn).Waits req := waits
          unfold stepOther
          dsimp only
          rw [if_neg waits, if_neg other]
          rfl
      | death _ =>
          cases subject
          have unheld : ¬ client.Held req := fun held => unkilled ⟨idle, held, rfl⟩
          have other : ¬ (client.withConn conn).Held req := unheld
          unfold stepOther
          dsimp only
          rw [if_neg unheld, if_neg other]
          rfl
      | head _ announced body =>
          cases subject
          unfold stepOther
          dsimp only
          by_cases due : client.Held req ∧ (client.reqs req).respBufLen = 0
          · have announces : announced ≠ 0 := fun none =>
              unkilled ⟨idle, due.1, rfl, due.2, none⟩
            have other : (client.withConn conn).Held req ∧
                ((client.withConn conn).reqs req).respBufLen = 0 := due
            have fails : ((client.withConn conn).reqs req).connErr = true := failed
            rw [if_pos due, if_pos other, setRespLen_failed failed due.1.1 announces,
              setRespLen_failed fails due.1.1 announces]
            dsimp only
            split <;> rfl
          · have other : ¬ ((client.withConn conn).Held req ∧
                ((client.withConn conn).reqs req).respBufLen = 0) := due
            rw [if_neg due, if_neg other]
            rfl
      | part _ read =>
          cases subject
          unfold stepOther
          dsimp only
          by_cases due : client.Held req ∧ (client.reqs req).respBufLen ≠ 0
          · have reads : read ≠ [] := fun none => unkilled ⟨idle, due.1, rfl, due.2, none⟩
            have other : (client.withConn conn).Held req ∧
                ((client.withConn conn).reqs req).respBufLen ≠ 0 := due
            have fails : ((client.withConn conn).reqs req).connErr = true := failed
            rw [if_pos due, if_pos other, respReadCb_failed failed due.1.1 reads,
              respReadCb_failed fails due.1.1 reads]
            dsimp only
            split <;> split <;> first | rfl | contradiction
          · have other : ¬ ((client.withConn conn).Held req ∧
                ((client.withConn conn).reqs req).respBufLen ≠ 0) := due
            rw [if_neg due, if_neg other]
            rfl
      | _ => exact nomatch subject

/-! ### Runs -/

/-- In every state of the run, what is done next on behalf of a request whose connection has failed
leaves the connection alone. -/
def FailedApart (serverKeepAlive : Bool) (page : Nat → Status → List UInt8)
    (input : Nat → Event) : Prop :=
  ∀ count client, Client.after serverKeepAlive page input count = some client →
    ∀ req, (client.reqs req).connErr = true → (input count).subject = some req →
      Apart serverKeepAlive page (input count) client

/-- No worker dies while it uses a request whose connection has failed. -/
def Outlived (serverKeepAlive : Bool) (page : Nat → Status → List UInt8)
    (input : Nat → Event) : Prop :=
  ∀ count client, Client.after serverKeepAlive page input count = some client →
    ∀ req, (client.reqs req).connErr = true → ¬ (input count).Kills client req

theorem kills_subject {event : Event} (kills : event.Kills client req) :
    event.subject = some req := by
  obtain ⟨-, -, due⟩ := kills
  cases event with
  | death dead => exact congrArg some due
  | head dead announced body => exact congrArg some due.1
  | part dead read => exact congrArg some due.1
  | _ => exact due.elim

theorem failed_apart_iff (serverKeepAlive : Bool) (page : Nat → Status → List UInt8)
    (input : Nat → Event) :
    FailedApart serverKeepAlive page input ↔ Outlived serverKeepAlive page input := by
  constructor
  · intro apart count client reached req failed kills
    exact kills_not_apart kills (apart count client reached req failed (kills_subject kills))
  · intro outlived count client reached req failed subject
    have tidy := tidy_after input count client reached
    exact apart_of_unkilled tidy failed subject (outlived count client reached req failed)

/-- A request is with its worker when the client sends something that cannot be parsed; the page
that says so is written and the connection closed, and then the worker dies. -/
def orphanInput : Nat → Event
  | 0 => .readable
  | 1 => .start
  | 2 => .headers true
  | 3 => .finish true true true
  | 4 => .consumed
  | 5 => .readable
  | 6 => .parseError
  | 7 => .written
  | _ => .death 0

theorem failed_not_apart : ¬ FailedApart true (fun _ _ => [0]) orphanInput := by
  intro apart
  have state : ∃ client, Client.after true (fun _ _ => [0]) orphanInput 8 = some client ∧
      client.executing = false ∧ client.Held 0 ∧ (client.reqs 0).connErr = true := by
    refine ⟨_, rfl, ?_⟩
    decide +kernel
  obtain ⟨client, reached, idle, held, failed⟩ := state
  have kills : (orphanInput 8).Kills client 0 := ⟨idle, held, rfl⟩
  exact kills_not_apart kills (apart 8 client reached 0 failed rfl)

end Client
