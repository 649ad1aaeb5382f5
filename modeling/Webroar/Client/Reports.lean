import Webroar.Client.Account

/-! # When an error is reported

`wr_conn_err_resp` is called while a request is parsed, for one that waits, and for one that a
worker uses. Here is which of the callbacks call it and in which state, and what holds then of the
connection and its requests in whatever run.
-/

namespace Client

/-- The status with which the callback calls `wr_conn_err_resp`, if it does. -/
def Event.reports (event : Event) (client : Client) : Option Status :=
  if client.executing then
    match event with
    | .reject status => client.conn.currentRequest.map fun _ => status
    | .finish _ room _ =>
        if client.conn.parsing = none then none
        else
          client.conn.currentRequest.bind fun req =>
            if (client.reqs req).live then
              if (client.reqs req).app then if room then none else some .status503
              else some .status404
            else none
    | .parseError => some .status400
    | _ => none
  else
    match event with
    | .head req announced _ =>
        if (client.Held req ∧ (client.reqs req).respBufLen = 0) ∧ announced = 0 then
          some .status500
        else none
    | .part req read =>
        if (client.Held req ∧ (client.reqs req).respBufLen ≠ 0) ∧ read = [] then
          some .status500
        else none
    | .death req => if client.Held req then some .status500 else none
    | .removed req => if client.Waits req then some .status500 else none
    | _ => none

/-- A step of a request: it may be freed or be taken by a worker, but is not made, nor is the length
of its response set. -/
structure Req.Leads (record after : Req) : Prop where
  live : after.live = true → record.live = true
  length : after.respBufLen = record.respBufLen
  served : record.wkr = true → after.wkr = true

/-- So it is with all requests. -/
def Leads (client after : Client) : Prop := ∀ req, (client.reqs req).Leads (after.reqs req)

/-- What `wr_conn_err_resp` reads is as it was before the callback. -/
structure Reads (before client : Client) : Prop where
  req : before.conn.req = client.conn.req
  freed : before.conn.freed = client.conn.freed
  leads : client.Leads before
  live : ∀ req, (before.reqs req).live = (client.reqs req).live

variable {serverKeepAlive : Bool} {page : Nat → Status → List UInt8} {client after : Client}
  {req : Nat}

/-! ### The calls -/

theorem Req.Leads.refl (record : Req) : record.Leads record := ⟨id, rfl, id⟩

theorem Leads.refl (client : Client) : client.Leads client := fun req => .refl (client.reqs req)

theorem Leads.trans {between : Client} (first : client.Leads between)
    (second : between.Leads after) : client.Leads after := fun req =>
  ⟨(first req).live ∘ (second req).live, (second req).length.trans (first req).length,
    (second req).served ∘ (first req).served⟩

theorem Leads.setReq {record : Req} (leads : (client.reqs req).Leads record) :
    client.Leads (client.setReq req record) := by
  intro other
  unfold Client.setReq
  dsimp only
  by_cases same : other = req
  · subst same
    rw [Function.update_self]
    exact leads
  · rw [Function.update_of_ne same]
    exact .refl _

theorem Reads.setReq {record : Req} (leads : (client.reqs req).Leads record)
    (live : record.live = (client.reqs req).live) : (client.setReq req record).Reads client := by
  refine ⟨rfl, rfl, .setReq leads, fun other => ?_⟩
  unfold Client.setReq
  dsimp only
  by_cases same : other = req
  · subst same
    rw [Function.update_self]
    exact live
  · rw [Function.update_of_ne same]

/-- A callback that reports an error calls `wr_conn_err_resp`, and all it does behind that is to
leave the request to the parser no more. -/
def Calls (serverKeepAlive : Bool) (page : Nat → Status → List UInt8) (event : Event)
    (client : Client) (status : Status) : Prop :=
  ∃ (before : Client) (owner : Nat), before.Reads client ∧
    (client.step serverKeepAlive page event = before.errResp page owner status ∨
      client.step serverKeepAlive page event = (before.errResp page owner status).map
        fun after => { after with conn := { after.conn with currentRequest := none } })

theorem reqInvalid_calls (kept : client.conn.freed = false) (owner : Nat) (status : Status) :
    client.reqInvalid page owner status =
      { client with conn := client.conn.stopRead }.errResp page owner status := by
  unfold reqInvalid
  rw [kept, if_neg Bool.false_ne_true]

/-- The connection when its request is complete. -/
def Conn.finished (conn : Conn) (keepAlive : Bool) : Conn :=
  { conn with parsing := none, keepAlive := keepAlive, respToWrite := conn.respToWrite + 1 }

/-- A request without an application, or without room in its queue, is turned away when it is
complete. -/
theorem endRequest_refused (kept : client.conn.freed = false) {keepAlive room taken : Bool}
    {status : Status} (current : client.conn.currentRequest = some req)
    (live : (client.reqs req).live = true)
    (turns : (if (client.reqs req).app then if room then none else some Status.status503
      else some .status404) = some status) :
    client.endRequest page keepAlive room taken =
      ({ client with conn := (client.conn.finished keepAlive).stopRead }.errResp page req
        status).map
          fun (after : Client) =>
            { after with conn := { after.conn with currentRequest := none } } := by
  have away : { client with conn := { client.conn with parsing := none } }.reqCompleteCb page req
      keepAlive room taken =
        { client with conn := (client.conn.finished keepAlive).stopRead }.errResp page req
          status := by
    have invalid := @reqInvalid_calls page
      { client with conn := client.conn.finished keepAlive } kept req status
    unfold reqCompleteCb
    rw [if_pos live]
    dsimp only
    split at turns
    · next known =>
        split at turns
        · exact nomatch turns
        · next full =>
            cases turns
            rw [if_pos known, if_neg full]
            exact invalid
    · next unknown =>
        cases turns
        rw [if_neg unknown]
        exact invalid
  unfold endRequest
  dsimp only at away ⊢
  rw [current] at away ⊢
  dsimp only
  rw [away]
  split <;> next same => rw [same]; rfl

/-- The connection when the parser fails. -/
def struck (client : Client) : Client :=
  { client with
    executing := false
    nextReq := if client.faulty = client.nextReq then client.nextReq + 1 else client.nextReq
    conn := { client.conn with keepAlive := false } }

/-- When a worker dies that uses a request. -/
theorem calls_of_kills {event : Event} (kills : event.Kills client req) :
    Calls serverKeepAlive page event client .status500 := by
  refine ⟨client.setReq req { client.reqs req with usingWkr := false }, req, ?_,
    .inl (kills_step kills)⟩
  exact .setReq ⟨id, rfl, id⟩ rfl

theorem reports_calls {event : Event} {status : Status}
    (kept : client.executing = true → client.conn.freed = false)
    (reports : event.reports client = some status) :
    Calls serverKeepAlive page event client status := by
  unfold Event.reports at reports
  cases executing : client.executing with
  | true =>
      have kept := kept executing
      rw [executing, if_pos rfl] at reports
      unfold Calls Client.step
      rw [executing, if_pos rfl]
      cases event with
      | reject other =>
          dsimp only at reports
          obtain ⟨req, current, same⟩ := Option.map_eq_some_iff.mp reports
          cases same
          refine ⟨{ client with conn := client.conn.stopRead }, req,
            ⟨rfl, rfl, .refl client, fun _ => rfl⟩, .inl ?_⟩
          unfold stepParser parse
          dsimp only
          rw [current]
          exact reqInvalid_calls kept req status
      | finish keepAlive room taken =>
          dsimp only at reports
          split at reports
          · exact nomatch reports
          · next text =>
              obtain ⟨req, current, turns⟩ := Option.bind_eq_some_iff.mp reports
              split at turns
              · next live =>
                  refine ⟨{ client with conn := (client.conn.finished keepAlive).stopRead }, req,
                    ⟨rfl, rfl, .refl client, fun _ => rfl⟩, .inr ?_⟩
                  unfold stepParser
                  dsimp only
                  rw [if_neg text]
                  exact endRequest_refused kept current live turns
              · exact nomatch turns
      | parseError =>
          cases reports
          refine ⟨{ client.struck with conn := client.struck.conn.stopRead }, client.faulty, ?_,
            .inl ?_⟩
          · exact ⟨rfl, rfl, .refl client, fun _ => rfl⟩
          · have invalid := @reqInvalid_calls page client.struck kept client.faulty .status400
            exact invalid
      | _ => exact nomatch reports
  | false =>
      rw [executing, if_neg Bool.false_ne_true] at reports
      cases event with
      | head req announced body =>
          dsimp only at reports
          split at reports
          · next due =>
              cases reports
              exact calls_of_kills ⟨executing, due.1.1, rfl, due.1.2, due.2⟩
          · exact nomatch reports
      | part req read =>
          dsimp only at reports
          split at reports
          · next due =>
              cases reports
              exact calls_of_kills ⟨executing, due.1.1, rfl, due.1.2, due.2⟩
          · exact nomatch reports
      | death req =>
          dsimp only at reports
          split at reports
          · next held =>
              cases reports
              exact calls_of_kills ⟨executing, held, rfl⟩
          · exact nomatch reports
      | removed req =>
          dsimp only at reports
          split at reports
          · next waits =>
              cases reports
              refine ⟨client.setReq req { client.reqs req with queued := false }, req,
                .setReq ⟨id, rfl, id⟩ rfl, .inl ?_⟩
              unfold Client.step
              rw [executing, if_neg Bool.false_ne_true]
              unfold stepOther
              dsimp only
              rw [if_pos waits]
              rfl
          · exact nomatch reports
      | _ => exact nomatch reports

/-- A request that is not turned away gets no page. -/
theorem endRequest_accepted {keepAlive room taken : Bool} (other : Nat → Status → List UInt8)
    (goes : (client.conn.currentRequest.bind fun req =>
      if (client.reqs req).live then
        if (client.reqs req).app then if room then none else some Status.status503
        else some .status404
      else none) = none) :
    client.endRequest page keepAlive room taken = client.endRequest other keepAlive room taken := by
  unfold endRequest
  dsimp only
  split
  · rfl
  · next req current =>
      rw [current, Option.bind_some] at goes
      unfold reqCompleteCb
      dsimp only
      by_cases live : (client.reqs req).live = true
      · rw [if_pos live] at goes
        by_cases known : (client.reqs req).app = true
        · rw [if_pos known] at goes
          by_cases room : room = true
          · rw [if_pos known, if_pos known, if_pos room, if_pos room]
          · rw [if_neg room] at goes
            exact nomatch goes
        · rw [if_neg known] at goes
          exact nomatch goes
      · rw [if_neg live, if_neg live]

/-- Any other callback does not call `wr_conn_err_resp`: no page makes a difference. -/
theorem step_unreported {event : Event} (unreported : event.reports client = none)
    (other : Nat → Status → List UInt8) :
    client.step serverKeepAlive page event = client.step serverKeepAlive other event := by
  unfold Event.reports at unreported
  unfold Client.step
  cases executing : client.executing with
  | true =>
      rw [executing, if_pos rfl] at unreported
      rw [if_pos rfl, if_pos rfl]
      unfold stepParser
      cases event with
      | reject status =>
          unfold parse
          dsimp only
          rw [Option.map_eq_none_iff.mp unreported]
      | finish keepAlive room taken =>
          dsimp only at unreported ⊢
          split at unreported
          · next between => rw [if_pos between, if_pos between]
          · next text =>
              rw [if_neg text, if_neg text]
              exact endRequest_accepted other unreported
      | parseError => exact nomatch unreported
      | _ => rfl
  | false =>
      rw [executing, if_neg Bool.false_ne_true] at unreported
      rw [if_neg Bool.false_ne_true, if_neg Bool.false_ne_true]
      unfold stepOther
      cases event with
      | head req announced body =>
          dsimp only at unreported ⊢
          by_cases due : client.Held req ∧ (client.reqs req).respBufLen = 0
          · have some : announced ≠ 0 := fun none => by
              rw [if_pos ⟨due, none⟩] at unreported
              exact nomatch unreported
            rw [if_pos due, if_pos due]
            unfold setRespLen
            rw [if_neg some, if_neg some]
          · rw [if_neg due, if_neg due]
      | part req read =>
          dsimp only at unreported ⊢
          by_cases due : client.Held req ∧ (client.reqs req).respBufLen ≠ 0
          · have some : read ≠ [] := fun none => by
              rw [if_pos ⟨due, none⟩] at unreported
              exact nomatch unreported
            rw [if_pos due, if_pos due]
            unfold respReadCb
            rw [if_neg some, if_neg some]
          · rw [if_neg due, if_neg due]
      | death req =>
          dsimp only at unreported ⊢
          by_cases held : client.Held req
          · rw [if_pos held] at unreported
            exact nomatch unreported
          · rw [if_neg held, if_neg held]
      | removed req =>
          dsimp only at unreported ⊢
          by_cases waits : client.Waits req
          · rw [if_pos waits] at unreported
            exact nomatch unreported
          · rw [if_neg waits, if_neg waits]
      | _ => rfl

/-! ### What a callback leaves of the requests -/

theorem Leads.forget : client.Leads (client.forget req) := .setReq ⟨nofun, rfl, id⟩

theorem Leads.reqFree (freed : client.reqFree req = some after) : client.Leads after := by
  unfold Client.reqFree at freed
  split at freed
  · split at freed
    · cases freed
      exact .forget
    · split at freed
      · exact nomatch freed
      · cases freed
        exact Leads.forget
  · exact nomatch freed

theorem Leads.dropRequest (dropped : client.dropRequest = some after) : client.Leads after := by
  unfold Client.dropRequest at dropped
  split at dropped
  · exact nomatch dropped
  · split at dropped
    · cases dropped
      exact .refl client
    · split at dropped
      · split at dropped
        · cases dropped
          exact Leads.setReq ⟨id, rfl, id⟩
        · next req _ _ _ =>
            have unqueued : client.Leads (client.setReq req
                { client.reqs req with queued := false }) := .setReq ⟨id, rfl, id⟩
            exact unqueued.trans (.reqFree dropped)
      · exact nomatch dropped

theorem Leads.errResp {owner : Nat} {status : Status}
    (reported : client.errResp page owner status = some after) : client.Leads after := by
  unfold Client.errResp at reported
  split at reported
  · have dropped := Leads.dropRequest reported
    exact fun req => dropped req
  · exact nomatch reported

/-- What happens to the connection alone. -/
theorem Leads.withConn {conn : Conn} (leads : (client.withConn conn).Leads after) :
    client.Leads after := fun req => leads req

theorem Leads.reqInvalid {owner : Nat} {status : Status}
    (ran : client.reqInvalid page owner status = some after) : client.Leads after := by
  unfold Client.reqInvalid at ran
  split at ran
  · exact nomatch ran
  · exact (Leads.errResp ran).withConn

theorem Leads.take : client.Leads (client.take req) := .setReq ⟨id, rfl, fun _ => rfl⟩

theorem Leads.reqCompleteCb {keepAlive room taken : Bool}
    (ran : client.reqCompleteCb page req keepAlive room taken = some after) :
    client.Leads after := by
  unfold Client.reqCompleteCb at ran
  split at ran
  · dsimp only at ran
    split at ran
    · split at ran
      · cases ran
        have queued : client.Leads (client.setReq req { client.reqs req with queued := true }) :=
          .setReq ⟨id, rfl, id⟩
        have served := queued.trans (@Leads.take _ req)
        split
        · exact fun other => served other
        · exact fun other => queued other
      · have leads := Leads.reqInvalid ran
        exact fun other => leads other
    · have leads := Leads.reqInvalid ran
      exact fun other => leads other
  · exact nomatch ran

theorem Leads.endRequest {keepAlive room taken : Bool}
    (ran : client.endRequest page keepAlive room taken = some after) : client.Leads after := by
  unfold Client.endRequest at ran
  dsimp only at ran
  split at ran
  · cases ran
    exact fun req => .refl (client.reqs req)
  · split at ran
    · next completed =>
        cases ran
        have leads := Leads.reqCompleteCb completed
        exact fun req => leads req
    · exact nomatch ran

theorem Leads.timeoutCb (ran : client.timeoutCb = some after) : client.Leads after := by
  unfold Client.timeoutCb at ran
  split at ran
  · cases ran
    exact .refl client
  · split at ran
    · cases ran
      exact fun req => .refl (client.reqs req)
    · split at ran
      · next freed =>
          cases ran
          have leads := Leads.reqFree freed
          exact fun req => leads req
      · exact nomatch ran

theorem Leads.wkrFree (ran : client.wkrFree page req = some after) : client.Leads after := by
  have parted : client.Leads (client.setReq req { client.reqs req with usingWkr := false }) :=
    .setReq ⟨id, rfl, id⟩
  exact parted.trans (.errResp ran)

theorem Leads.passOn {kind : Kind} {bytes : List UInt8}
    (ran : client.passOn req kind bytes = some after) : client.Leads after := by
  unfold Client.passOn at ran
  split at ran
  · cases ran
    exact .refl client
  · split at ran
    · cases ran
      exact fun req => .refl (client.reqs req)
    · exact nomatch ran

/-- The bytes are passed on and the request is freed if they were the last. -/
theorem Leads.deliver {kind : Kind} {bytes : List UInt8} {between : Client} {ended : Prop}
    [Decidable ended] (passed : client.passOn req kind bytes = some between)
    (ran : (if ended then between.reqFree req else some between) = some after) :
    client.Leads after := by
  split at ran
  · exact (Leads.passOn passed).trans (.reqFree ran)
  · cases ran
    exact .passOn passed

theorem Leads.respReadCb {read : List UInt8} (ran : client.respReadCb page req read = some after) :
    client.Leads after := by
  unfold Client.respReadCb at ran
  split at ran
  · exact .wkrFree ran
  · dsimp only at ran
    have counted : client.Leads (client.setReq req { client.reqs req with
        bytesReceived := (client.reqs req).bytesReceived + read.length }) := .setReq ⟨id, rfl, id⟩
    split at ran
    · next passed => exact counted.trans (.deliver passed ran)
    · exact nomatch ran

/-- The request with the length of its response. -/
def announce (client : Client) (req announced : Nat) (body : List UInt8) : Client :=
  client.setReq req { client.reqs req with respBufLen := announced, bytesReceived := body.length }

theorem announce_of_ne {other announced : Nat} {body : List UInt8} (differs : other ≠ req) :
    (client.announce req announced body).reqs other = client.reqs other :=
  Function.update_of_ne differs _ _

theorem announce_self {announced : Nat} {body : List UInt8} :
    (client.announce req announced body).reqs req =
      { client.reqs req with respBufLen := announced, bytesReceived := body.length } :=
  Function.update_self _ _ _

theorem Leads.setRespLen {announced : Nat} {body : List UInt8} (some : announced ≠ 0)
    (ran : client.setRespLen page req announced body = Option.some after) :
    (client.announce req announced body).Leads after := by
  unfold Client.setRespLen at ran
  rw [if_neg some] at ran
  dsimp only at ran
  split at ran
  · next between passed =>
      split at passed
      · cases passed
        split at ran
        · exact .reqFree ran
        · cases ran
          exact .refl _
      · exact .deliver passed ran
  · exact nomatch ran

theorem Leads.appFree (ran : client.appFree page req = some after) : client.Leads after := by
  have unqueued : client.Leads (client.setReq req { client.reqs req with queued := false }) :=
    .setReq ⟨id, rfl, id⟩
  exact unqueued.trans (.errResp ran)

/-- What a callback does to the requests: one is made when the parser finds its beginning, and the
length of the response becomes known when the worker announces one. -/
inductive Event.Changes (event : Event) (client after : Client) : Prop
  | leads (leads : client.Leads after)
  | begins (same : event = .start) (executing : client.executing = true)
      (between : client.conn.parsing = none) (unowed : ¬ 0 < client.conn.respToWrite)
      (reqs : after.reqs = Function.update client.reqs client.nextReq Req.new)
  | announces (req announced : Nat) (body : List UInt8) (same : event = .head req announced body)
      (held : client.Held req) (some : announced ≠ 0)
      (leads : (client.announce req announced body).Leads after)

theorem changes_stepParser {event : Event} (executing : client.executing = true)
    (ran : client.stepParser page event = some after) : event.Changes client after := by
  unfold Client.stepParser at ran
  cases event with
  | start =>
      dsimp only at ran
      split at ran
      · next between =>
          cases ran
          unfold newReqCb
          split
          · exact .leads fun req => .refl (client.reqs req)
          · next unowed => exact .begins rfl executing between unowed rfl
      · cases ran
        exact .leads (.refl client)
  | headers app =>
      dsimp only at ran
      unfold parse at ran
      split at ran
      · unfold resolve at ran
        dsimp only at ran
        split at ran
        · cases ran
          exact .leads (.setReq ⟨id, rfl, id⟩)
        · exact nomatch ran
      · cases ran
        exact .leads (.refl client)
  | tempFail =>
      dsimp only at ran
      unfold parse at ran
      split at ran
      · exact nomatch ran
      · cases ran
        exact .leads (.refl client)
  | reject status =>
      dsimp only at ran
      unfold parse at ran
      split at ran
      · exact .leads (.reqInvalid ran)
      · cases ran
        exact .leads (.refl client)
  | finish keepAlive room taken =>
      dsimp only at ran
      split at ran
      · cases ran
        exact .leads (.refl client)
      · exact .leads (.endRequest ran)
  | consumed =>
      cases ran
      exact .leads fun req => .refl (client.reqs req)
  | parseError =>
      have leads := @Leads.reqInvalid page client.struck after _ _ ran
      exact .leads fun req => leads req
  | _ =>
      cases ran
      exact .leads (.refl client)

theorem changes_stepOther {event : Event}
    (ran : client.stepOther serverKeepAlive page event = some after) :
    event.Changes client after := by
  unfold Client.stepOther at ran
  cases event with
  | timeout =>
      dsimp only at ran
      split at ran
      · exact .leads (.timeoutCb ran)
      · cases ran
        exact .leads (.refl client)
  | taken req =>
      cases ran
      split
      · exact .leads .take
      · exact .leads (.refl client)
  | head req announced body =>
      dsimp only at ran
      split at ran
      · next due =>
          by_cases none : announced = 0
          · unfold setRespLen at ran
            rw [if_pos none] at ran
            exact .leads (.wkrFree ran)
          · exact .announces req announced body rfl due.1 none (.setRespLen none ran)
      · cases ran
        exact .leads (.refl client)
  | part req read =>
      dsimp only at ran
      split at ran
      · exact .leads (.respReadCb ran)
      · cases ran
        exact .leads (.refl client)
  | death req =>
      dsimp only at ran
      split at ran
      · exact .leads (.wkrFree ran)
      · cases ran
        exact .leads (.refl client)
  | removed req =>
      dsimp only at ran
      split at ran
      · exact .leads (.appFree ran)
      · cases ran
        exact .leads (.refl client)
  | _ =>
      cases ran
      first
        | exact .leads (.refl client)
        | split <;> exact .leads fun req => .refl (client.reqs req)

theorem changes_step {event : Event}
    (ran : client.step serverKeepAlive page event = some after) : event.Changes client after := by
  unfold Client.step at ran
  split at ran
  · next executing => exact changes_stepParser executing ran
  · exact changes_stepOther ran

theorem Conn.respBodyAdd_req {conn other : Conn} {piece : Piece}
    (added : conn.respBodyAdd piece = some other) : other.req = conn.req := by
  unfold respBodyAdd at added
  split at added
  · exact nomatch added
  · split at added
    · split at added <;> cases added <;> rfl
    · cases added
      obtain ⟨toWrite, writes, same⟩ := conn.add_eq piece
      rw [same]

/-- The page for a request that no worker uses is the end of it. -/
theorem errResp_dead (own : client.conn.req = some req) (unused : (client.reqs req).wkr = false)
    (intact : (client.reqs req).connErr = false) {owner : Nat} {status : Status}
    (ran : client.errResp page owner status = some after) : (after.reqs req).live = false := by
  unfold errResp at ran
  split at ran
  · next conn added =>
      have same : conn.req = some req := (Conn.respBodyAdd_req added).trans own
      unfold dropRequest at ran
      dsimp only at ran
      rw [same] at ran
      split at ran
      · exact nomatch ran
      · dsimp only at ran
        rw [unused, Bool.false_and, if_neg Bool.false_ne_true] at ran
        split at ran
        · unfold reqFree at ran
          split at ran
          · split at ran
            · next failed =>
                have marked : (client.reqs req).connErr = true := by
                  unfold Client.setReq at failed
                  dsimp only at failed
                  rwa [Function.update_self] at failed
                exact nomatch intact.symm.trans marked
            · split at ran
              · exact nomatch ran
              · cases ran
                unfold forget Client.setReq
                dsimp only
                rw [Function.update_self]
          · exact nomatch ran
        · exact nomatch ran
  · exact nomatch ran

/-- A request that is turned away while it is parsed is freed. -/
theorem Parses.reject_dead (parses : client.Parses req) (executing : client.executing = true)
    {status : Status} (ran : client.step serverKeepAlive page (.reject status) = some after) :
    (after.reqs req).live = false := by
  unfold Client.step at ran
  rw [executing, if_pos rfl] at ran
  unfold stepParser parse at ran
  dsimp only at ran
  rw [parses.current] at ran
  have invalid := @reqInvalid_calls page client parses.shows.kept req status
  have reported := invalid.symm.trans ran
  exact @errResp_dead page { client with conn := client.conn.stopRead } after req parses.own
    parses.place.wkr parses.place.connErr req status reported

/-! ### Where the requests are in any run -/

/-- A connection that was closed while it parsed a request: that one is left behind, but neither
waits nor is used by a worker. -/
structure Abandoned (client : Client) : Prop where
  shut : client.conn.opened = false
  still : client.executing = false
  left : ∀ req, (client.reqs req).live = true →
    (client.reqs req).queued = false ∧ (client.reqs req).usingWkr = false

/-- The connection is in one of its phases, or abandoned. -/
def Settled (client : Client) : Prop := (∃ who, client.Phase who) ∨ client.Abandoned

theorem accepted_settled : accepted.Settled :=
  .inl ⟨none, .idle ⟨rfl, rfl, rfl⟩ rfl rfl rfl fun _ => rfl⟩

/-- Nothing happens to an abandoned connection any more. -/
theorem Abandoned.step (abandoned : client.Abandoned) (event : Event) :
    client.step serverKeepAlive page event = some client := by
  have unheld : ∀ req, ¬ client.Held req := fun req held =>
    nomatch (abandoned.left req held.1).2.symm.trans held.2
  have unqueued : ∀ req, ¬ client.Waits req := fun req waits =>
    nomatch (abandoned.left req waits.1).1.symm.trans waits.2
  have shut := abandoned.shut
  unfold Client.step
  rw [abandoned.still, if_neg Bool.false_ne_true]
  unfold stepOther
  cases event with
  | readable =>
      dsimp only
      rw [shut, Bool.false_and, if_neg Bool.false_ne_true]
  | written =>
      dsimp only
      rw [if_neg fun due => Bool.false_ne_true (shut.symm.trans due.1)]
  | lost =>
      dsimp only
      rw [if_neg fun due => Bool.false_ne_true (shut.symm.trans due.1)]
  | timeout =>
      dsimp only
      rw [shut, if_neg Bool.false_ne_true]
  | taken req =>
      dsimp only
      rw [if_neg (unqueued req)]
  | head req announced body =>
      dsimp only
      rw [if_neg fun due => unheld req due.1]
  | part req read =>
      dsimp only
      rw [if_neg fun due => unheld req due.1]
  | death req =>
      dsimp only
      rw [if_neg (unheld req)]
  | removed req =>
      dsimp only
      rw [if_neg (unqueued req)]
  | _ => rfl

/-- The connection is closed in the middle of a request. -/
theorem Parses.abandon (parses : client.Parses req) (still : client.executing = false) :
    Abandoned { client with conn := client.conn.scheduleClose } := by
  have shut : client.conn.scheduleClose.opened = false := by
    rw [Sound.scheduleClose_freed (Int.le_of_eq parses.owed)]
  refine ⟨shut, still, fun other live => ?_⟩
  by_cases same : other = req
  · subst same
    exact ⟨parses.place.queued, parses.place.usingWkr⟩
  · exact nomatch (parses.others other same).symm.trans live

theorem Phase.settled {who : Option Nat} {event : Event} (phase : client.Phase who)
    (ran : client.step serverKeepAlive page event = some after) : after.Settled := by
  by_cases gentle : Gentle serverKeepAlive event client
  · obtain ⟨known, next, same, kept, -⟩ := @Phase.step _ page client who phase event gentle
    cases same.symm.trans ran
    exact .inl ⟨next, kept⟩
  · by_cases closes : event.Closes serverKeepAlive client ∧ client.conn.currentRequest ≠ none
    · obtain ⟨closes, busy⟩ := closes
      cases phase with
      | idle shows unowned owed between => exact absurd between busy
      | busy req used hand => exact absurd hand.current busy
      | failed req shows own owed between => exact absurd between busy
      | gone shut => exact nomatch closes.2.1.symm.trans shut
      | parsing req parses =>
          cases closes.step.symm.trans ran
          exact .inr (parses.abandon closes.1)
    · refine absurd ⟨temp_of_step ran, fun closed => ?_, fun req kills _ => kept_of_kills kills ran⟩
        gentle
      by_contra busy
      exact closes ⟨closed, busy⟩

theorem Settled.step {event : Event} (settled : client.Settled)
    (ran : client.step serverKeepAlive page event = some after) : after.Settled := by
  rcases settled with ⟨who, phase⟩ | abandoned
  · exact phase.settled ran
  · cases (abandoned.step event).symm.trans ran
    exact .inr abandoned

/-! ### What the callbacks that report an error find -/

/-- Which they are. -/
theorem reports_cases {event : Event} {status : Status}
    (reports : event.reports client = some status) :
    (client.executing = true ∧ ∃ req, client.conn.currentRequest = some req) ∨
      (client.executing = true ∧ event = .parseError) ∨
      (∃ req, event.Kills client req) ∨ client.executing = false ∧ ∃ req, client.Waits req := by
  unfold Event.reports at reports
  cases executing : client.executing with
  | true =>
      rw [executing, if_pos rfl] at reports
      cases event with
      | reject other =>
          obtain ⟨req, current, -⟩ := Option.map_eq_some_iff.mp reports
          exact .inl ⟨rfl, req, current⟩
      | finish keepAlive room taken =>
          dsimp only at reports
          split at reports
          · exact nomatch reports
          · obtain ⟨req, current, -⟩ := Option.bind_eq_some_iff.mp reports
            exact .inl ⟨rfl, req, current⟩
      | parseError => exact .inr (.inl ⟨rfl, rfl⟩)
      | _ => exact nomatch reports
  | false =>
      rw [executing, if_neg Bool.false_ne_true] at reports
      cases event with
      | head req announced body =>
          dsimp only at reports
          split at reports
          · next due =>
              exact .inr (.inr (.inl ⟨req, executing, due.1.1, rfl, due.1.2, due.2⟩))
          · exact nomatch reports
      | part req read =>
          dsimp only at reports
          split at reports
          · next due =>
              exact .inr (.inr (.inl ⟨req, executing, due.1.1, rfl, due.1.2, due.2⟩))
          · exact nomatch reports
      | death req =>
          dsimp only at reports
          split at reports
          · next held => exact .inr (.inr (.inl ⟨req, executing, held, rfl⟩))
          · exact nomatch reports
      | removed req =>
          dsimp only at reports
          split at reports
          · next waits => exact .inr (.inr (.inr ⟨rfl, req, waits⟩))
          · exact nomatch reports
      | _ => exact nomatch reports

/-- The death of a worker is reported. -/
theorem reports_of_kills {event : Event} (kills : event.Kills client req) :
    event.reports client = some .status500 := by
  obtain ⟨still, held, due⟩ := kills
  unfold Event.reports
  rw [still, if_neg Bool.false_ne_true]
  cases event with
  | death dead =>
      cases due
      exact if_pos held
  | head dead announced body =>
      obtain ⟨rfl, unread, rfl⟩ := due
      exact if_pos ⟨⟨held, unread⟩, rfl⟩
  | part dead read =>
      obtain ⟨rfl, known, rfl⟩ := due
      exact if_pos ⟨⟨held, known⟩, rfl⟩
  | _ => exact due.elim

/-- So is the failure of the parser. -/
theorem reports_parseError (executing : client.executing = true) :
    Event.parseError.reports client = some .status400 := if_pos executing

/-- A request that a worker uses is the one of its connection, as long as there is one. -/
theorem Settled.own (settled : client.Settled) (held : client.Held req)
    (kept : client.conn.freed = false) : client.conn.req = some req := by
  rcases settled with ⟨who, phase⟩ | abandoned
  · obtain ⟨live, used⟩ := held
    cases phase with
    | idle shows unowned owed current done => exact nomatch (done req).symm.trans live
    | parsing known parses =>
        by_cases same : req = known
        · subst same
          exact nomatch parses.place.usingWkr.symm.trans used
        · exact nomatch (parses.others req same).symm.trans live
    | busy known taken hand place =>
        by_cases same : req = known
        · subst same
          exact hand.own
        · exact nomatch (hand.others req same).symm.trans live
    | failed known shows own owed current stopped closes writes marked others =>
        by_cases same : req = known
        · subst same
          exact own
        · exact nomatch (others req same).symm.trans live
    | gone shut still freed => exact nomatch kept.symm.trans freed
  · exact nomatch (abandoned.left req held.1).2.symm.trans held.2

/-- A worker uses a request that it was given. -/
theorem Settled.served (settled : client.Settled) (tidy : client.Tidy)
    (held : client.Held req) : (client.reqs req).wkr = true := by
  cases failed : (client.reqs req).connErr with
  | true => exact tidy.failed req failed
  | false =>
      rcases settled with ⟨who, phase⟩ | abandoned
      · exact (phase.working held failed).2.2.wkr
      · exact nomatch (abandoned.left req held.1).2.symm.trans held.2

/-- The parser is at work on a connection that is there. -/
theorem Settled.executes (settled : client.Settled) (executing : client.executing = true) :
    ∃ who, client.Phase who := by
  rcases settled with phase | abandoned
  · exact phase
  · exact nomatch executing.symm.trans abandoned.still

end Client
