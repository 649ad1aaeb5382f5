import Webroar.Head.Request
import Webroar.Scgi.Rename

/-! # What an accepted request leaves

libebb passes a request on as the pieces of its request line, then the pieces of each header's
name and value, then the end of the headers, the body, and the end of the request. A request
that no callback rejects leaves a finished block with one entry for each client header, the host
of an absolute URI in place of the client's, and the headers of the head.
-/

namespace Request

open Scgi (Entry Call Group Shows Draft Layout contentLengthEntry scgiEntry encodeEntry frame
  renameLatest startOffsetInit)

/-- The pieces of a client header. -/
structure ClientHeader where
  field : Token
  fields : List Token
  value : FieldValue
  values : List FieldValue

namespace ClientHeader

/-- The calls on the object that take a header down. -/
def group (header : ClientHeader) (index : Nat) : Group :=
  .client index httpPrefix (header.field.1 :: header.fields.map (·.1)) header.value.1
    (header.values.map (·.1))

/-- The entry of a header. -/
def entry (header : ClientHeader) : Entry := (header.group 0).entry

def callbacks (header : ClientHeader) (index : Nat) : List Callback :=
  (header.field :: header.fields).map (Callback.headerField · index) ++
    (header.value :: header.values).map (Callback.headerValue · index)

end ClientHeader

/-- The callbacks of client headers that are numbered from `index` on. -/
def headerCallbacks (index : Nat) : List ClientHeader → List Callback
  | [] => []
  | header :: rest => header.callbacks index ++ headerCallbacks (index + 1) rest

/-- A request as libebb passes it on. -/
structure Incoming where
  line : List LinePiece
  headers : List ClientHeader
  request : EbbRequest
  body : List (List UInt8)

namespace Incoming

def callbacks (incoming : Incoming) : List Callback :=
  incoming.line.map .line ++ (headerCallbacks 0 incoming.headers ++
    (.headersComplete incoming.request :: (incoming.body.map .body ++ [.complete])))

/-- The entries of the client headers. -/
def clientEntries (incoming : Incoming) : List Entry := incoming.headers.map ClientHeader.entry

end Incoming

variable {head : Head} {req last : Request}

/-! ### Rejections stay -/

theorem step_rejected {callback : Callback} (rejected : req.rejected.isSome = true) :
    step head req callback = some req := if_pos rejected

theorem run_cons (callback : Callback) (rest : List Callback) :
    run head req (callback :: rest) =
      (step head req callback).bind fun next =>
        run head next rest := rfl

/-- A request that is not rejected in the end was not rejected before. -/
theorem not_rejected_before {callbacks : List Callback}
    (ran : run head req callbacks = some last)
    (kept : last.rejected = none) : req.rejected = none := by
  induction callbacks generalizing req with
  | nil =>
      obtain rfl := Option.some.inj ran
      exact kept
  | cons callback rest ih =>
      rw [run_cons] at ran
      obtain ⟨next, stepped, later⟩ := Option.bind_eq_some_iff.mp ran
      by_contra before
      have rejected : req.rejected.isSome = true := Option.isSome_iff_ne_none.mpr before
      rw [step_rejected rejected] at stepped
      obtain rfl := Option.some.inj stepped
      exact before (ih later)

/-- The first of some callbacks of a request that is not rejected. -/
theorem run_step {callback : Callback} {rest : List Callback}
    (ran : run head req (callback :: rest) = some last)
    (kept : last.rejected = none) :
    ∃ next, step head req callback = some next ∧
      run head next rest = some last ∧
      req.rejected = none ∧ next.rejected = none := by
  have before := not_rejected_before ran kept
  rw [run_cons] at ran
  obtain ⟨next, stepped, later⟩ := Option.bind_eq_some_iff.mp ran
  exact ⟨next, stepped, later, before, not_rejected_before later kept⟩

/-! ### The request line -/

/-- The request line that some pieces leave. -/
def lineOf (req : Request) (pieces : List LinePiece) : Line := (pieces.foldl lineCb req).line

theorem lineCb_frame (req : Request) (piece : LinePiece) :
    (req.lineCb piece).scgi = req.scgi ∧ (req.lineCb piece).uploadFile = req.uploadFile := by
  cases piece with
  | path length =>
      simp only [lineCb, pathCb]
      split
      · exact ⟨rfl, rfl⟩
      · exact ⟨rfl, rfl⟩
  | queryString length =>
      simp only [lineCb, queryStringCb]
      split
      · exact ⟨rfl, rfl⟩
      · exact ⟨rfl, rfl⟩
  | uri text =>
      simp only [lineCb, uriCb]
      split
      · exact ⟨rfl, rfl⟩
      · exact ⟨rfl, rfl⟩
  | fragment text =>
      simp only [lineCb, fragmentCb]
      split
      · exact ⟨rfl, rfl⟩
      · exact ⟨rfl, rfl⟩

/-- The pieces of the request line change nothing else. -/
theorem run_line {pieces : List LinePiece} {rest : List Callback}
    (ran : run head req (pieces.map .line ++ rest) = some last)
    (kept : last.rejected = none) :
    ∃ next, run head next rest = some last ∧
      next.line = lineOf req pieces ∧ next.scgi = req.scgi ∧
      next.uploadFile = req.uploadFile := by
  induction pieces generalizing req with
  | nil => exact ⟨req, ran, rfl, rfl, rfl⟩
  | cons piece pieces ih =>
      rw [List.map_cons, List.cons_append] at ran
      obtain ⟨next, stepped, later, before, -⟩ := run_step ran kept
      have taken : next = req.lineCb piece := by
        rw [step, before] at stepped
        exact (Option.some.inj stepped).symm
      subst taken
      obtain ⟨after, tail, line, scgi, file⟩ := ih later
      obtain ⟨sameScgi, sameFile⟩ := lineCb_frame req piece
      exact ⟨after, tail, line, scgi.trans sameScgi, file.trans sameFile⟩

/-! ### Client headers -/

/-- An accepted piece of a name is taken down, behind the prefix when it is the first. -/
theorem headerFieldCb_accepted {text : Token} {index : Nat}
    (before : req.rejected = none)
    (accepted : (req.headerFieldCb text index).rejected = none) :
    req.headerFieldCb text index =
      { req with
        scgi := (if req.scgi.index = index then req.scgi
          else req.scgi.call (.headerFieldAdd httpPrefix index)).call
            (.headerFieldAdd text.1 index) } := by
  unfold headerFieldCb headerLengthCheck at *
  simp only [invalid] at *
  split_ifs at accepted ⊢
  all_goals simp_all

/-- An accepted piece of a value is taken down and leaves the block below the limit. -/
theorem headerValueCb_accepted {text : FieldValue} {index : Nat}
    (before : req.rejected = none)
    (accepted : (req.headerValueCb text index).rejected = none) :
    req.headerValueCb text index =
        { req with scgi := req.scgi.call (.headerValueAdd text.1 index) } ∧
      req.scgi.headerOffset + text.1.length ≤ Config.maxHeaderSize := by
  unfold headerValueCb headerValueCheck at *
  simp only [invalid] at *
  split_ifs at accepted ⊢
  all_goals simp_all

theorem index_memoryCheck (scgi : Scgi) (required : Nat) :
    (scgi.memoryCheck required).index = scgi.index := by
  obtain ⟨header, headerSize, checked, -⟩ := Scgi.memoryCheck_spec scgi required
  rw [checked]

theorem headerOffset_memoryCheck (scgi : Scgi) (required : Nat) :
    (scgi.memoryCheck required).headerOffset = scgi.headerOffset := by
  obtain ⟨header, headerSize, checked, -⟩ := Scgi.memoryCheck_spec scgi required
  rw [checked]

/-- A piece of the name of the header that is open keeps that header open. -/
theorem index_fieldAdd {scgi : Scgi} (field : List UInt8) {index : Int}
    (numbered : scgi.index = index) :
    (scgi.call (.headerFieldAdd field index)).index = index := by
  subst numbered
  simp only [Scgi.call, Scgi.headerFieldAdd, lt_self_iff_false, ↓reduceIte]
  split
  · rfl
  · split
    · rfl
    · exact index_memoryCheck ..

/-- A piece of a value moves the end of the block by no more than its length and a NUL. -/
theorem headerOffset_valueAdd (scgi : Scgi) (value : List UInt8) (index : Int) :
    (scgi.call (.headerValueAdd value index)).headerOffset ≤
      scgi.headerOffset + value.length + 1 := by
  simp only [Scgi.call, Scgi.headerValueAdd]
  split
  · exact Nat.le_add_right_of_le (Nat.le_add_right ..)
  · split
    · exact Nat.le_add_right_of_le (Nat.le_add_right ..)
    · split
      · rw [Option.getD_some, headerOffset_memoryCheck, Nat.add_assoc]
      · rw [Option.getD_some, headerOffset_memoryCheck]
        exact Nat.le_succ _

/-- Further pieces of a name are taken down one after the other. -/
theorem run_fields {index : Nat} {fields : List Token} {rest : List Callback}
    (numbered : req.scgi.index = index)
    (ran : run head req
      (fields.map (Callback.headerField · index) ++ rest) = some last)
    (kept : last.rejected = none) :
    run head
      { req with
        scgi := req.scgi.run ((fields.map (·.1)).map (Call.headerFieldAdd · index)) } rest =
      some last := by
  induction fields generalizing req with
  | nil => exact ran
  | cons field fields ih =>
      rw [List.map_cons, List.cons_append] at ran
      obtain ⟨next, stepped, later, before, after⟩ := run_step ran kept
      have taken : next = req.headerFieldCb field index := by
        rw [step, before] at stepped
        exact (Option.some.inj stepped).symm
      subst taken
      rw [headerFieldCb_accepted before after, if_pos numbered] at later
      exact ih (index_fieldAdd field.1 numbered) later

/-- The pieces of a value are taken down one after the other, below the limit. -/
theorem run_values {index : Nat} {value : FieldValue} {values : List FieldValue}
    {rest : List Callback}
    (ran : run head req
      ((value :: values).map (Callback.headerValue · index) ++ rest) = some last)
    (kept : last.rejected = none) :
    run head
      { req with
        scgi := req.scgi.run (((value :: values).map (·.1)).map (Call.headerValueAdd · index)) }
      rest = some last ∧
      (req.scgi.run (((value :: values).map (·.1)).map (Call.headerValueAdd · index))).headerOffset
        ≤ Config.maxHeaderSize + 1 := by
  induction values generalizing req value with
  | nil =>
      obtain ⟨next, stepped, later, before, after⟩ := run_step ran kept
      have taken : next = req.headerValueCb value index := by
        rw [step, before] at stepped
        exact (Option.some.inj stepped).symm
      subst taken
      obtain ⟨added, room⟩ := headerValueCb_accepted before after
      rw [added] at later
      refine ⟨later, ?_⟩
      have bound := headerOffset_valueAdd req.scgi value.1 index
      change (req.scgi.call (.headerValueAdd value.1 index)).headerOffset ≤ _
      omega
  | cons second values ih =>
      rw [List.map_cons, List.cons_append] at ran
      obtain ⟨next, stepped, later, before, after⟩ := run_step ran kept
      have taken : next = req.headerValueCb value index := by
        rw [step, before] at stepped
        exact (Option.some.inj stepped).symm
      subst taken
      rw [(headerValueCb_accepted before after).1] at later
      exact ih later

/-- An accepted client header is taken down as its group of calls. -/
theorem run_header {index : Nat} {header : ClientHeader} {rest : List Callback}
    (fresh : req.scgi.index < index)
    (opens : ((req.scgi.call (.headerFieldAdd httpPrefix index)).index = index))
    (ran : run head req (header.callbacks index ++ rest) = some last)
    (kept : last.rejected = none) :
    run head
      { req with scgi := req.scgi.run (header.group index).calls } rest = some last ∧
      (req.scgi.run (header.group index).calls).headerOffset ≤ Config.maxHeaderSize + 1 := by
  rw [ClientHeader.callbacks, List.append_assoc, List.map_cons, List.cons_append] at ran
  obtain ⟨next, stepped, later, before, after⟩ := run_step ran kept
  have taken : next = req.headerFieldCb header.field index := by
    rw [step, before] at stepped
    exact (Option.some.inj stepped).symm
  subst taken
  rw [headerFieldCb_accepted before after, if_neg (Int.ne_of_lt fresh)] at later
  have values := run_fields (index_fieldAdd header.field.1 opens) later kept
  have finished := run_values values kept
  have calls : req.scgi.run (header.group index).calls =
      (((req.scgi.call (.headerFieldAdd httpPrefix index)).call
        (.headerFieldAdd header.field.1 index)).run
          ((header.fields.map (·.1)).map (Call.headerFieldAdd · index))).run
            (((header.value :: header.values).map (·.1)).map
              (Call.headerValueAdd · index)) := by
    rw [ClientHeader.group, Group.calls, Scgi.run, List.foldl_append]
    rfl
  rw [calls]
  exact finished

/-- A group of calls adds no body bytes. -/
theorem bodyOf_group (group : Group) : Scgi.bodyOf group.calls = [] := by
  refine List.flatMap_eq_nil_iff.mpr fun call member => ?_
  cases group with
  | special field value =>
      obtain rfl := List.mem_singleton.mp member
      rfl
  | client index field fields value values =>
      rcases List.mem_append.mp member with piece | piece
      · obtain ⟨text, -, rfl⟩ := List.mem_map.mp piece
        rfl
      · obtain ⟨text, -, rfl⟩ := List.mem_map.mp piece
        rfl

/-- Accepted client headers are taken down in order. -/
theorem run_headers {index : Nat} {headers : List ClientHeader} {rest : List Callback}
    {items : List Entry} (layout : req.scgi.Layout [] items none) (fresh : req.scgi.index < index)
    (ran : run head req (headerCallbacks index headers ++ rest) =
      some last)
    (kept : last.rejected = none) :
    ∃ scgi : Scgi, run head { req with scgi := scgi } rest = some last ∧
      scgi.Layout [] (items ++ headers.map ClientHeader.entry) none ∧
      scgi.body.getD [] = req.scgi.body.getD [] ∧ scgi.bytesSent = req.scgi.bytesSent ∧
      (req.scgi.headerOffset ≤ Config.maxHeaderSize + 1 →
        scgi.headerOffset ≤ Config.maxHeaderSize + 1) := by
  induction headers generalizing req index items with
  | nil =>
      refine ⟨req.scgi, ran, ?_, rfl, rfl, id⟩
      rwa [List.map_nil, List.append_nil]
  | cons header headers ih =>
      rw [headerCallbacks, List.append_assoc] at ran
      obtain ⟨opened, added, numbered, -⟩ := layout.headerFieldAdd_first httpPrefix fresh
      have opens : (req.scgi.call (.headerFieldAdd httpPrefix index)).index = index := by
        rw [Scgi.call, added]
        exact numbered
      obtain ⟨later, bound⟩ := run_header fresh opens ran kept
      have shown : req.scgi.Shows [] ⟨items, .none, req.scgi.index⟩ := ⟨layout, rfl⟩
      obtain ⟨after, accepted, all, closed, place⟩ :=
        Draft.run_group ⟨items, .none, req.scgi.index⟩ (header.group index) rfl
          fun number member => by
            obtain rfl := Option.some.inj member
            exact fresh
      have written := shown.run _ accepted
      have nextLayout := written.layout
      rw [all, closed] at nextLayout
      have same : (header.group index).entry = header.entry := rfl
      rw [same] at nextLayout
      have nextIndex : (req.scgi.run (header.group index).calls).index < (index + 1 : Nat) := by
        rw [written.index, place]
        exact Int.ofNat_lt.mpr (Nat.lt_succ_self index)
      obtain ⟨scgi, tail, laid, body, sent, room⟩ :=
        @ih { req with scgi := req.scgi.run (header.group index).calls } (index + 1) _ nextLayout
          nextIndex later
      refine ⟨scgi, tail, ?_, body.trans ?_, sent.trans (Scgi.bytesSent_run ..),
        fun _ => room bound⟩
      · rw [List.map_cons]
        rwa [List.append_assoc] at laid
      · simp only
        rw [Scgi.body_run, bodyOf_group, List.append_nil]

/-! ### The headers of the head -/

/-- Whole headers add their entries. -/
theorem layout_headersAdd {scgi : Scgi} {front : List UInt8} {items : List Entry}
    (layout : scgi.Layout front items none) (entries : List Entry) :
    (headersAdd scgi entries).Layout front (items ++ entries) none ∧
      (headersAdd scgi entries).body = scgi.body ∧
      (headersAdd scgi entries).bytesSent = scgi.bytesSent := by
  induction entries generalizing scgi items with
  | nil =>
      rw [List.append_nil]
      exact ⟨layout, rfl, rfl⟩
  | cons entry entries ih =>
      obtain ⟨laid, body, sent⟩ := ih (layout.headerAdd entry.1 entry.2)
      obtain ⟨sameBody, sameSent⟩ := Scgi.frame_headerAdd scgi entry.1 entry.2
      rw [List.append_assoc] at laid
      exact ⟨laid, body.trans sameBody, sent.trans sameSent⟩

/-- The entries of the client with the host of the URI in place of the client's. -/
def hosted (items : List Entry) : Option (List UInt8) → List Entry
  | none => items
  | some host => renameLatest hostName hiddenHostName items ++ [(hostName, host)]

@[simp] theorem hosted_none (items : List Entry) : hosted items none = items := rfl

theorem hosted_some (items : List Entry) (host : List UInt8) :
    hosted items (some host) =
      renameLatest hostName hiddenHostName items ++ [(hostName, host)] := rfl

/-- Setting the host renames the latest host header and adds the new one. -/
theorem layout_hostSet {scgi : Scgi} {items : List Entry} (layout : scgi.Layout [] items none)
    (host : List UInt8) :
    (hostSet scgi host).Layout [] (hosted items (some host)) none ∧
      (hostSet scgi host).body = scgi.body ∧ (hostSet scgi host).bytesSent = scgi.bytesSent := by
  rw [hostSet]
  rcases Scgi.latest_split hostName items with absent | ⟨before, value, after, rfl, final⟩
  · rw [layout.holds.headerGet_none absent]
    refine ⟨?_, Scgi.frame_headerAdd ..⟩
    rw [hosted_some, Scgi.renameLatest_of_not_mem absent]
    exact layout.headerAdd hostName host
  · obtain ⟨header, found, place⟩ := layout.holds.headerGet_split final
    rw [found]
    refine ⟨?_, Scgi.frame_headerAdd ..⟩
    rw [hosted_some, Scgi.renameLatest_of_split final]
    have named : hostName = 72 :: ascii "TTP_HOST" := by decide
    have hidden : hiddenHostName = 84 :: ascii "TTP_HOST" := by decide
    rw [named] at layout
    have renamed := layout.rename 84
    rw [← hidden, ← place] at renamed
    exact renamed.headerAdd hostName host

/-- The request line after the path is set, and the host of an absolute URI. -/
def resolved (line : Line) : Line × Option (List UInt8) :=
  if line.path.len ≠ 0 then
    ({ line with
        path := { line.path with str := some 0 }
        query := if line.query.len ≠ 0 then ⟨some (line.path.len + 1), line.query.len⟩
          else line.query }, none)
  else if line.uriLen ≠ 0 then
    line.absolute.toOption.getD (line, none)
  else
    (line, none)

/-- Setting the path of a request that is accepted. -/
theorem pathSet_accepted {items : List Entry} (layout : req.scgi.Layout [] items none)
    (accepted : req.pathSet.rejected = none) :
    req.pathSet.line = (resolved req.line).1 ∧
      req.pathSet.scgi.Layout [] (hosted items (resolved req.line).2) none ∧
      req.pathSet.scgi.body = req.scgi.body ∧
      req.pathSet.scgi.bytesSent = req.scgi.bytesSent := by
  unfold pathSet resolved at *
  simp only at *
  by_cases path : req.line.path.len ≠ 0
  · rw [if_pos path] at accepted ⊢
    rw [if_pos path]
    by_cases missing : req.scgi.headerValueGet hostName = none
    · rw [if_pos missing] at accepted
      cases accepted
    · rw [if_neg missing]
      exact ⟨rfl, layout, rfl, rfl⟩
  · rw [if_neg path] at accepted ⊢
    rw [if_neg path]
    by_cases uri : req.line.uriLen ≠ 0
    · rw [if_pos uri] at accepted ⊢
      rw [if_pos uri]
      cases found : req.line.absolute with
      | error rejection =>
          rw [found] at accepted
          cases accepted
      | ok result =>
          obtain ⟨line, host⟩ := result
          cases host with
          | none => exact ⟨rfl, layout, rfl, rfl⟩
          | some host =>
              obtain ⟨laid, body, sent⟩ := layout_hostSet layout host
              exact ⟨rfl, laid, body, sent⟩
    · rw [if_neg uri, if_neg uri]
      exact ⟨rfl, layout, rfl, rfl⟩

/-- The entries the head adds for a request line before it finds the application. -/
def headEntries (head : Head) (request : EbbRequest) (line : Line) : List Entry :=
  line.headers.getD [] ++ secureHeaders head ++
    (chunkedHeader request :: connectionHeaders head request (request.method.text.getD []))

/-- The entries with the path of the static file that is found for them. -/
def withFile (head : Head) (line : Line) (items : List Entry) : List Entry :=
  items ++ fileHeader (head.staticFile line items)

/-- All entries behind the content length, for the entries so far. -/
def completed (head : Head) (request : EbbRequest) (line : Line) (items : List Entry) :
    List Entry :=
  withFile head (resolved line).1
    (hosted items (resolved line).2 ++ headEntries head request (resolved line).1)

namespace Incoming

/-- The request line as libebb passes it on. -/
def requestLine (incoming : Incoming) (head : Head) : Line := lineOf (new head) incoming.line

/-- All entries behind the content length. -/
def added (incoming : Incoming) (head : Head) : List Entry :=
  completed head incoming.request (incoming.requestLine head)
    (scgiEntry :: incoming.clientEntries)

/-- The entries of the finished block. -/
def entries (incoming : Incoming) (head : Head) : List Entry :=
  contentLengthEntry incoming.request.contentLength :: incoming.added head

end Incoming

/-- The headers are complete and the request is accepted. -/
theorem headersCompleteCb_accepted {request : EbbRequest} {items : List Entry} {next : Request}
    (layout : req.scgi.Layout [] items none)
    (called : headersCompleteCb head request req = some next)
    (kept : next.rejected = none) :
    next.scgi.Layout (encodeEntry (contentLengthEntry request.contentLength))
        (completed head request req.line items) none ∧
      next.scgi.body = req.scgi.body ∧ next.scgi.bytesSent = req.scgi.bytesSent ∧
      next.uploadFile = (if head.maxBodySize < request.contentLength then some [] else none) ∧
      request.method.text.isSome = true ∧ (resolved req.line).1.headers.isSome = true := by
  unfold headersCompleteCb at called
  simp only at called
  by_cases rejected : req.pathSet.rejected.isSome = true
  · rw [if_pos rejected] at called
    obtain rfl := Option.some.inj called
    rw [kept] at rejected
    cases rejected
  · rw [if_neg rejected] at called
    have accepted : req.pathSet.rejected = none := by
      cases state : req.pathSet.rejected with
      | none => rfl
      | some rejection =>
          rw [state] at rejected
          exact absurd rfl rejected
    obtain ⟨line, hostLayout, hostBody, hostSent⟩ := pathSet_accepted layout accepted
    obtain ⟨headers, found, made⟩ := Option.map_eq_some_iff.mp called
    rw [line] at found
    obtain ⟨first, firstBody, firstSent⟩ := layout_headersAdd hostLayout headers
    obtain ⟨second, secondBody, secondSent⟩ := layout_headersAdd first (secureHeaders head)
    have third := second.contentLengthAdd request.contentLength
    obtain ⟨thirdBody, thirdSent⟩ := Scgi.frame_contentLengthAdd
      (headersAdd (headersAdd req.pathSet.scgi headers) (secureHeaders head))
      request.contentLength
    obtain ⟨fourth, fourthBody, fourthSent⟩ := layout_headersAdd third [chunkedHeader request]
    cases named : request.method.text with
    | none =>
        rw [named] at made
        subst made
        cases kept
    | some method =>
        obtain ⟨fifth, fifthBody, fifthSent⟩ :=
          layout_headersAdd fourth (connectionHeaders head request method)
        have joined : hosted items (resolved req.line).2 ++ headers ++ secureHeaders head ++
              [chunkedHeader request] ++ connectionHeaders head request method =
            hosted items (resolved req.line).2 ++
              headEntries head request (resolved req.line).1 := by
          simp only [headEntries, found, named, Option.getD_some, List.append_assoc,
            List.cons_append, List.nil_append]
        rw [joined] at fifth
        obtain ⟨last, lastBody, lastSent⟩ := layout_headersAdd fifth
          (fileHeader (head.staticFile (resolved req.line).1
            (hosted items (resolved req.line).2 ++
              headEntries head request (resolved req.line).1)))
        rw [named] at made
        simp only [resolveHttpReq, fifth.holds.entries, line] at made
        subst made
        rw [found]
        refine ⟨last, ?_, ?_, rfl, rfl, rfl⟩
        · dsimp only
          rw [lastBody, fifthBody, fourthBody, thirdBody, secondBody, firstBody, hostBody]
        · dsimp only
          rw [lastSent, fifthSent, fourthSent, thirdSent, secondSent, firstSent, hostSent]

/-! ### The body -/

/-- The body goes into the upload file or into the object. -/
theorem run_body {bodies : List (List UInt8)} {rest : List Callback} {front : List UInt8}
    {items : List Entry} (layout : req.scgi.Layout front items none)
    (ran : run head req (bodies.map .body ++ rest) = some last)
    (kept : last.rejected = none) :
    ∃ next, run head next rest = some last ∧
      next.scgi.Layout front items none ∧ next.scgi.bytesSent = req.scgi.bytesSent ∧
      next.uploadFile = req.uploadFile.map (· ++ bodies.flatten) ∧
      next.scgi.body.getD [] =
        if req.uploadFile.isSome then req.scgi.body.getD []
        else req.scgi.body.getD [] ++ bodies.flatten := by
  induction bodies generalizing req with
  | nil =>
      refine ⟨req, ran, layout, rfl, ?_, ?_⟩
      · simp
      · simp
  | cons text bodies ih =>
      rw [List.map_cons, List.cons_append] at ran
      obtain ⟨next, stepped, later, before, -⟩ := run_step ran kept
      have taken : next = req.bodyCb text := by
        rw [step, before] at stepped
        exact (Option.some.inj stepped).symm
      subst taken
      by_cases nonempty : text.length > 0
      · cases file : req.uploadFile with
        | some bytes =>
            have put : req.bodyCb text = { req with uploadFile := some (bytes ++ text) } := by
              simp only [bodyCb, if_pos nonempty, file]
            rw [put] at later
            obtain ⟨next, tail, laid, sent, stored, body⟩ :=
              @ih { req with uploadFile := some (bytes ++ text) } layout later
            refine ⟨next, tail, laid, sent, ?_, body⟩
            simpa [List.append_assoc] using stored
        | none =>
            have put : req.bodyCb text = { req with scgi := req.scgi.bodyAdd text } := by
              simp only [bodyCb, if_pos nonempty, file]
            rw [put] at later
            obtain ⟨next, tail, laid, sent, stored, body⟩ :=
              @ih { req with scgi := req.scgi.bodyAdd text } (layout.bodyAdd text) later
            refine ⟨next, tail, laid, sent, ?_, ?_⟩
            · simpa [file] using stored
            · simpa [file, Scgi.bodyAdd, List.append_assoc] using body
      · have put : req.bodyCb text = req := by
          rw [bodyCb, if_neg nonempty]
        have empty : text = [] := List.eq_nil_of_length_eq_zero (Nat.eq_zero_of_not_pos nonempty)
        subst empty
        rw [put] at later
        exact ih layout later

/-- A request that is received to its end and not rejected. -/
structure Accepted (head : Head) (incoming : Incoming) (req : Request) : Prop where
  ran : run head (new head) incoming.callbacks = some req
  kept : req.rejected = none

variable {incoming : Incoming}

/-- An accepted request has the frame of its entries as its block, and its whole body in the
upload file or in the object. -/
structure Received (head : Head) (incoming : Incoming) (req : Request) : Prop where
  built : req.scgi.Built (incoming.entries head) (incoming.added head)
  unsent : req.scgi.bytesSent = 0
  room : (Scgi.encode (scgiEntry :: incoming.clientEntries)).length ≤ Config.maxHeaderSize
  file : req.uploadFile =
    if head.maxBodySize < incoming.request.contentLength then some incoming.body.flatten else none
  body : req.scgi.body.getD [] =
    if head.maxBodySize < incoming.request.contentLength then [] else incoming.body.flatten
  method : incoming.request.method.text.isSome = true
  headers : (resolved (incoming.requestLine head)).1.headers.isSome = true

theorem Accepted.received
    (accepted : Accepted head incoming req) :
    Received head incoming req := by
  obtain ⟨ran, kept⟩ := accepted
  rw [Incoming.callbacks] at ran
  obtain ⟨begun, afterLine, line, scgi, file⟩ := run_line ran kept
  have layout : begun.scgi.Layout [] [scgiEntry] none := by
    rw [scgi]
    exact Layout.new head.junk
  have fresh : begun.scgi.index < (0 : Nat) := by
    rw [scgi, new, Scgi.index_new]
    decide
  have begins : begun.scgi.headerOffset ≤ Config.maxHeaderSize + 1 := by
    have place := layout.offset
    have start := layout.start
    have length : (Scgi.contents [] [scgiEntry] none).length = 7 := by decide
    rw [List.length_nil, Nat.add_zero] at start
    rw [length, start] at place
    rw [place]
    decide
  obtain ⟨object, afterHeaders, laid, objectBody, objectSent, objectRoom⟩ :=
    run_headers layout fresh afterLine kept
  obtain ⟨completed, stepped, afterComplete, before, notRejected⟩ := run_step afterHeaders kept
  have taken : headersCompleteCb head incoming.request
      { begun with scgi := object } = some completed := by
    have listening : ¬ ({ begun with scgi := object } : Request).rejected.isSome = true := by
      rw [before]
      decide
    rw [step, if_neg listening] at stepped
    exact stepped
  obtain ⟨full, fullBody, fullSent, fullFile, method, headers⟩ :=
    @headersCompleteCb_accepted head { begun with scgi := object } incoming.request _ completed
      laid taken notRejected
  simp only at fullBody fullSent full headers
  rw [line] at full headers
  obtain ⟨ended, atEnd, endLayout, endSent, endFile, endBody⟩ :=
    run_body full afterComplete kept
  obtain ⟨final, finalStep, done, endKept, -⟩ := run_step atEnd kept
  have finished : final = ended.completeCb := by
    rw [step, endKept] at finalStep
    exact (Option.some.inj finalStep).symm
  obtain rfl := Option.some.inj done
  subst finished
  have empty : object.body.getD [] = [] := by
    rw [objectBody, scgi, new]
    rw [(Scgi.frame_new head.junk).1]
    rfl
  have room : (Scgi.encode (scgiEntry :: incoming.clientEntries)).length ≤
      Config.maxHeaderSize := by
    have place := laid.offset
    have start := laid.start
    have bound := objectRoom begins
    have size : startOffsetInit = 40 := rfl
    rw [List.length_nil, Nat.add_zero] at start
    rw [Scgi.contents_none, List.nil_append] at place
    change (Scgi.encode ([scgiEntry] ++ incoming.headers.map ClientHeader.entry)).length ≤ _
    omega
  refine ⟨endLayout.build_of_length, ?_, room, ?_, ?_, method, headers⟩
  · rw [completeCb]
    simp only
    rw [Scgi.bytesSent_build, endSent, fullSent, objectSent, scgi, new, (Scgi.frame_new head.junk).2]
  · rw [completeCb]
    simp only
    rw [endFile, fullFile]
    split
    · rfl
    · rfl
  · rw [completeCb]
    simp only
    rw [Scgi.body_build, endBody, fullFile, fullBody, empty]
    split
    · rfl
    · rfl

end Request
