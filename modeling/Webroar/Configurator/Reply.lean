import Webroar.Configurator.Settings
import Webroar.Control.Framing
import Webroar.Scgi.Rename

/-! # The reply with the configuration and its reader

The reply is as long as the texts of a node make it, and a worker reads it into a buffer of fixed
size. Just when the texts leave room for the rest of the reply the worker gets it, however it is
cut, and finds in every field what is configured.
-/

namespace Configurator

open Resolver (Uri)
open Scgi (encode frame latest Clean contentLengthEntry contentLengthName scgiEntry)

/-! ### What is to be delivered -/

/-- The variables of an environment in one text. -/
def joined (texts : List Uri) : Option (List UInt8) :=
  if texts = [] then none else some ((ascii "#").intercalate (texts.map (·.1.1)))

/-- The fields of a reply, each with what is configured for it. -/
def configuredFields (env : Text) (block : AppBlock) : List (String × Option (List UInt8)) :=
  [("METHOD", some (ascii "CONF_REQ")), ("STATUS", some (ascii "OK")),
    ("NAME", (block.get "name").map (·.1.1)), ("PATH", (block.get "path").map (·.1.1)),
    ("BASE_URI", (block.get "baseuri").map (·.1.1)), ("TYPE", (block.get "type").map (·.1.1)),
    ("ANALYTICS", (block.get "analytics").map (·.1.1)),
    ("USER", (block.get "run_as_user").map (·.1.1)),
    ("ENV", some (((block.get "environment").map (·.1)).getD env).1),
    ("ENV_VAR", joined (environmentVariables block))]

/-- A worker gets a message with some fields as soon as all of it has come, however it is cut, and
goes on if it can use them. -/
def Delivered (wire : List UInt8) (fields : List (String × Option (List UInt8))) : Prop :=
  ∀ (configured : Nat → Bool) (arrivals : List Nat) (ctl : Intake UInt8 Scgi),
    ctl = arrivals.foldl (CtlMessage.ctlReadCb configured) (Intake.start wire) →
    (arrivals.sum < wire.length →
      ctl = ⟨wire.take arrivals.sum, wire.drop arrivals.sum, true, []⟩) ∧
    (wire.length ≤ arrivals.sum →
      ∃ request, ctl = ⟨[], [], configured 0, [(wire, request)]⟩ ∧
        ∀ field ∈ fields, request.headerValueGet (ascii field.1) = field.2)

/-- How long is the text under a key? -/
def AppBlock.length (block : AppBlock) (key : String) : Nat :=
  ((block.get key).map (·.1.1.length)).getD 0

/-- The bytes of a reply that come from a node: the texts, for a base URI its header, and for
variables their header and what separates them. -/
def AppBlock.size (env : Text) (block : AppBlock) : Nat :=
  block.length "name" + block.length "path" + block.length "type" + block.length "analytics" +
    block.length "run_as_user" + (((block.get "environment").map (·.1)).getD env).1.length +
    (if (block.get "baseuri").isSome then block.length "baseuri" + 10 else 0) +
    if environmentVariables block = [] then 0
    else ((environmentVariables block).map (·.1.1.length)).sum +
      (environmentVariables block).length + 8

variable {around : Surroundings} {server : ServerSettings} {garbage : Memory} {block : AppBlock}
  {app : AppSettings}

/-! ### What is sent -/

theorem envVar_foldl (texts : List Uri) :
    texts.foldl (fun val str => envVarAppend val str.1.1) none = joined texts := by
  have later : ∀ (rest : List Uri) (first : List UInt8),
      rest.foldl (fun val str => envVarAppend val str.1.1) (some first) =
        some ((ascii "#").intercalate (first :: rest.map (·.1.1))) := by
    intro rest
    induction rest with
    | nil =>
        intro first
        rw [List.foldl_nil, List.map_nil, List.intercalate_singleton]
    | cons text rest ih =>
        intro first
        rw [List.foldl_cons, envVarAppend, ih, List.map_cons]
        cases rest with
        | nil => simp
        | cons other rest => simp
  cases texts with
  | nil => rfl
  | cons text rest => exact later rest text.1.1

/-- The headers of the reply for a node. -/
def AppBlock.headers (env : Text) (block : AppBlock) (name path type analytics user : Uri) :
    List Scgi.Entry :=
  confReqHeaders name.1.1 path.1.1 ((block.get "baseuri").map (·.1.1)) type.1.1 analytics.1.1
    user.1.1 (((block.get "environment").map (·.1)).getD env).1 (joined (environmentVariables block))

/-- An accepted node comes to the end of the reader. -/
theorem applicationEnd_of_accepted
    (accepted : wrConfigApplicationSet around server garbage block = .accepted app) :
    ∃ name hosts, block.get "name" = some name ∧
      applicationEnd around server name hosts (applicationNumbers server.config garbage block)
        block = .accepted app := by
  unfold wrConfigApplicationSet at accepted
  split at accepted
  · cases accepted
  · next name named =>
      split at accepted
      · dsimp only at accepted
        split at accepted
        · cases accepted
        · split at accepted
          · exact absurd accepted (refuse_ne_accepted _ _ _)
          · exact ⟨name, _, named, accepted⟩
      · split at accepted
        · cases accepted
        · cases accepted

/-- An accepted node has the texts it must have, and they are what the reply is made of. -/
theorem accepted_spec
    (accepted : wrConfigApplicationSet around server garbage block = .accepted app) :
    ∃ name path type analytics user, block.get "name" = some name ∧
      block.get "path" = some path ∧ block.get "type" = some type ∧
      block.get "analytics" = some analytics ∧ block.get "run_as_user" = some user ∧
      app.scgi = Scgi.built around.junk ((block.headers server.env name path type analytics
        user).map fun item => .headerAdd item.1 item.2) := by
  obtain ⟨name, hosts, named, ended⟩ := applicationEnd_of_accepted accepted
  unfold applicationEnd at ended
  dsimp only at ended
  split at ended
  · exact absurd ended (refuse_ne_accepted _ _ _)
  · split at ended
    · cases ended
    · next path placed =>
        split at ended
        · cases ended
        · next scgi set =>
            unfold wrAppConfReqSet at set
            split at set
            · next type analytics user typed analysed owned =>
                refine ⟨name, path, type, analytics, user, named, placed, typed, analysed, owned,
                  ?_⟩
                obtain rfl := Verdict.accepted.inj ended
                rw [← Option.some.inj set, envVar_foldl, AppBlock.headers]
                cases block.get "environment" with
                | _ => rfl
            · cases set

/-! ### How long it is -/

theorem length_joined {texts : List Uri} {envVar : List UInt8} (given : joined texts = some envVar) :
    texts ≠ [] ∧ envVar.length + 1 = (texts.map (·.1.1.length)).sum + texts.length := by
  unfold joined at given
  split at given
  · cases given
  · next some =>
      refine ⟨some, ?_⟩
      rw [← Option.some.inj given]
      clear given
      induction texts with
      | nil => exact absurd rfl some
      | cons text rest ih =>
          cases rest with
          | nil => simp [List.intercalate_singleton]
          | cons other rest =>
              have later := ih (List.cons_ne_nil _ _)
              have one : (ascii "#").length = 1 := rfl
              rw [List.map_cons] at later
              rw [List.map_cons, List.map_cons, List.intercalate_cons_cons, List.length_append,
                List.length_append, List.map_cons, List.sum_cons, List.length_cons]
              omega

/-- The headers of a reply, with the two that every object has. -/
theorem length_encode_headers (env : Text) {name path type analytics user : Uri}
    (named : block.get "name" = some name) (placed : block.get "path" = some path)
    (typed : block.get "type" = some type) (analysed : block.get "analytics" = some analytics)
    (owned : block.get "run_as_user" = some user) :
    (encode (contentLengthEntry 0 :: scgiEntry ::
      block.headers env name path type analytics user)).length = block.size env + 107 := by
  have sizes : (ascii "COMPONENT").length = 9 ∧ (ascii "WORKER").length = 6 ∧
      (ascii "METHOD").length = 6 ∧ (ascii "CONF_REQ").length = 8 ∧ (ascii "STATUS").length = 6 ∧
      (ascii "OK").length = 2 ∧ (ascii "NAME").length = 4 ∧ (ascii "PATH").length = 4 ∧
      (ascii "BASE_URI").length = 8 ∧ (ascii "TYPE").length = 4 ∧
      (ascii "ANALYTICS").length = 9 ∧ (ascii "USER").length = 4 ∧ (ascii "ENV").length = 3 ∧
      (ascii "ENV_VAR").length = 7 := by decide
  have front : (Scgi.encodeEntry (contentLengthEntry 0)).length = 17 ∧
      (Scgi.encodeEntry scgiEntry).length = 7 := by decide
  have uri : (encode (((block.get "baseuri").map (·.1.1)).map (ascii "BASE_URI", ·)).toList).length =
      if (block.get "baseuri").isSome then block.length "baseuri" + 10 else 0 := by
    unfold AppBlock.length
    cases block.get "baseuri" with
    | none => rfl
    | some uri =>
        have whole := Scgi.length_encodeEntry (ascii "BASE_URI", uri.1.1)
        simp only [sizes] at whole
        simp only [Option.map_some, Option.toList_some, Scgi.encode_singleton, whole,
          Option.isSome_some, if_true, Option.getD_some]
        omega
  have joint : (encode ((joined (environmentVariables block)).map
        (ascii "ENV_VAR", ·)).toList).length =
      if environmentVariables block = [] then 0
      else ((environmentVariables block).map (·.1.1.length)).sum +
        (environmentVariables block).length + 8 := by
    cases given : joined (environmentVariables block) with
    | none =>
        unfold joined at given
        split at given
        · next none =>
            rw [if_pos none]
            rfl
        · cases given
    | some envVar =>
        obtain ⟨some, total⟩ := length_joined given
        have whole := Scgi.length_encodeEntry (ascii "ENV_VAR", envVar)
        simp only [sizes] at whole
        rw [if_neg some, Option.map_some, Option.toList_some, Scgi.encode_singleton, whole]
        omega
  simp only [AppBlock.headers, confReqHeaders, AppBlock.size, Scgi.encode_append,
    Scgi.encode_cons, Scgi.encode_nil, List.length_append, List.length_nil, uri, joint, front,
    Scgi.length_encodeEntry, sizes]
  simp only [AppBlock.length, named, placed, typed, analysed, owned, Option.map_some,
    Option.getD_some]
  omega

/-- A reply fits the buffer of a worker just when the texts of the node leave room for it. -/
theorem length_frame_le_iff {items : List Scgi.Entry} {size : Nat}
    (length : (encode items).length = size + 107) :
    (frame items).length ≤ CtlMessage.msgSize ↔ size ≤ 911 := by
  have total := Scgi.length_frame items
  have limit : CtlMessage.msgSize = 1024 := rfl
  rw [length] at total
  rcases Nat.lt_or_ge (size + 107) 10000 with few | many
  · have text := @Decimal.format_of_lt (size + 107) (by omega)
    have long := @Decimal.length_ofNat_le (size + 107) 4 (by decide) few
    have short := @Decimal.length_ofNat_le_iff (size + 107) 3 (by decide)
    rw [text] at total
    omega
  · omega

/-! ### What a worker gets -/

section Reply

variable {env : Text} {name path type analytics user : Uri}

/-- The names in a reply. -/
theorem headers_names : (contentLengthEntry 0 :: scgiEntry ::
      block.headers env name path type analytics user).map Prod.fst =
    ["CONTENT_LENGTH", "SCGI", "COMPONENT", "METHOD", "STATUS", "NAME", "PATH"].map ascii ++
      ((if (block.get "baseuri").isSome then ["BASE_URI"] else []) ++
        ["TYPE", "ANALYTICS", "USER", "ENV"] ++
        if (joined (environmentVariables block)).isSome then ["ENV_VAR"] else []).map ascii := by
  unfold AppBlock.headers
  cases block.get "baseuri" with
  | _ => cases joined (environmentVariables block) with
    | _ => rfl

theorem headers_nodup : ((contentLengthEntry 0 :: scgiEntry ::
    block.headers env name path type analytics user).map Prod.fst).Nodup := by
  rw [headers_names]
  cases (block.get "baseuri").isSome with
  | _ => cases (joined (environmentVariables block)).isSome with
    | _ => decide +kernel

theorem joined_plain {texts : List Uri} {envVar : List UInt8}
    (given : joined texts = some envVar) : (0 : UInt8) ∉ envVar := by
  unfold joined at given
  split at given
  · cases given
  · rw [← Option.some.inj given]
    clear given
    induction texts with
    | nil => exact List.not_mem_nil
    | cons text rest ih =>
        have separator : (0 : UInt8) ∉ ascii "#" := by decide
        cases rest with
        | nil =>
            rw [List.map_singleton, List.intercalate_singleton]
            exact text.1.2
        | cons other rest =>
            have later := ih (List.cons_ne_nil _ _)
            rw [List.map_cons] at later
            rw [List.map_cons, List.map_cons, List.intercalate_cons_cons, List.mem_append,
              List.mem_append, not_or, not_or]
            exact ⟨⟨text.1.2, separator⟩, later⟩

/-- The values in a reply are C strings, and so are the names, which have no comma. -/
theorem headers_clean : Clean (contentLengthEntry 0 :: scgiEntry ::
    block.headers env name path type analytics user) := by
  intro item member
  constructor
  · have listed := List.mem_map_of_mem (f := Prod.fst) member
    rw [headers_names] at listed
    revert listed
    generalize item.1 = key
    revert key
    cases (block.get "baseuri").isSome with
    | _ => cases (joined (environmentVariables block)).isSome with
      | _ => decide +kernel
  · simp only [AppBlock.headers, confReqHeaders, List.mem_cons, List.mem_append,
      List.not_mem_nil, or_false, Option.mem_toList, Option.map_map, Option.map_eq_some_iff]
      at member
    rcases member with rfl | rfl | (((rfl | rfl | rfl | rfl | rfl) | ⟨uri, -, rfl⟩) |
      rfl | rfl | rfl | rfl) | ⟨envVar, given, rfl⟩
    · decide
    · decide
    · decide
    · decide
    · decide
    · exact name.1.2
    · exact path.1.2
    · exact uri.1.2
    · exact type.1.2
    · exact analytics.1.2
    · exact user.1.2
    · exact (((block.get "environment").map (·.1)).getD env).2
    · exact joined_plain given

/-- Every field of a reply is found. -/
theorem headers_fields (env : Text) (named : block.get "name" = some name)
    (placed : block.get "path" = some path) (typed : block.get "type" = some type)
    (analysed : block.get "analytics" = some analytics)
    (owned : block.get "run_as_user" = some user) :
    ∀ field ∈ configuredFields env block,
      latest (contentLengthEntry 0 :: scgiEntry ::
        block.headers env name path type analytics user) (ascii field.1) = field.2 := by
  have found : ∀ {key value}, (ascii key, value) ∈ block.headers env name path type analytics user →
      latest (contentLengthEntry 0 :: scgiEntry ::
        block.headers env name path type analytics user) (ascii key) = some value :=
    fun member => Scgi.latest_of_mem headers_nodup
      (List.mem_cons_of_mem _ (List.mem_cons_of_mem _ member))
  have none : ∀ {key}, ascii key ∉ (contentLengthEntry 0 :: scgiEntry ::
        block.headers env name path type analytics user).map Prod.fst →
      latest (contentLengthEntry 0 :: scgiEntry ::
        block.headers env name path type analytics user) (ascii key) = none :=
    Scgi.latest_of_not_mem
  intro field member
  simp only [configuredFields, List.mem_cons, List.not_mem_nil, or_false] at member
  rcases member with rfl | rfl | rfl | rfl | rfl | rfl | rfl | rfl | rfl | rfl
  · exact found (by simp [AppBlock.headers, confReqHeaders])
  · exact found (by simp [AppBlock.headers, confReqHeaders])
  · rw [named]
    exact found (by simp [AppBlock.headers, confReqHeaders])
  · rw [placed]
    exact found (by simp [AppBlock.headers, confReqHeaders])
  · cases given : block.get "baseuri" with
    | none =>
        apply none
        rw [headers_names, given]
        cases (joined (environmentVariables block)).isSome with
        | _ => decide +kernel
    | some uri => exact found (by simp [AppBlock.headers, confReqHeaders, given])
  · rw [typed]
    exact found (by simp [AppBlock.headers, confReqHeaders])
  · rw [analysed]
    exact found (by simp [AppBlock.headers, confReqHeaders])
  · rw [owned]
    exact found (by simp [AppBlock.headers, confReqHeaders])
  · exact found (by simp [AppBlock.headers, confReqHeaders])
  · cases given : joined (environmentVariables block) with
    | none =>
        apply none
        rw [headers_names, given]
        cases (block.get "baseuri").isSome with
        | _ => decide +kernel
    | some envVar => exact found (by simp [AppBlock.headers, confReqHeaders, given])

/-- A reply that fits is a message for a worker. -/
theorem replyMessage (fits : (frame (contentLengthEntry 0 :: scgiEntry ::
      block.headers env name path type analytics user)).length ≤ CtlMessage.msgSize) :
    ∃ message : CtlMessage, message.items = contentLengthEntry 0 :: scgiEntry ::
      block.headers env name path type analytics user ∧ message.body = [] := by
  refine ⟨⟨_, [], headers_clean, ⟨ascii "0", ?_, by decide⟩, ?_⟩, rfl, rfl⟩
  · exact Scgi.latest_of_mem headers_nodup List.mem_cons_self
  · rw [List.append_nil]
    exact fits

/-- A worker goes on with a reply that it can use. -/
theorem ctlMsgProcess_reply (configured : Bool) {get : List UInt8 → Option (List UInt8)}
    (method : get (ascii "METHOD") = some (ascii "CONF_REQ"))
    (status : get (ascii "STATUS") = some (ascii "OK")) :
    CtlMessage.ctlMsgProcess configured get = configured := by
  unfold CtlMessage.ctlMsgProcess
  rw [method]
  dsimp only
  rw [if_neg (by decide), if_neg (by decide), if_neg (by decide), if_neg (by decide),
    if_pos rfl, status]
  exact if_neg (not_not_intro rfl)

/-- A reply that fits is delivered. -/
theorem delivered (env : Text) (named : block.get "name" = some name)
    (placed : block.get "path" = some path) (typed : block.get "type" = some type)
    (analysed : block.get "analytics" = some analytics)
    (owned : block.get "run_as_user" = some user)
    (fits : (frame (contentLengthEntry 0 :: scgiEntry ::
      block.headers env name path type analytics user)).length ≤ CtlMessage.msgSize) :
    Delivered (frame (contentLengthEntry 0 :: scgiEntry ::
      block.headers env name path type analytics user)) (configuredFields env block) := by
  have fields := headers_fields env named placed typed analysed owned
  have method := fields ("METHOD", some (ascii "CONF_REQ")) (by simp [configuredFields])
  have status := fields ("STATUS", some (ascii "OK")) (by simp [configuredFields])
  obtain ⟨message, items, body⟩ := replyMessage fits
  rw [← items] at fields method status ⊢
  have wire : message.wire = frame message.items := by
    rw [CtlMessage.wire, body, List.append_nil]
  rw [← wire]
  intro configured arrivals ctl run
  have protocol := CtlMessage.workerProtocol configured
  have alone := @Intake.run_alone _ _ _ _ _ _ _ _ _ _ protocol message trivial arrivals
  have same : ctl = Intake.run CtlMessage.msgSize CtlMessage.workerLook
      (fun index request =>
        CtlMessage.ctlMsgProcess (configured index) request.headerValueGet)
      (Intake.start message.wire) arrivals := run
  rw [← same] at alone
  obtain ⟨early, late⟩ := alone
  constructor
  · intro part
    have here := early part
    have unserved := List.forall₂_nil_right_iff.mp here.served
    have buffer := here.buffer
    have socket := here.socket
    rw [List.flatMap_singleton] at buffer socket
    rw [← buffer, ← socket, ← here.alive, ← unserved]
  · intro whole
    obtain ⟨request, -, took, done⟩ := late whole
    have get := message.workerLook_get took
    refine ⟨request, ?_, fun field member => ?_⟩
    · rw [done, ctlMsgProcess_reply (configured 0) (get ▸ method) (get ▸ status)]
    · rw [get]
      exact fields field member

end Reply

/-- Headers that are added one after the other. -/
theorem issued_headers (items : List Scgi.Entry) :
    Scgi.Issued (items.map fun item => .headerAdd item.1 item.2)
      (items.map fun item => .special item.1 item.2) where
  headers := by
    induction items with
    | nil => rfl
    | cons item rest ih =>
        rw [List.map_cons, List.filter_cons_of_pos rfl, ih, List.map_cons, List.flatMap_cons]
        rfl
  increasing := by
    have unnumbered : (items.map fun item => Scgi.Group.special item.1 item.2).filterMap
        Scgi.Group.index? = [] := by
      rw [List.filterMap_eq_nil_iff]
      intro group listed
      obtain ⟨item, -, rfl⟩ := List.mem_map.mp listed
      rfl
    rw [unnumbered]
    exact List.pairwise_singleton _ _

/-- What is left in an object of headers. -/
theorem built_headers (junk : Nat → UInt8) (items : List Scgi.Entry) :
    (Scgi.built junk (items.map fun item => .headerAdd item.1 item.2)).Built
      (contentLengthEntry 0 :: scgiEntry :: items) (scgiEntry :: items) ∧
    (Scgi.built junk (items.map fun item => .headerAdd item.1 item.2)).body.getD [] = [] := by
  have built := Scgi.built_of_issued junk (issued_headers items)
  have bodiless : Scgi.bodyOf (items.map fun item => .headerAdd item.1 item.2) = [] := by
    rw [Scgi.bodyOf, List.flatMap_eq_nil_iff]
    intro call listed
    obtain ⟨item, -, rfl⟩ := List.mem_map.mp listed
    rfl
  have same : (items.map fun item => Scgi.Group.special item.1 item.2).map Scgi.Group.entry =
      items := by
    rw [List.map_map]
    exact List.map_id items
  rw [bodiless, same] at built
  exact built

theorem wire_built (junk : Nat → UInt8) (items : List Scgi.Entry) :
    (Scgi.built junk (items.map fun item => .headerAdd item.1 item.2)).wire =
      frame (contentLengthEntry 0 :: scgiEntry :: items) := by
  obtain ⟨built, body⟩ := built_headers junk items
  rw [Scgi.wire, body, List.append_nil, built.block]

theorem length_reply_le_iff
    (accepted : wrConfigApplicationSet around server garbage block = .accepted app) :
    app.scgi.wire.length ≤ CtlMessage.msgSize ↔ block.size server.env ≤ 911 := by
  obtain ⟨name, path, type, analytics, user, named, placed, typed, analysed, owned, made⟩ :=
    accepted_spec accepted
  rw [made, wire_built]
  exact length_frame_le_iff
    (length_encode_headers server.env named placed typed analysed owned)

/-- When does the reply for an accepted node fit the buffer of a worker and is delivered? -/
theorem conf_reply_delivered
    (accepted : wrConfigApplicationSet around server garbage block = .accepted app) :
    (app.scgi.wire.length ≤ CtlMessage.msgSize ∧
      Delivered app.scgi.wire (configuredFields server.env block)) ↔
    block.size server.env ≤ 911 := by
  have fits := length_reply_le_iff accepted
  refine ⟨fun reply => fits.mp reply.1, fun small => ⟨fits.mpr small, ?_⟩⟩
  obtain ⟨name, path, type, analytics, user, named, placed, typed, analysed, owned, made⟩ :=
    accepted_spec accepted
  have short := fits.mpr small
  rw [made, wire_built] at short ⊢
  exact delivered server.env named placed typed analysed owned short

/-- A system with every file and every user. -/
def sampleSurroundings : Surroundings := ⟨fun _ => true, fun _ => true, fun _ => [], fun _ => 0⟩

def sampleServer : ServerSettings := ⟨configInit fun _ => 0, cString (ascii "production")⟩

/-- An application under a base URI, with a variable. -/
def sampleBlock (variableText : List UInt8) : AppBlock where
  value := fun key => Option.map cString
    (if key = "name" then some (ascii "blog")
    else if key = "path" then some (ascii "/srv/blog")
    else if key = "type" then some (ascii "rails")
    else if key = "analytics" then some (ascii "enabled")
    else if key = "baseuri" then some (ascii "/blog")
    else if key = "run_as_user" then some (ascii "www")
    else none)
  variableKeys := [some (cString variableText)]

theorem conf_reply_delivered_sample : ∃ app,
    wrConfigApplicationSet sampleSurroundings sampleServer (fun _ => 0)
      (sampleBlock (ascii "TZ=UTC")) = .accepted app ∧
    app.scgi.wire.length ≤ CtlMessage.msgSize ∧
    Delivered app.scgi.wire
      (configuredFields sampleServer.env (sampleBlock (ascii "TZ=UTC"))) := by
  have some : (wrConfigApplicationSet sampleSurroundings sampleServer (fun _ => 0)
      (sampleBlock (ascii "TZ=UTC"))).settings.isSome = true := by decide +kernel
  cases verdict : wrConfigApplicationSet sampleSurroundings sampleServer (fun _ => 0)
      (sampleBlock (ascii "TZ=UTC")) with
  | accepted app => exact ⟨app, rfl, (conf_reply_delivered verdict).mpr (by decide +kernel)⟩
  | refused _ | crashed =>
      rw [verdict] at some
      cases some

/-- A variable of 900 bytes is too much. -/
theorem not_conf_reply_delivered :
    ¬ ∀ (around : Surroundings) (server : ServerSettings) (garbage : Memory) (block : AppBlock)
        (app : AppSettings),
      wrConfigApplicationSet around server garbage block = .accepted app →
        app.scgi.wire.length ≤ CtlMessage.msgSize ∧
          Delivered app.scgi.wire (configuredFields server.env block) := by
  intro claimed
  have some : (wrConfigApplicationSet sampleSurroundings sampleServer (fun _ => 0)
      (sampleBlock (List.replicate 900 120))).settings.isSome = true := by decide +kernel
  cases verdict : wrConfigApplicationSet sampleSurroundings sampleServer (fun _ => 0)
      (sampleBlock (List.replicate 900 120)) with
  | accepted app =>
      have short := (claimed _ _ _ _ app verdict).1
      exact absurd ((length_reply_le_iff verdict).mp short) (by decide +kernel)
  | refused _ | crashed =>
      rw [verdict] at some
      cases some

end Configurator
