import Mathlib.Data.List.Nodup
import Webroar.Head.Forgery
import Webroar.Worker.Environment

/-! # The values head and application see

The head looks up the latest header of a name, and the application sees the first one. They see
the same value as long as the headers of one name have one value: those a client repeats, a
version header beside that of the head, and host headers beside the host of an absolute URI.
-/

namespace Request

open Scgi (contentLengthEntry contentLengthName scgiEntry latest earliest renameLatest)

/-- The value the head has for a name: the content length it wrote, or what it looks up. -/
def headValue (incoming : Incoming) (req : Request) (name : List UInt8) : Option (List UInt8) :=
  if name = contentLengthName then
    some (Decimal.format incoming.request.contentLength)
  else
    (req.scgi.headerGet name).map fun header => (req.scgi.entry header).2

/-- The application sees the values the head sees. -/
def Agree (incoming : Incoming) (req : Request) : Prop :=
  ∃ parsed, Scgi.parse req.scgi.block = some parsed ∧
    ∀ name, parsed.reqEnv name = headValue incoming req name

/-- The names of the client headers. -/
def Incoming.clientNames (incoming : Incoming) : List (List UInt8) :=
  incoming.clientEntries.map Prod.fst

/-- The headers of one name have one value, as far as the client can tell. -/
structure Unambiguous (head : Head) (incoming : Incoming) : Prop where
  /-- The version fits its buffer. -/
  version : (versionPrinted incoming.request).length < 16
  /-- The first version header of the client is the version. -/
  versions : ∀ value, earliest incoming.clientEntries httpVerName = some value →
    value = versionPrinted incoming.request
  /-- The first and the last client header of a name have the same value. -/
  repeated : ∀ name, name ≠ httpVerName →
    ((resolved (incoming.requestLine head)).2 = none ∨ name ≠ hostName) →
    earliest incoming.clientEntries name = latest incoming.clientEntries name
  /-- When the URI has a host it is that of the first host header, unless that is the only one. -/
  hosts : ∀ host, (resolved (incoming.requestLine head)).2 = some host →
    incoming.clientNames.count hostName ≤ 1 ∨
      earliest incoming.clientEntries hostName = some host

variable {head : Head} {incoming : Incoming} {req : Request}

/-- The head sees the latest entry of a name. -/
theorem Received.headValue (received : Received head incoming req) (name : List UInt8) :
    headValue incoming req name = latest (incoming.entries head) name := by
  unfold Request.headValue
  by_cases own : name = contentLengthName
  · rw [if_pos own, own, latest_contentLength]
  · have alone : name ∉ [contentLengthEntry incoming.request.contentLength].map Prod.fst := by
      intro member
      exact own (List.mem_singleton.mp member)
    have split : incoming.entries head =
        [contentLengthEntry incoming.request.contentLength] ++ incoming.added head := rfl
    rw [if_neg own, received.built.holds.latest_eq, split, Scgi.latest_append,
      Scgi.latest_of_not_mem alone, Option.or_none]

/-! ### Names that are not the client's -/

theorem count_client (incoming : Incoming) {name : List UInt8}
    (other : httpPrefix.isPrefixOf name = false) :
    ((scgiEntry :: incoming.clientEntries).map Prod.fst).count name =
      [ascii "SCGI"].count name := by
  have absent : name ∉ incoming.clientEntries.map Prod.fst := by
    intro member
    obtain ⟨item, inside, rfl⟩ := List.mem_map.mp member
    obtain ⟨header, -, rfl⟩ := List.mem_map.mp inside
    rw [header.prefix_name] at other
    cases other
  rw [List.map_cons, List.count_cons, List.count_eq_zero_of_not_mem absent, List.count_cons,
    List.count_nil]
  rfl

theorem count_hosted (incoming : Incoming) (head : Head) {name : List UInt8}
    (other : httpPrefix.isPrefixOf name = false) :
    ((incoming.hostEntries head).map Prod.fst).count name ≤
      ([ascii "SCGI"] ++ [hiddenHostName]).count name := by
  have client := count_client incoming other
  have notHost : name ≠ hostName := by
    rintro rfl
    exact absurd other (by decide)
  rw [List.count_append, ← client]
  unfold Incoming.hostEntries
  cases (resolved (incoming.requestLine head)).2 with
  | none => exact Nat.le_add_right _ _
  | some host =>
      have new : ([(hostName, host)].map Prod.fst).count name = 0 := by
        apply List.count_eq_zero_of_not_mem
        exact fun member => notHost (List.mem_singleton.mp member)
      rw [hosted_some, List.map_append, List.count_append, new]
      rcases Scgi.latest_split hostName (scgiEntry :: incoming.clientEntries) with
        absent | ⟨before, value, after, split, last⟩
      · rw [Scgi.renameLatest_of_not_mem absent]
        exact Nat.le_add_right _ _
      · rw [split, Scgi.renameLatest_of_split last]
        simp only [List.map_append, List.map_cons, List.count_append, List.count_cons,
          List.count_nil]
        omega

/-- A name without the client's prefix comes at most once. -/
theorem count_unprefixed (incoming : Incoming) (head : Head) {name : List UInt8}
    (other : httpPrefix.isPrefixOf name = false) :
    ((incoming.entries head).map Prod.fst).count name ≤ 1 := by
  have once : (([contentLengthName] ++ ([ascii "SCGI"] ++ [hiddenHostName])) ++ writtenNames).Nodup := by
    decide
  have hosted := count_hosted incoming head other
  have written := ((incoming.written_names head).count_le name)
  have total := List.nodup_iff_count_le_one.mp once name
  have split : incoming.entries head = [contentLengthEntry incoming.request.contentLength] ++
      (incoming.hostEntries head ++ incoming.written head) := by
    rw [Incoming.entries, incoming.added_eq]
    rfl
  rw [List.count_append, List.count_append] at total
  rw [split, List.map_append, List.map_append, List.count_append, List.count_append]
  have own : ([contentLengthEntry incoming.request.contentLength].map Prod.fst).count name =
      [contentLengthName].count name := rfl
  omega

/-! ### Names of the client -/

/-- Other names than the host's have the entries of the client. -/
theorem hostEntries_of_prefix (incoming : Incoming) (head : Head) {name : List UInt8}
    (client : httpPrefix.isPrefixOf name = true)
    (other : (resolved (incoming.requestLine head)).2 = none ∨ name ≠ hostName) :
    earliest (incoming.hostEntries head) name = earliest incoming.clientEntries name ∧
      latest (incoming.hostEntries head) name = latest incoming.clientEntries name := by
  have notScgi : scgiEntry.1 ≠ name := by
    rintro rfl
    exact absurd client (by decide)
  have notHidden : hiddenHostName ≠ name := by
    rintro rfl
    exact absurd client (by decide)
  have bare := Scgi.earliest_cons_of_ne notScgi incoming.clientEntries
  unfold Incoming.hostEntries
  cases host : (resolved (incoming.requestLine head)).2 with
  | none => exact bare
  | some text =>
      have notHost : name ≠ hostName := other.resolve_left (by rw [host]; nofun)
      have absent : name ∉ [(hostName, text)].map Prod.fst := fun member =>
        notHost (List.mem_singleton.mp member)
      obtain ⟨first, last⟩ := Scgi.earliest_renameLatest (Ne.symm notHost) notHidden
        (scgiEntry :: incoming.clientEntries)
      rw [hosted_some, Scgi.earliest_append, Scgi.latest_append, Scgi.earliest_of_not_mem absent,
        Scgi.latest_of_not_mem absent, Option.or_none, Option.none_or, first, last]
      exact bare

/-- The host of an absolute URI: the application sees it unless an earlier host header of the
client stays. -/
theorem hostEntries_host (incoming : Incoming) (head : Head) {host : List UInt8}
    (absolute : (resolved (incoming.requestLine head)).2 = some host) :
    earliest (incoming.hostEntries head) hostName = latest (incoming.hostEntries head) hostName ↔
      incoming.clientNames.count hostName ≤ 1 ∨
        earliest incoming.clientEntries hostName = some host := by
  have notScgi : scgiEntry.1 ≠ hostName := by decide
  have notHidden : hiddenHostName ≠ hostName := by decide
  have final : latest (incoming.hostEntries head) hostName = some host := by
    rw [Incoming.hostEntries, absolute, hosted_some]
    exact @Scgi.latest_of_split hostName host _ [] List.not_mem_nil
  rw [final, Incoming.hostEntries, absolute, hosted_some, Incoming.clientNames]
  have last : earliest [(hostName, host)] hostName = some host := by
    simp [earliest]
  rcases Scgi.latest_split hostName incoming.clientEntries with
    absent | ⟨before, value, after, split, missing⟩
  · have whole : hostName ∉ (scgiEntry :: incoming.clientEntries).map Prod.fst := by
      rw [List.map_cons, List.mem_cons, not_or]
      exact ⟨Ne.symm notScgi, absent⟩
    rw [Scgi.renameLatest_of_not_mem whole, Scgi.earliest_append, Scgi.earliest_of_not_mem whole,
      last, List.count_eq_zero_of_not_mem absent]
    exact ⟨fun _ => Or.inl (Nat.zero_le 1), fun _ => rfl⟩
  · have renamed : earliest (renameLatest hostName hiddenHostName
        (scgiEntry :: incoming.clientEntries)) hostName = earliest before hostName := by
      have front : scgiEntry :: incoming.clientEntries =
          (scgiEntry :: before) ++ (hostName, value) :: after := by
        rw [split]
        rfl
      rw [front, Scgi.renameLatest_of_split missing, Scgi.earliest_append,
        (Scgi.earliest_cons_of_ne notScgi before).1, (Scgi.earliest_cons_of_ne _ after).1,
        Scgi.earliest_of_not_mem missing, Option.or_none]
      exact notHidden
    have counted : (incoming.clientEntries.map Prod.fst).count hostName =
        (before.map Prod.fst).count hostName + 1 := by
      rw [split, List.map_append, List.count_append, List.map_cons, List.count_cons_self,
        List.count_eq_zero_of_not_mem missing]
    rw [Scgi.earliest_append, renamed, last, counted, split, Scgi.earliest_of_split]
    by_cases earlier : hostName ∈ before.map Prod.fst
    · obtain ⟨first, found⟩ := Scgi.earliest_of_mem earlier
      have positive := List.count_pos_iff.mpr earlier
      rw [found, Option.getD_some, Option.some_or]
      exact ⟨Or.inr, fun either => either.resolve_left (by omega)⟩
    · rw [Scgi.earliest_of_not_mem earlier, List.count_eq_zero_of_not_mem earlier]
      exact ⟨fun _ => Or.inl (Nat.le_refl 1), fun _ => rfl⟩

/-! ### All entries -/

theorem entries_split (incoming : Incoming) (head : Head) {name : List UInt8}
    (other : name ≠ contentLengthName) :
    earliest (incoming.entries head) name =
        (earliest (incoming.hostEntries head) name).or (earliest (incoming.written head) name) ∧
      latest (incoming.entries head) name =
        (latest (incoming.written head) name).or (latest (incoming.hostEntries head) name) := by
  have added := incoming.added_eq head
  obtain ⟨first, last⟩ := @Scgi.earliest_cons_of_ne name
    (contentLengthEntry incoming.request.contentLength) (Ne.symm other) (incoming.added head)
  rw [Incoming.entries, first, last, added, Scgi.earliest_append, Scgi.latest_append]
  exact ⟨rfl, rfl⟩

/-- Other client names than that of the version have the entries of the client and the host. -/
theorem entries_of_prefix (incoming : Incoming) (head : Head) {name : List UInt8}
    (client : httpPrefix.isPrefixOf name = true) (other : name ≠ httpVerName) :
    earliest (incoming.entries head) name = earliest (incoming.hostEntries head) name ∧
      latest (incoming.entries head) name = latest (incoming.hostEntries head) name := by
  have own : ∀ name ∈ contentLengthName :: writtenNames, httpPrefix.isPrefixOf name = true →
      name = httpVerName := by decide
  have absent : name ∉ (incoming.written head).map Prod.fst := fun member =>
    other (own name (List.mem_cons_of_mem _ ((incoming.written_names head).subset member)) client)
  have notLength : name ≠ contentLengthName := by
    rintro rfl
    exact other (own _ List.mem_cons_self client)
  obtain ⟨first, last⟩ := entries_split incoming head notLength
  rw [first, last, Scgi.earliest_of_not_mem absent, Scgi.latest_of_not_mem absent,
    Option.or_none, Option.none_or]
  exact ⟨rfl, rfl⟩

/-- The version of the head comes behind version headers of the client. -/
theorem entries_version (incoming : Incoming) (head : Head) :
    earliest (incoming.entries head) httpVerName =
        some ((earliest incoming.clientEntries httpVerName).getD
          (versionText head incoming.request)) ∧
      latest (incoming.entries head) httpVerName =
        some (versionText head incoming.request) := by
  have client : httpPrefix.isPrefixOf httpVerName = true := by decide
  have notHost : httpVerName ≠ hostName := by decide
  have notLength : httpVerName ≠ contentLengthName := by decide
  have once : writtenNames.count httpVerName ≤ 1 := by decide
  have bound := ((incoming.written_names head).count_le httpVerName).trans once
  have written : (httpVerName, versionText head incoming.request) ∈ incoming.written head := by
    rw [Incoming.written]
    exact List.mem_append_right _ (by simp [lateHeaders, connectionHeaders])
  have here := Scgi.earliest_of_once written bound
  obtain ⟨first, last⟩ := entries_split incoming head notLength
  obtain ⟨hosted, -⟩ := hostEntries_of_prefix incoming head client (Or.inr notHost)
  rw [first, last, hosted, ← Scgi.earliest_eq_latest bound, here, Option.some_or]
  refine ⟨?_, Eq.refl _⟩
  cases earliest incoming.clientEntries httpVerName with
  | none => rw [Option.none_or, Option.getD_none]
  | some value => rw [Option.some_or, Option.getD_some]

/-- The first and the latest entry of every name have the same value exactly when the client's
headers are unambiguous. -/
theorem earliest_eq_latest_iff (incoming : Incoming) (head : Head)
    (version : (versionPrinted incoming.request).length < 16) :
    (∀ name, earliest (incoming.entries head) name = latest (incoming.entries head) name) ↔
      Unambiguous head incoming := by
  have printed : versionText head incoming.request = versionPrinted incoming.request := by
    rw [versionText, if_pos version]
  obtain ⟨firstVersion, lastVersion⟩ := entries_version incoming head
  rw [printed] at firstVersion lastVersion
  constructor
  · intro same
    refine ⟨version, fun value found => ?_, fun name notVersion other => ?_, fun host absolute => ?_⟩
    · have both := same httpVerName
      rw [firstVersion, lastVersion, found, Option.getD_some] at both
      exact Option.some.inj both
    · cases client : httpPrefix.isPrefixOf name with
      | true =>
          obtain ⟨first, last⟩ := entries_of_prefix incoming head client notVersion
          obtain ⟨firstHosted, lastHosted⟩ := hostEntries_of_prefix incoming head client other
          rw [← firstHosted, ← lastHosted, ← first, ← last]
          exact same name
      | false =>
          have absent : name ∉ incoming.clientEntries.map Prod.fst := by
            intro member
            obtain ⟨item, inside, rfl⟩ := List.mem_map.mp member
            obtain ⟨header, -, rfl⟩ := List.mem_map.mp inside
            rw [header.prefix_name] at client
            cases client
          rw [Scgi.earliest_of_not_mem absent, Scgi.latest_of_not_mem absent]
    · have client : httpPrefix.isPrefixOf hostName = true := by decide
      have notVersion : hostName ≠ httpVerName := by decide
      obtain ⟨first, last⟩ := entries_of_prefix incoming head client notVersion
      rw [← hostEntries_host incoming head absolute, ← first, ← last]
      exact same hostName
  · rintro ⟨-, versions, repeated, hosts⟩ name
    cases client : httpPrefix.isPrefixOf name with
    | false => exact Scgi.earliest_eq_latest (count_unprefixed incoming head client)
    | true =>
        by_cases isVersion : name = httpVerName
        · subst isVersion
          rw [firstVersion, lastVersion]
          cases found : earliest incoming.clientEntries httpVerName with
          | none => rfl
          | some value => rw [versions value found, Option.getD_some]
        · obtain ⟨first, last⟩ := entries_of_prefix incoming head client isVersion
          rw [first, last]
          cases host : (resolved (incoming.requestLine head)).2 with
          | none =>
              obtain ⟨firstHosted, lastHosted⟩ :=
                hostEntries_of_prefix incoming head client (Or.inl host)
              rw [firstHosted, lastHosted]
              exact repeated name isVersion (Or.inl host)
          | some text =>
              by_cases isHost : name = hostName
              · rw [isHost]
                exact (hostEntries_host incoming head host).mpr (hosts text host)
              · obtain ⟨firstHosted, lastHosted⟩ :=
                  hostEntries_of_prefix incoming head client (Or.inr isHost)
                rw [firstHosted, lastHosted]
                exact repeated name isVersion (Or.inr isHost)

/-- Head and application see the same values of an accepted request whose values have no NUL
exactly when its headers are unambiguous. -/
theorem agree_iff (accepted : Accepted head incoming req)
    (values : ∀ header ∈ incoming.headers, (0 : UInt8) ∉ header.entry.2) :
    Agree incoming req ↔ Unambiguous head incoming := by
  have received := accepted.received
  have seen : ∀ version : (versionPrinted incoming.request).length < 16,
      ∃ parsed, Scgi.parse req.scgi.block = some parsed ∧
        ∀ name, parsed.reqEnv name = earliest (incoming.entries head) name := by
    intro version
    obtain ⟨parsed, found, back⟩ := received.parsed ⟨values, version⟩ []
    rw [List.append_nil] at found
    exact ⟨parsed, found, back.holds.reqEnv (received.clean ⟨values, version⟩)⟩
  constructor
  · rintro ⟨parsed, found, same⟩
    have version : (versionPrinted incoming.request).length < 16 := by
      have value := same httpVerName
      rw [received.headValue, (entries_version incoming head).2] at value
      exact (plain_versionText head incoming.request).mp (parsed.plain_reqEnv value)
    rw [← earliest_eq_latest_iff incoming head version]
    intro name
    obtain ⟨other, again, first⟩ := seen version
    obtain rfl := Option.some.inj (found.symm.trans again)
    rw [← first, ← received.headValue]
    exact same name
  · intro unambiguous
    obtain ⟨parsed, found, first⟩ := seen unambiguous.version
    refine ⟨parsed, found, fun name => ?_⟩
    rw [first, received.headValue]
    exact (earliest_eq_latest_iff incoming head unambiguous.version).mpr unambiguous name

theorem agree_iff_sample :
    ∃ req, Accepted sampleHead (sampleIncoming ⟨ascii "a", by decide⟩) req ∧
      (Agree (sampleIncoming ⟨ascii "a", by decide⟩) req ↔
        Unambiguous sampleHead (sampleIncoming ⟨ascii "a", by decide⟩)) := by
  obtain ⟨req, accepted⟩ := accepted_of_accepts
    (show accepts sampleHead (sampleIncoming ⟨ascii "a", by decide⟩) = true by decide +kernel)
  exact ⟨req, accepted, agree_iff accepted (by decide)⟩

/-- A request for `/a` with two different host headers. -/
def twoHostsIncoming : Incoming where
  line := [.uri ⟨ascii "/a", noNul_path⟩, .path 2]
  headers :=
    [⟨tokenOf "Host" visible_host, [], ⟨ascii "one", by decide⟩, []⟩,
      ⟨tokenOf "Host" visible_host, [], ⟨ascii "two", by decide⟩, []⟩]
  request := ⟨.get, .identity, 1, 1, 0⟩
  body := []

/-- The head routes on the last host, and the application sees the first one. -/
theorem agree_fails :
    ∃ req, Accepted sampleHead twoHostsIncoming req ∧
      (∀ header ∈ twoHostsIncoming.headers, (0 : UInt8) ∉ header.entry.2) ∧
      ¬ Agree twoHostsIncoming req ∧
      headValue twoHostsIncoming req hostName = some (ascii "two") ∧
      (Scgi.parse req.scgi.block).map (fun parsed => parsed.reqEnv hostName) =
        some (some (ascii "one")) := by
  obtain ⟨req, accepted⟩ := accepted_of_accepts
    (show accepts sampleHead twoHostsIncoming = true by decide +kernel)
  have received := accepted.received
  have plain : twoHostsIncoming.Plain := by decide
  obtain ⟨parsed, found, back⟩ := received.parsed plain []
  rw [List.append_nil] at found
  have seen : parsed.reqEnv hostName = some (ascii "one") := by
    rw [back.holds.reqEnv (received.clean plain)]
    decide +kernel
  have used : headValue twoHostsIncoming req hostName = some (ascii "two") := by
    rw [received.headValue]
    decide +kernel
  refine ⟨req, accepted, plain.1, ?_, used, by rw [found, Option.map_some, seen]⟩
  rintro ⟨other, again, same⟩
  obtain rfl := Option.some.inj (found.symm.trans again)
  have both := same hostName
  rw [seen, used] at both
  exact absurd both (by decide)

end Request
