import Webroar.Configurator.Uniqueness

/-! # Base URIs and host names of the live applications

The list that is left of the configuration file starts the server. From then on no two live
applications have a base URI or a host name in common, as long as the two checks of the source do
not have to find what they do not look for: base URIs are not compared when an application is added
or reloaded, of host names only the first ones are, and a configuration that waits for its first
worker is compared with nothing.
-/

namespace Configurator

open Resolver (AppConf Uri Host staticName)

namespace Deployment

variable {root panel : Bool} {count : Nat} {left : List Entry} {app : Live} {entry : Entry}

/-! ### The start -/

/-- What the applications inserted one after the other leave. -/
theorem foldl_appInsert (entries : List Entry) (state : Deployment)
    (distinct : (entries.map Entry.address).Nodup) (alone : (state.live.map Live.conf).Nodup)
    (fresh : ∀ entry ∈ entries, ∀ app ∈ state.live, app.conf ≠ entry.address) :
    (entries.foldl appInsert state).list = state.list ∧
      (entries.foldl appInsert state).next = state.next ∧
      ((entries.foldl appInsert state).live.map Live.conf).Nodup ∧
      (∀ app ∈ (entries.foldl appInsert state).apps,
        app ∈ state.apps ∨ ∃ entry ∈ entries, app = ⟨entry.address, false⟩) ∧
      ∀ app, (entries.foldl appInsert state).staticApp = some app →
        (state.staticApp = some app ∧ ∀ entry ∈ entries, entry.name ≠ staticName) ∨
          ∃ entry ∈ entries, entry.name = staticName ∧ app = ⟨entry.address, false⟩ := by
  induction entries generalizing state with
  | nil =>
      exact ⟨rfl, rfl, alone, fun app member => .inl member,
        fun app static => .inl ⟨static, fun _ absent => absurd absent List.not_mem_nil⟩⟩
  | cons entry rest ih =>
      rw [List.map_cons, List.nodup_cons] at distinct
      have own := fresh entry List.mem_cons_self
      have later : ∀ other ∈ rest, ∀ app ∈ (appInsert state entry).live,
          app.conf ≠ other.address := by
        intro other behind app live same
        rcases mem_appInsert live with rfl | old
        · exact distinct.1 (List.mem_map.mpr ⟨other, behind, same.symm⟩)
        · exact fresh other (List.mem_cons_of_mem _ behind) app old same
      obtain ⟨list, next, nodup, apps, static⟩ :=
        ih (appInsert state entry) distinct.2 (appInsert_alone alone own) later
      obtain ⟨sameList, sameNext⟩ := appInsert_list state entry
      refine ⟨list.trans sameList, next.trans sameNext, nodup, fun app member => ?_,
        fun app given => ?_⟩
      · rcases apps app member with old | ⟨other, behind, rfl⟩
        · unfold appInsert at old
          split at old
          · exact .inl old
          · rcases List.mem_cons.mp old with rfl | older
            · exact .inr ⟨entry, List.mem_cons_self, rfl⟩
            · exact .inl older
        · exact .inr ⟨other, List.mem_cons_of_mem _ behind, rfl⟩
      · rcases static app given with ⟨old, none⟩ | ⟨other, behind, named, rfl⟩
        · unfold appInsert at old
          split at old
          · next named =>
              obtain rfl := Option.some.inj old
              exact .inr ⟨entry, List.mem_cons_self, named, rfl⟩
          · next named =>
              refine .inl ⟨old, fun other member => ?_⟩
              rcases List.mem_cons.mp member with rfl | behind
              · exact named
              · exact none other behind
        · exact .inr ⟨other, List.mem_cons_of_mem _ behind, named, rfl⟩

theorem mem_bootList (member : entry ∈ bootList root panel count left) :
    (entry = ⟨count + 1, staticServer, none⟩ ∧ root = true) ∨
      entry = ⟨count, adminPanel, none⟩ ∨ entry ∈ left := by
  unfold bootList at member
  rcases List.mem_append.mp member with static | rest
  · split at static
    · next able => exact .inl ⟨List.mem_singleton.mp static, able⟩
    · cases static
  · rcases List.mem_append.mp rest with admin | behind
    · split at admin
      · exact .inr (.inl (List.mem_singleton.mp admin))
      · cases admin
    · exact .inr (.inr behind)

theorem bootList_distinct (distinct : (left.map Entry.address).Nodup)
    (below : ∀ entry ∈ left, entry.address < count) :
    ((bootList root panel count left).map Entry.address).Nodup := by
  have admin : (((if panel && root then [⟨count, adminPanel, none⟩] else []) ++ left :
      List Entry).map Entry.address).Nodup := by
    split
    · rw [List.singleton_append, List.map_cons, List.nodup_cons]
      refine ⟨fun member => ?_, distinct⟩
      obtain ⟨entry, listed, same⟩ := List.mem_map.mp member
      exact Nat.ne_of_lt (below entry listed) same
    · exact distinct
  unfold bootList
  split
  · rw [List.singleton_append, List.map_cons, List.nodup_cons]
    refine ⟨fun member => ?_, admin⟩
    obtain ⟨entry, listed, same⟩ := List.mem_map.mp member
    rcases List.mem_append.mp listed with panel | file
    · split at panel
      · rw [List.mem_singleton.mp panel] at same
        exact Nat.ne_of_lt (Nat.lt_succ_self count) same
      · cases panel
    · have less := below entry file
      have high : entry.address = count + 1 := same
      omega
  · exact admin

/-- At the start every live application has a configuration of its own, which waits for nothing. -/
theorem boot_sound {Pair : AppConf → AppConf → Prop} {Proper : AppConf → Prop}
    (distinct : (left.map Entry.address).Nodup) (below : ∀ entry ∈ left, entry.address < count)
    (proper : ∀ app entry, (boot root panel count left).Runs app entry → Proper entry.conf)
    (pair : ∀ app entry other also, (boot root panel count left).Runs app entry →
      (boot root panel count left).Runs other also → entry ≠ also →
      Pair entry.conf also.conf) :
    Sound Pair Proper (boot root panel count left) := by
  have nodup := @bootList_distinct root panel count left distinct below
  obtain ⟨list, next, alone, apps, static⟩ := foldl_appInsert (bootList root panel count left)
    ⟨bootList root panel count left, [], none, count + 2⟩ nodup List.nodup_nil
    (fun _ _ _ absent => absurd absent List.not_mem_nil)
  have live : ∀ app ∈ (boot root panel count left).live,
      ∃ entry ∈ bootList root panel count left, app = ⟨entry.address, false⟩ := by
    intro app member
    rcases List.mem_append.mp member with old | last
    · exact (apps app old).resolve_left List.not_mem_nil
    · rcases static app (Option.mem_toList.mp last) with ⟨none, -⟩ | ⟨entry, listed, -, own⟩
      · cases none
      · exact ⟨entry, listed, own⟩
  refine ⟨⟨alone, ?_, proper, ?_⟩, list ▸ nodup, ?_, ?_, ?_⟩
  · intro app member
    obtain ⟨entry, listed, own⟩ := live app member
    exact ⟨entry, member, list ▸ listed, own ▸ rfl⟩
  · intro app entry other also runs runs' differ
    apply pair app entry other also runs runs'
    intro same
    have equal : app.conf = other.conf := runs.own.symm.trans (same ▸ runs'.own)
    exact differ (List.inj_on_of_nodup_map alone runs.live runs'.live equal)
  · intro entry listed
    rw [boot, list] at listed
    rw [boot, next]
    dsimp only
    rcases mem_bootList listed with ⟨rfl, -⟩ | rfl | file
    · exact Nat.lt_succ_self _
    · exact Nat.lt_succ_of_lt (Nat.lt_succ_self count)
    · exact (below entry file).trans (Nat.lt_succ_of_lt (Nat.lt_succ_self count))
  · intro app entry runs restarts
    obtain ⟨first, inside, own⟩ := live app runs.live
    rw [own] at restarts
    cases restarts
  · intro app entry given runs
    have listed := runs.listed
    rw [boot, list] at listed
    rcases static app given with ⟨none, -⟩ | ⟨first, inside, named, own⟩
    · cases none
    · have same : entry.address = first.address := by
        rw [runs.own, own]
      rw [List.inj_on_of_nodup_map nodup listed inside same]
      exact named

/-- The static server that is inserted first stays only when no later one has its name. -/
theorem foldl_static {list rest : List Entry} {address next : Nat}
    (distinct : (address :: rest.map Entry.address).Nodup)
    (live : app ∈ (rest.foldl appInsert ⟨list, [], some ⟨address, false⟩, next⟩).live)
    (own : app.conf = address) : ∀ other ∈ rest, other.name ≠ staticName := by
  have alone : ((⟨list, [], some ⟨address, false⟩, next⟩ : Deployment).live.map
      Live.conf).Nodup := List.nodup_singleton address
  have fresh : ∀ entry ∈ rest, ∀ app ∈ (⟨list, [], some ⟨address, false⟩, next⟩ :
      Deployment).live, app.conf ≠ entry.address := by
    intro entry member app only same
    rw [List.mem_singleton.mp only] at same
    exact (List.nodup_cons.mp distinct).1 (List.mem_map.mpr ⟨entry, member, same.symm⟩)
  obtain ⟨-, -, -, apps, static⟩ := foldl_appInsert rest _ (List.nodup_cons.mp distinct).2 alone
    fresh
  have apart : ∀ other ∈ rest, app ≠ ⟨other.address, false⟩ := by
    intro other member same
    rw [same] at own
    exact (List.nodup_cons.mp distinct).1 (List.mem_map.mpr ⟨other, member, own⟩)
  rcases List.mem_append.mp live with old | last
  · obtain ⟨other, member, same⟩ := (apps app old).resolve_left List.not_mem_nil
    exact absurd same (apart other member)
  · rcases static app (Option.mem_toList.mp last) with ⟨-, none⟩ | ⟨other, member, -, same⟩
    · exact none
    · exact absurd same (apart other member)

/-- A live application at the start has an entry of the file, the admin panel's or the static
server's, the last only when no entry of the file has its name. -/
theorem boot_runs (distinct : (left.map Entry.address).Nodup)
    (below : ∀ entry ∈ left, entry.address < count)
    (runs : (boot root panel count left).Runs app entry) :
    (entry = ⟨count + 1, staticServer, none⟩ ∧ root = true ∧
        ∀ other ∈ left, other.name ≠ staticName) ∨
      entry = ⟨count, adminPanel, none⟩ ∨ entry ∈ left := by
  have nodup := @bootList_distinct root panel count left distinct below
  obtain ⟨list, -⟩ := foldl_appInsert (bootList root panel count left)
    ⟨bootList root panel count left, [], none, count + 2⟩ nodup List.nodup_nil
    (fun _ _ _ absent => absurd absent List.not_mem_nil)
  have listed := runs.listed
  rw [boot, list] at listed
  rcases mem_bootList listed with ⟨rfl, able⟩ | rest
  · refine .inl ⟨rfl, able, fun other member => ?_⟩
    subst able
    have unnamed := foldl_static nodup runs.live runs.own.symm other
    apply unnamed
    change other ∈ (if panel && true then [(⟨count, adminPanel, none⟩ : Entry)] else []) ++ left
    exact List.mem_append_right _ member
  · exact .inr rest

end Deployment

/-! ### The configuration file -/

theorem iterateAppNode_distinct (nodes : List AppNode) :
    ((iterateAppNode nodes).map Entry.address).Nodup := by
  have numbers : (iterateAppNode nodes).map Entry.address =
      List.range (nodes.filterMap AppNode.conf).length := by
    apply List.ext_getElem
    · rw [iterateAppNode, List.length_map, List.length_mapIdx, List.length_range]
    · intro index first second
      rw [List.getElem_map, List.getElem_range]
      simp only [iterateAppNode, List.getElem_mapIdx]
  rw [numbers]
  exact List.nodup_range

theorem iterateAppNode_below {nodes : List AppNode} {entry : Entry}
    (listed : entry ∈ iterateAppNode nodes) : entry.address < (iterateAppNode nodes).length := by
  obtain ⟨index, inside, rfl⟩ := List.mem_mapIdx.mp listed
  rw [iterateAppNode, List.length_mapIdx]
  exact inside

theorem owners_sublist (list : List Entry) : (owners list).Sublist list := List.filter_sublist

/-- Two entries that stay do not share a base URI. -/
theorem owners_apart {list : List Entry} {entry other : Entry} (one : entry ∈ owners list)
    (two : other ∈ owners list) (differ : entry ≠ other) : Apart entry.conf other.conf := by
  intro uri first second
  have stays := of_decide_eq_true (List.mem_filter.mp one).2 uri first
  have also := of_decide_eq_true (List.mem_filter.mp two).2 uri second
  exact differ (Option.some.inj (stays.2.symm.trans also.2))

theorem owners_ordinary {list : List Entry} {entry : Entry} (listed : entry ∈ owners list) :
    entry.baseuri ≠ some adminUri := fun admin =>
  (of_decide_eq_true (List.mem_filter.mp listed).2 adminUri admin).1 rfl

theorem Apart.symm {first second : AppConf} (apart : Apart first second) : Apart second first :=
  fun uri one two => apart uri two one

/-- Only the application of the admin panel's name has its base URI. -/
def AdminsOwn (conf : AppConf) : Prop := conf.baseuri = some adminUri → conf.name = adminName

/-! ### Base URIs -/

open Deployment

/-- The walk over the configuration file leaves each base URI with its first owner exactly when no
application that goes has an earlier namesake that stays. Then no two live applications have one
base URI, in any state of a run whose additions and reloads bring no base URI of another one and
whose names are found in both lists alike. -/
theorem baseuris_unique (nodes : List AppNode) :
    (Loop.Ends baseuriTurn (baseuriStart (iterateAppNode nodes)) (owners (iterateAppNode nodes)) ↔
      Namesakes (iterateAppNode nodes)) ∧
    (Namesakes (iterateAppNode nodes) → ∀ left,
      Loop.Ends hostTurn (hostStart (owners (iterateAppNode nodes))) left →
      ∀ (root panel : Bool) (events : Nat → Event),
      (root = true → (∃ entry ∈ left, entry.name = staticName) ∨
        ∀ entry ∈ left, entry.baseuri ≠ staticServer.baseuri) →
      (∀ count state, Machine.after (Machine.attempt (perform root)) events
        (some (boot root panel (iterateAppNode nodes).length left)) count = some state →
        Permits Apart AdminsOwn root (events count) state) →
      ∀ count, ∃ state, Machine.after (Machine.attempt (perform root)) events
        (some (boot root panel (iterateAppNode nodes).length left)) count = some state ∧
        Fine Apart AdminsOwn state) := by
  have distinct := iterateAppNode_distinct nodes
  refine ⟨baseuri_walk_iff distinct, ?_⟩
  intro namesakes left ends root panel events static permits count
  have inside : left.Sublist (owners (iterateAppNode nodes)) := host_walk_sublist ends
  have part := inside.trans (owners_sublist _)
  have sound : Sound Apart AdminsOwn (boot root panel (iterateAppNode nodes).length left) := by
    have nodup := distinct.sublist (part.map _)
    have below : ∀ entry ∈ left, entry.address < (iterateAppNode nodes).length :=
      fun entry member => iterateAppNode_below (part.mem member)
    have ordinary : ∀ entry ∈ left, entry.baseuri ≠ some adminUri :=
      fun entry member => owners_ordinary (inside.mem member)
    -- the base URI of the static server is neither the admin panel's nor one of the file
    have alone : ∀ entry ∈ left, root = true → (∀ other ∈ left, other.name ≠ staticName) →
        Apart staticServer entry.conf := by
      intro entry member able unnamed uri own same
      rcases static able with ⟨other, listed, named⟩ | apart
      · exact unnamed other listed named
      · exact apart entry member (same.trans own.symm)
    have panels : Apart staticServer adminPanel := by
      intro uri one two
      have same := one.trans two.symm
      exact absurd same (by decide)
    have admins : ∀ entry ∈ left, Apart adminPanel entry.conf := by
      intro entry member uri own same
      exact ordinary entry member (same.trans own.symm)
    apply boot_sound nodup below
    · intro app entry runs admin
      have usual : staticServer.baseuri ≠ some adminUri := by decide
      rcases boot_runs nodup below runs with ⟨rfl, -⟩ | rfl | file
      · exact absurd admin usual
      · rfl
      · exact absurd admin (ordinary entry file)
    · intro app entry other also runs runs' differ
      rcases boot_runs nodup below runs with ⟨rfl, able, unnamed⟩ | rfl | file
      · rcases boot_runs nodup below runs' with ⟨rfl, -⟩ | rfl | file'
        · exact absurd rfl differ
        · exact panels
        · exact alone also file' able unnamed
      · rcases boot_runs nodup below runs' with ⟨rfl, -⟩ | rfl | file'
        · exact panels.symm
        · exact absurd rfl differ
        · exact admins also file'
      · rcases boot_runs nodup below runs' with ⟨rfl, able, unnamed⟩ | rfl | file'
        · exact (alone entry file able unnamed).symm
        · exact (admins entry file).symm
        · exact owners_apart (inside.mem file) (inside.mem file') differ
  obtain ⟨state, reached, kept⟩ := sound.run (fun _ _ apart => apart.symm) root permits count
  exact ⟨state, reached, kept.toFine⟩

/-- An application of the configuration file with a base URI. -/
def uriNode (name uri : String) (named : (0 : UInt8) ∉ ascii name) (plain : (0 : UInt8) ∉ ascii uri)
    (some : ascii uri ≠ []) : AppNode :=
  ⟨⟨ascii name, named⟩, Option.some (Option.some ⟨⟨ascii uri, plain⟩, some⟩, [])⟩

/-- Two applications with one base URI. -/
def sampleNodes : List AppNode :=
  [uriNode "shop" "/shop" (by decide) (by decide) (by decide),
    uriNode "store" "/shop" (by decide) (by decide) (by decide)]

/-- Two applications with one name and one base URI. -/
def sampleNamesakes : List AppNode :=
  [uriNode "shop" "/shop" (by decide) (by decide) (by decide),
    uriNode "shop" "/shop" (by decide) (by decide) (by decide)]

/-- The walk uses an application after it removed it for its namesake. And once the first of two
applications runs, the other one is added under the same base URI. -/
theorem not_baseuris_unique :
    Loop.drive baseuriTurn 2 (baseuriStart (iterateAppNode sampleNamesakes)) = .fault ∧
      ∃ state, perform false (.add (ascii "store") (some sampleNodes))
        (boot false false 1 (iterateAppNode (sampleNodes.take 1))) = some state ∧
        ¬ Fine Apart AdminsOwn state := by
  refine ⟨rfl, _, rfl, fun fine => ?_⟩
  have pair := fine.pair ⟨3, false⟩
    { (iterateAppNode sampleNodes).get ⟨1, by decide⟩ with address := 3 } ⟨0, false⟩
    ((iterateAppNode sampleNodes).get ⟨0, by decide⟩) ⟨by decide, by decide, rfl⟩
    ⟨by decide, by decide, rfl⟩ (by decide)
  exact pair _ rfl rfl

/-- The first of the two alone, while others are added that are not in the file. -/
theorem baseuris_unique_sample :
    (Loop.Ends baseuriTurn (baseuriStart (iterateAppNode (sampleNodes.take 1)))
      (owners (iterateAppNode (sampleNodes.take 1)))) ∧
    ∀ count, ∃ state, Machine.after (Machine.attempt (perform true))
      (fun _ => .add (ascii "store") none)
      (some (boot true true 1 (iterateAppNode (sampleNodes.take 1)))) count = some state ∧
      Fine Apart AdminsOwn state := by
  have unique := baseuris_unique (sampleNodes.take 1)
  have namesakes : Namesakes (iterateAppNode (sampleNodes.take 1)) := by
    intro before entry after cut goes other earlier
    cases before with
    | nil => exact absurd earlier List.not_mem_nil
    | cons first rest =>
        have long := congrArg List.length cut
        rw [List.length_append, List.length_cons, List.length_cons] at long
        have short : (iterateAppNode (sampleNodes.take 1)).length = 1 := rfl
        omega
  refine ⟨unique.1.mpr namesakes, ?_⟩
  apply unique.2 namesakes (iterateAppNode (sampleNodes.take 1)) ⟨20, rfl⟩ true true
  · intro _
    exact .inr (by decide)
  · intro count state _ conf read
    have nothing : confRead true (ascii "store") none = none := rfl
    unfold readNew at read
    split at read
    · cases read
    · rw [confAccept, nothing] at read
      cases read

/-! ### Host names -/

variable {root : Bool} {state : Deployment} {name : List UInt8} {file : Option (List AppNode)}
  {conf : AppConf} {app : Live} {entry : Entry}

/-- What is read for a name has the name. -/
theorem confRead_name (read : confRead root name file = some conf) : conf.name.1 = name := by
  unfold confRead at read
  split at read
  · next admin =>
      split at read
      · cases read
        exact admin.symm
      · cases read
  · split at read
    · next static =>
        split at read
        · cases read
          exact static.symm
        · cases read
    · obtain ⟨nodes, -, found⟩ := Option.bind_eq_some_iff.mp read
      obtain ⟨node, first, made⟩ := Option.bind_eq_some_iff.mp found
      have named := List.find?_some first
      rw [decide_eq_true_eq] at named
      obtain ⟨settings, -, rfl⟩ := Option.map_eq_some_iff.mp made
      exact named

/-- A configuration shares host names only with applications among whose texts its first one is. -/
def Seen (state : Deployment) (conf : AppConf) : Prop :=
  ∀ app entry, state.Runs app entry → entry.name ≠ conf.name.1 → Shares conf entry.conf →
    Found conf.hostNameList entry.hosts

/-- A configuration that is asked for shares a host name with another live application. -/
def Clashes (root : Bool) (event : Event) (state : Deployment) : Prop :=
  match event with
  | .add name file | .reload name file =>
      ∃ conf, confRead root name file = some conf ∧
        ∃ app entry, state.Runs app entry ∧ entry.name ≠ name ∧ Shares conf entry.conf
  | _ => False

/-- What an event must not do: bring in a host name of another live application where the check
does not look, let a restarted application have one that another application has got meanwhile, or
miss the configuration of the application it names. -/
def HostPermits (root : Bool) (event : Event) (state : Deployment) : Prop :=
  match event with
  | .add name file => ∀ conf, confRead root name file = some conf → Seen state conf
  | .remove name => state.Meant name
  | .reload name file =>
      (∀ conf, confRead root name file = some conf → Seen state conf) ∧
      ∀ app, state.exist name = some (some app) → ∃ entry, state.Runs app entry ∧
        (state.list.find? fun entry => entry.name = name) = some entry
  | .restarted name => ∀ app conf, state.renewed name app conf →
      Admissible (fun first second => ¬ Shares first second) (fun _ => True) state (some app) conf
  | .abandoned _ => True

/-- What passes the check shares no host name it would have seen. -/
theorem not_shares_of_pass (pass : hostsPass state.list conf = true) (seen : Seen state conf)
    (runs : state.Runs app entry) (other : entry.name ≠ conf.name.1) :
    ¬ Shares conf entry.conf := by
  intro shares
  obtain ⟨host, listed, also⟩ := shares
  have found := seen app entry runs other ⟨host, listed, also⟩
  unfold hostsPass at pass
  rcases Bool.or_eq_true_iff.mp pass with none | checked
  · rw [of_decide_eq_true none] at listed
    cases listed
  · have each := List.all_eq_true.mp (Bool.and_eq_true_iff.mp checked).2 entry runs.listed
    rcases Bool.or_eq_true_iff.mp each with skipped | compared
    · rcases Bool.or_eq_true_iff.mp skipped with none | same
      · have bare : entry.conf.hostNameList = [] := of_decide_eq_true none
        rw [bare] at also
        cases also
      · exact other (of_decide_eq_true same)
    · rw [chkHostLists_iff.mpr found] at compared
      cases compared

theorem admissible_of_seen (seen : ∀ conf, confRead root name file = some conf → Seen state conf)
    (read : readNew root state name file = some conf) :
    Admissible (fun first second => ¬ Shares first second) (fun _ => True) state none conf := by
  refine ⟨trivial, fun app entry runs _ => ?_⟩
  unfold readNew at read
  split at read
  · cases read
  · next unlisted =>
      obtain ⟨found, pass⟩ := Option.filter_eq_some_iff.mp read
      apply not_shares_of_pass pass (seen conf found) runs
      intro named
      rw [confRead_name found] at named
      exact unlisted (List.any_eq_true.mpr ⟨entry, runs.listed, decide_eq_true named⟩)

theorem permits_of_hostPermits {event : Event} (permits : HostPermits root event state) :
    Permits (fun first second => ¬ Shares first second) (fun _ => True) root event state := by
  cases event with
  | add name file => exact fun conf read => admissible_of_seen permits read
  | remove name => exact permits
  | reload name file => exact ⟨fun conf read => admissible_of_seen permits.1 read, permits.2⟩
  | restarted name => exact permits
  | abandoned conf => trivial

/-- A request that would have an application share a host name is not taken from the file. -/
theorem accept_of_clash (seen : ∀ conf, confRead root name file = some conf → Seen state conf)
    (read : confRead root name file = some conf) (runs : state.Runs app entry)
    (other : entry.name ≠ name) (shares : Shares conf entry.conf) :
    confAccept root state.list name file = none := by
  rw [confAccept, read, Option.filter_some, if_neg]
  intro pass
  rw [← confRead_name read] at other
  exact not_shares_of_pass pass (seen conf read) runs other shares

theorem start_none (nothing : confAccept root state.list name file = none) :
    start root state name file = (state, .refused) := by
  have none : readNew root state name file = none := by
    unfold readNew
    split
    · rfl
    · exact nothing
  rw [start, none]

theorem refused_of_clash {event : Event} (permits : HostPermits root event state)
    (clash : Clashes root event state) {after : Deployment} {outcome : Outcome}
    (stepped : state.step root event = some (after, outcome)) : outcome = .refused := by
  cases event with
  | add name file =>
      obtain ⟨conf, read, app, entry, runs, other, shares⟩ := clash
      have nothing := accept_of_clash permits read runs other shares
      rw [step, addCb] at stepped
      split at stepped
      · cases stepped
      · cases stepped
        rfl
      · rw [start_none nothing] at stepped
        cases stepped
        rfl
  | reload name file =>
      obtain ⟨conf, read, app, entry, runs, other, shares⟩ := clash
      have nothing := accept_of_clash permits.1 read runs other shares
      rw [step, reloadCb, nothing] at stepped
      split at stepped
      · cases stepped
      · rw [start_none nothing] at stepped
        cases stepped
        rfl
      · split at stepped
        · next taken => cases taken
        · cases stepped
          rfl
  | remove name => exact clash.elim
  | restarted name => exact clash.elim
  | abandoned conf => exact clash.elim

theorem start_refused {after : Deployment}
    (started : start root state name file = (after, .refused)) : after = state := by
  unfold start at started
  split at started
  · exact (Prod.mk.inj started).1.symm
  · cases (Prod.mk.inj started).2

/-- A request that is refused changes nothing. -/
theorem same_of_refused {event : Event} {after : Deployment}
    (stepped : state.step root event = some (after, .refused)) : after = state := by
  cases event with
  | add name file =>
      rw [step, addCb] at stepped
      split at stepped
      · cases stepped
      · exact (Prod.mk.inj (Option.some.inj stepped)).1.symm
      · exact start_refused (Option.some.inj stepped)
  | reload name file =>
      rw [step, reloadCb] at stepped
      split at stepped
      · cases stepped
      · exact start_refused (Option.some.inj stepped)
      · split at stepped
        · dsimp only at stepped
          split at stepped
          · cases stepped
          · cases (Prod.mk.inj (Option.some.inj stepped)).2
        · exact (Prod.mk.inj (Option.some.inj stepped)).1.symm
  | remove name =>
      rw [step, remove] at stepped
      split at stepped
      · cases stepped
      · cases (Prod.mk.inj (Option.some.inj stepped)).2
      · split at stepped
        · cases (Prod.mk.inj (Option.some.inj stepped)).2
        · exact (Prod.mk.inj (Option.some.inj stepped)).1.symm
  | restarted name =>
      rw [step, restarted] at stepped
      split at stepped
      · cases stepped
      · exact (Prod.mk.inj (Option.some.inj stepped)).1.symm
      · split at stepped
        · split at stepped
          · cases stepped
          · cases (Prod.mk.inj (Option.some.inj stepped)).2
        · exact (Prod.mk.inj (Option.some.inj stepped)).1.symm
  | abandoned conf =>
      rw [step, abandoned] at stepped
      split at stepped
      · exact (Prod.mk.inj (Option.some.inj stepped)).1.symm
      · split at stepped
        · split at stepped
          · cases stepped
          · cases (Prod.mk.inj (Option.some.inj stepped)).2
        · exact (Prod.mk.inj (Option.some.inj stepped)).1.symm

/-- Where names do no harm and clashes are at the first host name, the walks over the configuration
file leave no two applications with one host name and take out none that was not at odds; then no
two live applications share one in any state of a run whose events keep to the same, and a request
that would have one shared is refused and changes nothing. -/
theorem hosts_unique (nodes : List AppNode) (namesakes : Namesakes (iterateAppNode nodes))
    (regular : Regular (owners (iterateAppNode nodes))) :
    ∃ left, Loop.Ends baseuriTurn (baseuriStart (iterateAppNode nodes))
        (owners (iterateAppNode nodes)) ∧
      Loop.Ends hostTurn (hostStart (owners (iterateAppNode nodes))) left ∧
      (∀ entry ∈ owners (iterateAppNode nodes),
        ¬ AtOdds (owners (iterateAppNode nodes)) entry → entry ∈ left) ∧
      ∀ (root panel : Bool) (events : Nat → Event),
        (∀ count state, Machine.after (Machine.attempt (perform root)) events
          (some (boot root panel (iterateAppNode nodes).length left)) count = some state →
          HostPermits root (events count) state) →
        ∀ count, ∃ state, Machine.after (Machine.attempt (perform root)) events
          (some (boot root panel (iterateAppNode nodes).length left)) count = some state ∧
          Fine (fun first second => ¬ Shares first second) (fun _ => True) state ∧
          ∀ after outcome, state.step root (events count) = some (after, outcome) →
            (Clashes root (events count) state → outcome = .refused) ∧
            (outcome = .refused → after = state) := by
  have distinct := iterateAppNode_distinct nodes
  have nodup := distinct.sublist ((owners_sublist _).map _)
  obtain ⟨left, ends, inside, unshared, kept⟩ := host_walk_ends nodup regular
  refine ⟨left, baseuri_ends distinct namesakes, ends, kept, ?_⟩
  intro root panel events permits count
  have symm : ∀ first second, ¬ Shares first second → ¬ Shares second first := by
    rintro first second apart ⟨host, one, two⟩
    exact apart ⟨host, two, one⟩
  have part := inside.trans (owners_sublist _)
  have fresh := nodup.sublist (inside.map _)
  have below : ∀ entry ∈ left, entry.address < (iterateAppNode nodes).length :=
    fun entry member => iterateAppNode_below (part.mem member)
  have sound : Sound (fun first second => ¬ Shares first second) (fun _ => True)
      (boot root panel (iterateAppNode nodes).length left) := by
    have bare : ∀ conf : AppConf, conf.hostNameList = [] → ∀ other,
        ¬ Shares conf other ∧ ¬ Shares other conf := by
      intro conf none other
      refine ⟨?_, ?_⟩
      · rintro ⟨host, listed, -⟩
        rw [none] at listed
        cases listed
      · rintro ⟨host, -, listed⟩
        rw [none] at listed
        cases listed
    apply boot_sound fresh below (fun _ _ _ => trivial)
    intro app entry other also runs runs' differ
    rcases boot_runs fresh below runs with ⟨rfl, -⟩ | rfl | file
    · exact (bare staticServer rfl also.conf).1
    · exact (bare adminPanel rfl also.conf).1
    · rcases boot_runs fresh below runs' with ⟨rfl, -⟩ | rfl | file'
      · exact (bare staticServer rfl entry.conf).2
      · exact (bare adminPanel rfl entry.conf).2
      · have both : Std.Symm fun earlier later : Entry => ¬ Shares earlier.conf later.conf :=
          ⟨fun first second => symm first.conf second.conf⟩
        exact unshared.forall file file' differ
  obtain ⟨state, reached, holds⟩ := sound.run symm root
    (fun count state reached => permits_of_hostPermits (permits count state reached)) count
  refine ⟨state, reached, holds.toFine, fun after outcome stepped => ⟨fun clash => ?_, ?_⟩⟩
  · exact refused_of_clash (permits count state reached) clash stepped
  · rintro rfl
    exact same_of_refused stepped

/-- An application of the configuration file with host names. -/
def hostNode (name : String) (named : (0 : UInt8) ∉ ascii name) (hosts : List Host) : AppNode :=
  ⟨⟨ascii name, named⟩, some (none, hosts)⟩

/-- Two applications; the second host name of the one is the only one of the other. -/
def sampleHosts : List AppNode :=
  [hostNode "shop" (by decide)
      [⟨.static, ⟨ascii "a", by decide⟩⟩, ⟨.static, ⟨ascii "b", by decide⟩⟩],
    hostNode "store" (by decide) [⟨.static, ⟨ascii "b", by decide⟩⟩]]

/-- The same, with the host names of the one the other way round. -/
def sampleTurned : List AppNode :=
  [hostNode "shop" (by decide)
      [⟨.static, ⟨ascii "b", by decide⟩⟩, ⟨.static, ⟨ascii "a", by decide⟩⟩],
    hostNode "store" (by decide) [⟨.static, ⟨ascii "b", by decide⟩⟩]]

/-- Both applications go live, with one host name. -/
theorem not_hosts_unique :
    Loop.Ends baseuriTurn (baseuriStart (iterateAppNode sampleHosts)) (iterateAppNode sampleHosts) ∧
      Loop.Ends hostTurn (hostStart (iterateAppNode sampleHosts)) (iterateAppNode sampleHosts) ∧
      ¬ Fine (fun first second => ¬ Shares first second) (fun _ => True)
        (boot false false 2 (iterateAppNode sampleHosts)) := by
  refine ⟨⟨20, rfl⟩, ⟨20, rfl⟩, fun fine => ?_⟩
  have pair := fine.pair ⟨0, false⟩ ((iterateAppNode sampleHosts).get ⟨0, by decide⟩) ⟨1, false⟩
    ((iterateAppNode sampleHosts).get ⟨1, by decide⟩) ⟨by decide, by decide, rfl⟩
    ⟨by decide, by decide, rfl⟩ (by decide)
  exact pair ⟨⟨.static, ⟨ascii "b", by decide⟩⟩, by decide, by decide⟩

/-- The other way round both are refused. -/
theorem hosts_unique_sample :
    ∃ left, Loop.Ends hostTurn (hostStart (owners (iterateAppNode sampleTurned))) left ∧
      ∀ count, ∃ state, Machine.after (Machine.attempt (perform true))
        (fun _ => .add (ascii "store") none) (some (boot true true 2 left)) count = some state ∧
        Fine (fun first second => ¬ Shares first second) (fun _ => True) state := by
  have all : owners (iterateAppNode sampleTurned) = iterateAppNode sampleTurned := by decide
  have namesakes : Namesakes (iterateAppNode sampleTurned) := by
    intro before entry after cut goes
    have listed : entry ∈ owners (iterateAppNode sampleTurned) := by
      rw [all, cut]
      exact List.mem_append_right _ List.mem_cons_self
    exact absurd (of_decide_eq_true (List.mem_filter.mp listed).2) goes
  have regular : Regular (owners (iterateAppNode sampleTurned)) := by
    rw [all]
    refine ⟨?_, ?_⟩
    · refine List.pairwise_pair.mpr fun same => ?_
      exact absurd same (by decide)
    · refine List.pairwise_pair.mpr fun _ => ?_
      exact ⟨_, rfl, _, List.mem_cons_self, rfl⟩
  obtain ⟨left, -, ends, -, run⟩ := hosts_unique sampleTurned namesakes regular
  refine ⟨left, ends, fun count => ?_⟩
  have nothing : confRead true (ascii "store") none = none := rfl
  obtain ⟨state, reached, fine, -⟩ := run true true (fun _ => .add (ascii "store") none)
    (fun _ _ _ conf read => nomatch nothing.symm.trans read) count
  exact ⟨state, reached, fine⟩

end Configurator
