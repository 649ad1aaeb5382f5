import Webroar.Head.Resolver
import Webroar.Library.Transition

/-! # The resolver over the life of the server

Applications are inserted, reloaded and removed, and the resolver is kept in step with them. It
reflects the live applications in every state of a run exactly when no step does one of three
things: to reload the static content server, to take an application for the default one because
of its hash, and to take the default application away while another one asks to be it.
-/

namespace Resolver

/-- `Config->Application.Static_server.name`. -/
def staticName : List UInt8 := ascii "static-worker"

/-- The applications of the server and its resolver. Objects are numbered as they are made. -/
structure Registry where
  apps : List (Registration Nat)
  staticApp : Option (Registration Nat)
  server : Server Nat
  next : Nat
deriving DecidableEq

/-- What happens to applications; a reload is what `wr_app_reload` does with the new
configuration. -/
inductive Op where
  | insert (conf : AppConf)
  | reload (name : List UInt8) (conf : AppConf)
  | remove (name : List UInt8)

namespace Registry

def empty : Registry := ⟨[], none, Server.empty, 0⟩

/-- The search of the application list by name. -/
def find (registry : Registry) (name : List UInt8) : Option (Registration Nat) :=
  registry.apps.find? (·.conf.name.1 = name)

/-- An update changes everything the resolver reads but the name. -/
def updated (app : Registration Nat) (conf : AppConf) : Registration Nat :=
  ⟨app.app, { conf with name := app.conf.name }⟩

/-- The list with an application under its new configuration. -/
def replace (apps : List (Registration Nat)) (app : Registration Nat) :
    List (Registration Nat) := apps.map fun other => if other.app = app.app then app else other

def insert (registry : Registry) (conf : AppConf) : Registry :=
  if conf.name.1 = staticName then
    { registry with staticApp := some ⟨registry.next, conf⟩, next := registry.next + 1 }
  else
    { registry with
      apps := ⟨registry.next, conf⟩ :: registry.apps
      server := registry.server.add ⟨registry.next, conf⟩
      next := registry.next + 1 }

/-- `wr_app_reload` of the application found by name. -/
def reload (registry : Registry) (name : List UInt8) (conf : AppConf) : Registry :=
  match registry.find name with
  | some app =>
      { registry with
        apps := replace registry.apps (updated app conf)
        server := (registry.server.resolverRemove app.app).add (updated app conf) }
  | none =>
      if name = staticName then
        match registry.staticApp with
        | some app =>
            { registry with
              staticApp := some (updated app conf)
              server := (registry.server.resolverRemove app.app).add (updated app conf) }
        | none => registry
      else registry

/-- `wr_app_remove`: the object is taken out of the list and freed. -/
def remove (registry : Registry) (name : List UInt8) : Registry :=
  match registry.find name with
  | some app =>
      { registry with
        apps := registry.apps.filter (·.app ≠ app.app)
        server := registry.server.resolverRemove app.app }
  | none =>
      if name = staticName then
        match registry.staticApp with
        | some app =>
            { registry with
              staticApp := none
              server := registry.server.resolverRemove app.app }
        | none => registry
      else registry

def step (op : Op) (registry : Registry) : Registry :=
  match op with
  | .insert conf => registry.insert conf
  | .reload name conf => registry.reload name conf
  | .remove name => registry.remove name

end Registry

/-! ### The resolver the applications ask for -/

namespace Registration

/-- The entry an application should have in the base-URI list. -/
def properEntry (reg : Registration Nat) : Option (Baseuri Nat) :=
  reg.conf.baseuri.bind fun uri => if uri = rootUri then none else some ⟨uri.hash, reg.app⟩

end Registration

/-- The lists hold the entries of the live applications and no others, hosts in order. -/
structure Lists (server : Server Nat) (apps : List (Registration Nat)) : Prop where
  baseuris : server.baseuris.Perm (apps.filterMap Registration.properEntry)
  hosts : server.hosts.Perm (apps.flatMap Registration.hostEntries)
  sorted : server.hosts.Pairwise HostEntry.NoLater

/-- The default application is a live one with the base URI `/`, or there is none. -/
structure Default (server : Server Nat) (apps : List (Registration Nat)) : Prop where
  root : ∀ app, server.defaultApp = some app →
    ∃ reg ∈ apps, reg.app = app ∧ reg.conf.baseuri = some rootUri
  none : server.defaultApp = none → ∀ reg ∈ apps, reg.conf.baseuri ≠ some rootUri

/-- Host resolution finds a live application with a matching name of the least type there is. -/
structure Resolves (server : Server Nat) (apps : List (Registration Nat)) (value : List UInt8) :
    Prop where
  least : ∀ app, server.resolveHost value = some app →
    ∃ reg ∈ apps, reg.app = app ∧ ∃ host ∈ reg.conf.hostNameList, host.isMatch value = true ∧
      ∀ other ∈ apps, ∀ also ∈ other.conf.hostNameList, also.isMatch value = true →
        host.type.rank ≤ also.type.rank
  none : server.resolveHost value = none ↔
    ∀ reg ∈ apps, ∀ host ∈ reg.conf.hostNameList, host.isMatch value = false

/-- No pointer of the resolver leads to anything but a live application. -/
structure Alive (server : Server Nat) (apps : List (Registration Nat)) : Prop where
  baseuris : ∀ entry ∈ server.baseuris, entry.app ∈ apps.map (·.app)
  hosts : ∀ entry ∈ server.hosts, entry.app ∈ apps.map (·.app)
  default : ∀ app, server.defaultApp = some app → app ∈ apps.map (·.app)

/-- The resolver reflects the live applications. -/
structure Reflects (server : Server Nat) (apps : List (Registration Nat)) : Prop where
  lists : Lists server apps
  default : Default server apps
  alive : Alive server apps
  resolves : ∀ value, Resolves server apps value

/-- The hash of the default application stands for the base URI `/` only. -/
def AppConf.Proper (conf : AppConf) : Prop :=
  ∀ uri, conf.baseuri = some uri → uri.hash = prefixHash → uri = rootUri

/-- An application other than the given one asks to be the default. -/
def OtherRoot (apps : List (Registration Nat)) (app : Nat) : Prop :=
  ∃ other ∈ apps, other.app ≠ app ∧ other.conf.baseuri = some rootUri

/-- The steps that keep the resolver in line with the applications. -/
def Op.Fits (registry : Registry) : Op → Prop
  | .insert conf => conf.name.1 = staticName ∨ conf.Proper
  | .reload name conf =>
      match registry.find name with
      | some app =>
          conf.Proper ∧ (registry.server.defaultApp = some app.app →
            OtherRoot registry.apps app.app → conf.baseuri = some rootUri)
      | none =>
          name = staticName → registry.staticApp.isSome = true →
            conf.baseuri = none ∧ conf.hostNameList = []
  | .remove name =>
      match registry.find name with
      | some app => registry.server.defaultApp = some app.app → ¬ OtherRoot registry.apps app.app
      | none => True

/-- The objects that are in use. -/
def Registry.ids (registry : Registry) : List Nat :=
  registry.apps.map (·.app) ++ registry.staticApp.toList.map (·.app)

/-- Objects are numbered apart from each other and below the next number. -/
structure Registry.Numbered (registry : Registry) : Prop where
  apart : registry.ids.Nodup
  below : ∀ id ∈ registry.ids, id < registry.next

variable {server : Server Nat} {apps : List (Registration Nat)} {reg : Registration Nat}

/-! ### Entries -/

theorem Registration.properEntry_eq (proper : reg.conf.Proper) :
    reg.properEntry = reg.baseuriEntry := by
  rw [properEntry, baseuriEntry]
  cases given : reg.conf.baseuri with
  | none => rfl
  | some uri =>
      have same : uri = rootUri ↔ uri.hash = prefixHash :=
        ⟨fun root => by rw [root, hash_rootUri], proper uri given⟩
      simp only [Option.bind_some, same]

theorem Registration.properEntry_app {entry : Baseuri Nat}
    (shown : reg.properEntry = some entry) : entry.app = reg.app := by
  simp only [properEntry, Option.bind_eq_some_iff, Option.ite_none_left_eq_some,
    Option.some.injEq] at shown
  obtain ⟨uri, -, -, rfl⟩ := shown
  rfl

theorem Registration.isDefault_of_proper (proper : reg.conf.Proper) :
    reg.isDefault = true ↔ reg.conf.baseuri = some rootUri := by
  rw [isDefault_iff]
  constructor
  · rintro ⟨uri, given, hash⟩
    rw [given, proper uri given hash]
  · exact fun given => ⟨rootUri, given, hash_rootUri⟩

/-- Filtering out an application filters out its entries. -/
theorem filter_filterMap (app : Nat) :
    (apps.filterMap Registration.properEntry).filter (·.app ≠ app) =
      (apps.filter (·.app ≠ app)).filterMap Registration.properEntry := by
  induction apps with
  | nil => rfl
  | cons reg apps ih =>
      cases shown : reg.properEntry with
      | none =>
          rw [List.filterMap_cons_none shown, ih]
          by_cases same : reg.app = app
          · rw [List.filter_cons_of_neg (by simp [same])]
          · rw [List.filter_cons_of_pos (by simp [same]), List.filterMap_cons_none shown]
      | some entry =>
          have owner := Registration.properEntry_app shown
          rw [List.filterMap_cons_some shown]
          by_cases same : reg.app = app
          · rw [List.filter_cons_of_neg (by simp [owner, same]),
              List.filter_cons_of_neg (by simp [same]), ih]
          · rw [List.filter_cons_of_pos (by simp [owner, same]),
              List.filter_cons_of_pos (by simp [same]), List.filterMap_cons_some shown, ih]

theorem filter_hostEntries (app : Nat) :
    reg.hostEntries.filter (·.app ≠ app) = if reg.app = app then [] else reg.hostEntries := by
  split
  · next same =>
      rw [List.filter_eq_nil_iff]
      intro entry member kept
      exact absurd ((Registration.hostEntries_app member).trans same) (of_decide_eq_true kept)
  · next differs =>
      rw [List.filter_eq_self]
      intro entry member
      exact decide_eq_true fun same => differs ((Registration.hostEntries_app member).symm.trans same)

theorem filter_flatMap (app : Nat) :
    (apps.flatMap Registration.hostEntries).filter (·.app ≠ app) =
      (apps.filter (·.app ≠ app)).flatMap Registration.hostEntries := by
  induction apps with
  | nil => rfl
  | cons reg apps ih =>
      rw [List.flatMap_cons, List.filter_append, ih, filter_hostEntries]
      by_cases same : reg.app = app
      · rw [if_pos same, List.filter_cons_of_neg (by simp [same]), List.nil_append]
      · rw [if_neg same, List.filter_cons_of_pos (by simp [same]), List.flatMap_cons]

/-! ### The lists -/

namespace Lists

/-- The order of the applications makes no difference. -/
theorem perm {order : List (Registration Nat)} (lists : Lists server apps)
    (same : apps.Perm order) : Lists server order where
  baseuris := lists.baseuris.trans (same.filterMap _)
  hosts := lists.hosts.trans (same.flatMap_right _)
  sorted := lists.sorted

theorem add (lists : Lists server apps) (proper : reg.conf.Proper) :
    Lists (server.add reg) (reg :: apps) where
  baseuris := by
    have cons : (reg :: apps).filterMap Registration.properEntry =
        reg.baseuriEntry.toList ++ apps.filterMap Registration.properEntry := by
      rw [← Registration.properEntry_eq proper]
      cases shown : reg.properEntry with
      | none => rw [List.filterMap_cons_none shown, Option.toList_none, List.nil_append]
      | some entry =>
          rw [List.filterMap_cons_some shown, Option.toList_some, List.singleton_append]
    rw [Server.add_baseuris, cons]
    exact lists.baseuris.append_left _
  hosts := by
    rw [List.flatMap_cons]
    exact (server.add_hosts reg).trans (lists.hosts.append_left _)
  sorted := Server.add_sorted reg lists.sorted

theorem remove (lists : Lists server apps) (app : Nat) :
    Lists (server.resolverRemove app) (apps.filter (·.app ≠ app)) where
  baseuris := by
    rw [← filter_filterMap]
    exact lists.baseuris.filter _
  hosts := by
    rw [← filter_flatMap]
    exact lists.hosts.filter _
  sorted := lists.sorted.filter _

theorem baseuri_alive (lists : Lists server apps) {entry : Baseuri Nat}
    (member : entry ∈ server.baseuris) : entry.app ∈ apps.map (·.app) := by
  obtain ⟨reg, present, shown⟩ := List.mem_filterMap.mp (lists.baseuris.mem_iff.mp member)
  exact List.mem_map.mpr ⟨reg, present, (Registration.properEntry_app shown).symm⟩

theorem mem_hosts (lists : Lists server apps) {entry : HostEntry Nat} :
    entry ∈ server.hosts ↔ ∃ reg ∈ apps, ∃ host ∈ reg.conf.hostNameList,
      (⟨host, reg.app⟩ : HostEntry Nat) = entry := by
  rw [lists.hosts.mem_iff, List.mem_flatMap]
  simp only [Registration.hostEntries, List.mem_map]

/-- The first match in the ordered list is one of the least type. -/
theorem resolves (lists : Lists server apps) (value : List UInt8) :
    Resolves server apps value where
  least := by
    intro app found
    rw [Server.resolveHost, Option.map_eq_some_iff] at found
    obtain ⟨entry, found, rfl⟩ := found
    obtain ⟨matched, before, behind, split, skipped⟩ := List.find?_eq_some_iff_append.mp found
    have present : entry ∈ server.hosts := List.mem_of_find?_eq_some found
    obtain ⟨reg, member, host, listed, rfl⟩ := lists.mem_hosts.mp present
    refine ⟨reg, member, rfl, host, listed, matched, fun other live also named covers => ?_⟩
    have stored := lists.mem_hosts.mpr ⟨other, live, also, named, rfl⟩
    have sorted := lists.sorted
    rw [split] at stored sorted
    rcases List.mem_append.mp stored with early | late
    · have missed := skipped _ early
      simp only [covers, Bool.not_true, Bool.false_eq_true] at missed
    · rcases List.mem_cons.mp late with same | later
      · rw [HostEntry.mk.injEq] at same
        rw [same.1]
      · exact (List.pairwise_cons.mp (List.pairwise_append.mp sorted).2.1).1 _ later
  none := by
    rw [Server.resolveHost, Option.map_eq_none_iff, List.find?_eq_none]
    constructor
    · intro missed reg member host listed
      exact Bool.eq_false_of_not_eq_true
        (missed _ (lists.mem_hosts.mpr ⟨reg, member, host, listed, rfl⟩))
    · rintro foreign entry present matched
      obtain ⟨reg, member, host, listed, rfl⟩ := lists.mem_hosts.mp present
      rw [foreign reg member host listed] at matched
      exact Bool.noConfusion matched

end Lists

/-- The lists and the default application carry everything else. -/
theorem Reflects.of_lists (lists : Lists server apps) (default : Default server apps) :
    Reflects server apps where
  lists := lists
  default := default
  alive := by
    refine ⟨fun entry => lists.baseuri_alive, fun entry member => ?_, fun app chosen => ?_⟩
    · obtain ⟨reg, present, host, -, rfl⟩ := lists.mem_hosts.mp member
      exact List.mem_map.mpr ⟨reg, present, rfl⟩
    · obtain ⟨reg, present, rfl, -⟩ := default.root app chosen
      exact List.mem_map.mpr ⟨reg, present, rfl⟩
  resolves := lists.resolves

/-! ### The default application -/

namespace Default

theorem perm {order : List (Registration Nat)} (default : Default server apps)
    (same : apps.Perm order) : Default server order where
  root := by
    intro app chosen
    obtain ⟨reg, member, rest⟩ := default.root app chosen
    exact ⟨reg, same.mem_iff.mp member, rest⟩
  none := fun missing reg member => default.none missing reg (same.mem_iff.mpr member)

/-- An application with the base URI `/` becomes the default one, any other changes nothing. -/
theorem add_iff (proper : reg.conf.Proper) :
    Default (server.add reg) (reg :: apps) ↔
      (reg.conf.baseuri ≠ some rootUri → Default server apps) := by
  by_cases root : reg.conf.baseuri = some rootUri
  · have asks := (Registration.isDefault_of_proper proper).mpr root
    have chosen : (server.add reg).defaultApp = some reg.app := by
      rw [Server.add_defaultApp, if_pos asks]
    refine iff_of_true ⟨fun app same => ?_, fun missing => ?_⟩ (absurd root)
    · exact ⟨reg, List.mem_cons_self, Option.some.inj (chosen.symm.trans same), root⟩
    · exact nomatch chosen.symm.trans missing
  · have quiet : ¬ reg.isDefault = true := mt (Registration.isDefault_of_proper proper).mp root
    have chosen : (server.add reg).defaultApp = server.defaultApp := by
      rw [Server.add_defaultApp, if_neg quiet]
    constructor
    · refine fun after _ => ⟨fun app same => ?_, fun missing other member => ?_⟩
      · obtain ⟨other, member, owner, given⟩ := after.root app (chosen.trans same)
        rcases List.mem_cons.mp member with rfl | old
        · exact absurd given root
        · exact ⟨other, old, owner, given⟩
      · exact after.none (chosen.trans missing) other (List.mem_cons_of_mem _ member)
    · intro before
      refine ⟨fun app same => ?_, fun missing other member => ?_⟩
      · obtain ⟨other, member, rest⟩ := (before root).root app (chosen.symm.trans same)
        exact ⟨other, List.mem_cons_of_mem _ member, rest⟩
      · rcases List.mem_cons.mp member with rfl | old
        · exact root
        · exact (before root).none (chosen.symm.trans missing) other old

/-- A default application that is not the only one with the base URI `/` is missed. -/
theorem remove_iff (default : Default server apps) (app : Nat) :
    Default (server.resolverRemove app) (apps.filter (·.app ≠ app)) ↔
      (server.defaultApp = some app → ¬ OtherRoot apps app) := by
  constructor
  · rintro after chosen ⟨other, member, differs, root⟩
    have missing : (server.resolverRemove app).defaultApp = Option.none := if_pos chosen
    exact after.none missing other (List.mem_filter.mpr ⟨member, decide_eq_true differs⟩) root
  · intro unique
    by_cases chosen : server.defaultApp = some app
    · have missing : (server.resolverRemove app).defaultApp = Option.none := if_pos chosen
      refine ⟨fun other same => ?_, fun _ reg member root => ?_⟩
      · exact nomatch missing.symm.trans same
      · obtain ⟨old, differs⟩ := List.mem_filter.mp member
        exact unique chosen ⟨reg, old, of_decide_eq_true differs, root⟩
    · have kept : (server.resolverRemove app).defaultApp = server.defaultApp := if_neg chosen
      refine ⟨fun other same => ?_, fun missing reg member => ?_⟩
      · obtain ⟨reg, member, rfl, root⟩ := default.root other (kept.symm.trans same)
        have differs : reg.app ≠ app := fun same' =>
          chosen ((kept.symm.trans same).trans (congrArg some same'))
        exact ⟨reg, List.mem_filter.mpr ⟨member, decide_eq_true differs⟩, rfl, root⟩
      · exact default.none (kept.symm.trans missing) reg (List.mem_filter.mp member).1

/-- An application whose hash is that of the base URI `/` is taken for the default one. -/
theorem proper (apart : ∀ other ∈ apps, other.app ≠ reg.app)
    (default : Default (server.add reg) (reg :: apps)) : reg.conf.Proper := by
  intro uri given hash
  have asks : reg.isDefault = true := Registration.isDefault_iff.mpr ⟨uri, given, hash⟩
  have chosen : (server.add reg).defaultApp = some reg.app := by
    rw [Server.add_defaultApp, if_pos asks]
  obtain ⟨owner, member, same, root⟩ := default.root _ chosen
  rcases List.mem_cons.mp member with rfl | old
  · exact Option.some.inj (given.symm.trans root)
  · exact absurd same (apart owner old)

end Default

/-! ### The steps -/

/-- The other applications keep their place when one is replaced. -/
theorem replace_perm {app : Registration Nat} (conf : AppConf)
    (apart : (apps.map (·.app)).Nodup) (member : app ∈ apps) :
    (Registry.replace apps (Registry.updated app conf)).Perm
      (Registry.updated app conf :: apps.filter (·.app ≠ app.app)) := by
  obtain ⟨before, behind, rfl⟩ := List.append_of_mem member
  rw [List.map_append, List.map_cons, List.nodup_middle, List.nodup_cons, ← List.map_append]
    at apart
  have others : ∀ other ∈ before ++ behind, other.app ≠ app.app := fun other present same =>
    apart.1 (List.mem_map.mpr ⟨other, present, same⟩)
  have fixed : ∀ part : List (Registration Nat), (∀ other ∈ part, other.app ≠ app.app) →
      part.map (fun other => if other.app = app.app then Registry.updated app conf else other) =
        part := by
    intro part differ
    refine (List.map_congr_left fun other present => ?_).trans (List.map_id part)
    exact if_neg (differ other present)
  have kept : ∀ part : List (Registration Nat), (∀ other ∈ part, other.app ≠ app.app) →
      part.filter (·.app ≠ app.app) = part := fun part differ =>
    List.filter_eq_self.mpr fun other present => decide_eq_true (differ other present)
  have first := fun other present => others other (List.mem_append_left behind present)
  have last := fun other present => others other (List.mem_append_right before present)
  have itself : (Registry.updated app conf).app = app.app := rfl
  rw [Registry.replace, itself, List.map_append, List.map_cons, fixed before first,
    fixed behind last, if_pos rfl, List.filter_append, List.filter_cons_of_neg (by simp),
    kept before first, kept behind last]
  exact List.perm_middle

/-- Removing an object that no entry belongs to changes nothing. -/
theorem Alive.remove {app : Nat} (alive : Alive server apps) (gone : app ∉ apps.map (·.app)) :
    server.resolverRemove app = server := by
  obtain ⟨baseuris, hosts, default⟩ := server
  have first : baseuris.filter (·.app ≠ app) = baseuris := List.filter_eq_self.mpr
    fun entry member => decide_eq_true fun same => gone (same ▸ alive.baseuris entry member)
  have second : hosts.filter (·.app ≠ app) = hosts := List.filter_eq_self.mpr
    fun entry member => decide_eq_true fun same => gone (same ▸ alive.hosts entry member)
  have third : ¬ default = some app := fun same => gone (alive.default app same)
  simp only [Server.resolverRemove, first, second, if_neg third]

/-- An application that asks for nothing leaves the resolver alone. -/
theorem Server.add_idle (none : reg.conf.baseuri = none) (nil : reg.conf.hostNameList = []) :
    server.add reg = server := by
  rw [Server.add, Server.resolverAdd, none, nil]
  rfl

namespace Registry

variable {registry : Registry}

namespace Numbered

theorem app_nodup (numbered : registry.Numbered) : (registry.apps.map (·.app)).Nodup :=
  (List.nodup_append.mp numbered.apart).1

theorem fresh (numbered : registry.Numbered) (id : Nat) (member : id ∈ registry.ids) :
    id ≠ registry.next := Nat.ne_of_lt (numbered.below id member)

theorem static_apart (numbered : registry.Numbered) {app : Registration Nat}
    (static : registry.staticApp = some app) : app.app ∉ registry.apps.map (·.app) := by
  intro member
  have apart := numbered.apart
  rw [ids, static] at apart
  exact (List.nodup_append.mp apart).2.2 _ member _ List.mem_cons_self rfl

/-- Some of the objects, with or without a new one. -/
theorem of_sublist {after : Registry} (numbered : registry.Numbered)
    (part : after.ids.Sublist registry.ids) (next : after.next = registry.next) :
    after.Numbered :=
  ⟨numbered.apart.sublist part, fun id member => next ▸ numbered.below id (part.subset member)⟩

theorem of_perm_cons {after : Registry} {ids : List Nat} (numbered : registry.Numbered)
    (part : ids.Sublist registry.ids) (order : after.ids.Perm (registry.next :: ids))
    (next : after.next = registry.next + 1) : after.Numbered := by
  refine ⟨?_, fun id member => ?_⟩
  · rw [order.nodup_iff, List.nodup_cons]
    exact ⟨fun member => numbered.fresh _ (part.subset member) rfl, numbered.apart.sublist part⟩
  · rw [next]
    rcases List.mem_cons.mp (order.mem_iff.mp member) with rfl | old
    · exact Nat.lt_succ_self _
    · exact Nat.lt_succ_of_lt (numbered.below id (part.subset old))

theorem insert (numbered : registry.Numbered) (conf : AppConf) :
    (registry.insert conf).Numbered := by
  rw [Registry.insert]
  split
  · refine @of_perm_cons registry _ (registry.apps.map (·.app)) numbered
      (List.sublist_append_left _ _) ?_ rfl
    exact List.perm_append_singleton _ _
  · exact @of_perm_cons registry _ registry.ids numbered (List.Sublist.refl _)
      (List.Perm.refl _) rfl

theorem reload (numbered : registry.Numbered) (name : List UInt8) (conf : AppConf) :
    (registry.reload name conf).Numbered := by
  have replaced : ∀ app : Registration Nat,
      (replace registry.apps app).map (·.app) = registry.apps.map (·.app) := by
    intro app
    rw [replace, List.map_map]
    refine List.map_congr_left fun other _ => ?_
    by_cases same : other.app = app.app
    · simp only [Function.comp_apply, same, ↓reduceIte]
    · simp only [Function.comp_apply, same, ↓reduceIte]
  rw [Registry.reload]
  split
  · refine numbered.of_sublist ?_ rfl
    rw [ids, ids, replaced]
  · split
    · split
      · next app static =>
          refine numbered.of_sublist ?_ rfl
          rw [ids, ids, static]
          exact List.Sublist.refl _
      · exact numbered
    · exact numbered

theorem remove (numbered : registry.Numbered) (name : List UInt8) :
    (registry.remove name).Numbered := by
  rw [Registry.remove]
  split
  · refine numbered.of_sublist ?_ rfl
    exact (List.filter_sublist.map _).append_right _
  · split
    · split
      · exact numbered.of_sublist ((List.nil_sublist _).append_left _) rfl
      · exact numbered
    · exact numbered

theorem step (numbered : registry.Numbered) (op : Op) : (Registry.step op registry).Numbered := by
  cases op with
  | insert conf => exact numbered.insert conf
  | reload name conf => exact numbered.reload name conf
  | remove name => exact numbered.remove name

end Numbered

/-- An insertion is reflected unless the application is taken for the default one. -/
theorem insert_iff (numbered : registry.Numbered) (reflects : Reflects registry.server registry.apps)
    (conf : AppConf) :
    Reflects (registry.insert conf).server (registry.insert conf).apps ↔
      (Op.insert conf).Fits registry := by
  by_cases static : conf.name.1 = staticName
  · rw [insert, if_pos static]
    exact iff_of_true reflects (.inl static)
  · have fits : (Op.insert conf).Fits registry ↔ conf.Proper := or_iff_right static
    rw [insert, if_neg static, fits]
    constructor
    · intro after
      have apart : ∀ other ∈ registry.apps, other.app ≠ registry.next := fun other member =>
        numbered.fresh _ (List.mem_append_left _ (List.mem_map.mpr ⟨other, member, rfl⟩))
      exact after.default.proper apart
    · intro proper
      exact .of_lists (reflects.lists.add proper)
        ((Default.add_iff proper).mpr fun _ => reflects.default)

/-- A reload of a live application. -/
theorem reload_app_iff (numbered : registry.Numbered)
    (reflects : Reflects registry.server registry.apps) {app : Registration Nat}
    (member : app ∈ registry.apps) (conf : AppConf) :
    Reflects ((registry.server.resolverRemove app.app).add (updated app conf))
        (replace registry.apps (updated app conf)) ↔
      conf.Proper ∧ (registry.server.defaultApp = some app.app →
        OtherRoot registry.apps app.app → conf.baseuri = some rootUri) := by
  have order := replace_perm conf numbered.app_nodup member
  have apart : ∀ other ∈ registry.apps.filter (·.app ≠ app.app),
      other.app ≠ (updated app conf).app := fun other present =>
    of_decide_eq_true (List.mem_filter.mp present).2
  constructor
  · intro after
    have default := after.default.perm order
    have proper : conf.Proper := default.proper apart
    refine ⟨proper, fun chosen other => ?_⟩
    by_contra differs
    have removed := (Default.add_iff proper).mp default differs
    exact (reflects.default.remove_iff app.app).mp removed chosen other
  · rintro ⟨proper, unique⟩
    have properly : (updated app conf).conf.Proper := proper
    refine .of_lists (((reflects.lists.remove app.app).add properly).perm order.symm)
      (((Default.add_iff properly).mpr fun differs => ?_).perm order.symm)
    exact (reflects.default.remove_iff app.app).mpr fun chosen other =>
      differs (unique chosen other)

/-- A reload puts the static content server on the lists if its configuration asks for it. -/
theorem reload_static_iff (reflects : Reflects registry.server registry.apps)
    {app : Registration Nat} (gone : app.app ∉ registry.apps.map (·.app)) (conf : AppConf) :
    Reflects ((registry.server.resolverRemove app.app).add (updated app conf)) registry.apps ↔
      conf.baseuri = none ∧ conf.hostNameList = [] := by
  rw [reflects.alive.remove gone]
  constructor
  · intro after
    constructor
    · cases given : conf.baseuri with
      | none => rfl
      | some uri =>
          exfalso
          by_cases root : uri.hash = prefixHash
          · have asks : (updated app conf).isDefault = true :=
              Registration.isDefault_iff.mpr ⟨uri, given, root⟩
            refine gone (after.alive.default app.app ?_)
            rw [Server.add_defaultApp, if_pos asks]
            rfl
          · have entry : (updated app conf).baseuriEntry = some ⟨uri.hash, app.app⟩ :=
              Registration.baseuriEntry_iff.mpr ⟨uri, given, root, rfl⟩
            refine gone (after.alive.baseuris ⟨uri.hash, app.app⟩ ?_)
            rw [Server.add_baseuris, entry]
            exact List.mem_cons_self
    · rw [List.eq_nil_iff_forall_not_mem]
      intro host listed
      refine gone (after.alive.hosts ⟨host, app.app⟩ ?_)
      rw [(Server.add_hosts _ _).mem_iff]
      exact List.mem_append_left _ (List.mem_map.mpr ⟨host, listed, rfl⟩)
  · rintro ⟨none, nil⟩
    rw [Server.add_idle none nil]
    exact reflects

theorem reload_iff (numbered : registry.Numbered) (reflects : Reflects registry.server registry.apps)
    (name : List UInt8) (conf : AppConf) :
    Reflects (registry.reload name conf).server (registry.reload name conf).apps ↔
      (Op.reload name conf).Fits registry := by
  cases found : registry.find name with
  | some app =>
      simp only [reload, Op.Fits, found]
      exact reload_app_iff numbered reflects (List.mem_of_find?_eq_some found) conf
  | none =>
      simp only [reload, Op.Fits, found]
      by_cases static : name = staticName
      · rw [if_pos static]
        cases served : registry.staticApp with
        | none => exact iff_of_true reflects fun _ isSome => nomatch isSome
        | some app =>
            refine (reload_static_iff reflects (numbered.static_apart served) conf).trans ?_
            exact ⟨fun idle _ _ => idle, fun idle => idle static rfl⟩
      · rw [if_neg static]
        exact iff_of_true reflects fun same => absurd same static

theorem remove_iff (numbered : registry.Numbered) (reflects : Reflects registry.server registry.apps)
    (name : List UInt8) :
    Reflects (registry.remove name).server (registry.remove name).apps ↔
      (Op.remove name).Fits registry := by
  cases found : registry.find name with
  | some app =>
      simp only [remove, Op.Fits, found]
      rw [← reflects.default.remove_iff app.app]
      exact ⟨fun after => after.default, .of_lists (reflects.lists.remove app.app)⟩
  | none =>
      simp only [remove, Op.Fits, found]
      refine iff_of_true ?_ trivial
      by_cases static : name = staticName
      · rw [if_pos static]
        cases served : registry.staticApp with
        | none => exact reflects
        | some app =>
            change Reflects (registry.server.resolverRemove app.app) registry.apps
            rw [reflects.alive.remove (numbered.static_apart served)]
            exact reflects
      · rw [if_neg static]
        exact reflects

theorem step_iff (numbered : registry.Numbered) (reflects : Reflects registry.server registry.apps)
    (op : Op) :
    Reflects (step op registry).server (step op registry).apps ↔ op.Fits registry := by
  cases op with
  | insert conf => exact insert_iff numbered reflects conf
  | reload name conf => exact reload_iff numbered reflects name conf
  | remove name => exact remove_iff numbered reflects name

/-! ### Whole runs -/

variable {ops : Nat → Op}

theorem numbered_empty : empty.Numbered :=
  ⟨List.nodup_nil, fun _ member => absurd member List.not_mem_nil⟩

theorem numbered_after (count : Nat) : (Machine.after step ops empty count).Numbered :=
  Machine.invariant Numbered numbered_empty (fun _ _ numbered => numbered.step _) count

theorem reflects_empty : Reflects empty.server empty.apps :=
  .of_lists ⟨List.Perm.refl _, List.Perm.refl _, List.Pairwise.nil⟩
    ⟨fun _ chosen => (nomatch chosen), fun _ _ member => absurd member List.not_mem_nil⟩

/-- The resolver reflects the live applications throughout a run exactly when every step fits the
state it is made in. -/
theorem reflects_iff (ops : Nat → Op) :
    (∀ count, Reflects (Machine.after step ops empty count).server
        (Machine.after step ops empty count).apps) ↔
      ∀ count, (ops count).Fits (Machine.after step ops empty count) := by
  constructor
  · intro reflects count
    exact (step_iff (numbered_after count) (reflects count) (ops count)).mp (reflects (count + 1))
  · intro fits count
    induction count with
    | zero => exact reflects_empty
    | succ count ih => exact (step_iff (numbered_after count) ih (ops count)).mpr (fits count)

/-- The configuration of the static content server: its base URI is its name. -/
def staticConf : AppConf :=
  ⟨⟨staticName, by decide⟩, some ⟨⟨staticName, by decide⟩, by decide⟩, []⟩

/-- Once reloaded, the static content server gets the requests for `/tatic-worker`. -/
theorem reflects_fails :
    ¬ ∀ count, Reflects
      (Machine.after step (fun n => if n = 0 then .insert staticConf
        else .reload staticName staticConf) empty count).server
      (Machine.after step (fun n => if n = 0 then .insert staticConf
        else .reload staticName staticConf) empty count).apps := by
  intro reflects
  have alive := (reflects 2).alive.baseuris ⟨staticConf.baseuri.get (by decide) |>.hash, 0⟩
  exact absurd (alive (by decide +kernel)) (by decide +kernel)

end Registry

end Resolver
