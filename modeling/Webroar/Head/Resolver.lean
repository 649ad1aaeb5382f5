import Mathlib.Data.List.Sort
import Webroar.Head.Request

/-! # Choosing the application of a request

The resolver of the head keeps two lists: one with the hash of the base URI of each application
that has one, one with the host names of the applications, and beside them the application for
everything else. Applications are added under their configuration, removed, and chosen for a
request by its path, then by its host, then by default.
-/

namespace Resolver

/-- The kinds of host names, from the most to the least specific. -/
inductive HostType where
  | static | wildcardInStart | wildcardInEnd | wildcardInStartEnd
deriving DecidableEq, Repr

namespace HostType

/-- The number of a kind; host lists are ordered by it. -/
def rank : HostType → Nat
  | static => 1
  | wildcardInStart => 2
  | wildcardInEnd => 4
  | wildcardInStartEnd => 8

end HostType

/-- A host name of a configuration, without its wildcard characters. -/
structure Host where
  type : HostType
  name : Text
deriving DecidableEq

namespace Host

/-- Does a host name match the host of a request? The last kind is looked up with `strstr`, which
sees the host up to its first NUL. -/
def isMatch (host : Host) (value : List UInt8) : Bool :=
  match host.type with
  | .static => host.name.1.length = value.length && host.name.1 = value
  | .wildcardInStart => host.name.1.length < value.length && host.name.1.isSuffixOf value
  | .wildcardInEnd => host.name.1.length < value.length && host.name.1.isPrefixOf value
  | .wildcardInStartEnd =>
      host.name.1.length < value.length &&
        (strstr (value.takeWhile (· ≠ 0)) host.name.1).isSome

end Host

/-- A base URI: a C string that is not empty. -/
abbrev Uri := { text : Text // text.1 ≠ [] }

/-- What the resolver reads of the configuration of an application. -/
structure AppConf where
  name : Text
  baseuri : Option Uri
  hostNameList : List Host
deriving DecidableEq

/-- The separator of path segments. -/
def slash : UInt8 := 47

/-- A character as C adds it to an unsigned long: the type `char` is signed. -/
def charValue (c : UInt8) : UInt64 :=
  if c < 128 then c.toUInt64 else c.toUInt64 - 256

/-- The hash loop: it stops at NUL and at the end of a path segment. -/
def hashFrom (hash : UInt64) : List UInt8 → UInt64
  | [] => hash
  | c :: rest =>
      if c = 0 ∨ c = slash then hash else hashFrom ((hash <<< 5) + hash + charValue c) rest

def uriHash (str : List UInt8) : UInt64 := hashFrom 5381 str

def uriHashLen (str : List UInt8) (length : Int) : UInt64 :=
  hashFrom 5381 (str.take length.toNat)

/-- `Config->Request.prefix_hash`. -/
def prefixHash : UInt64 := 5381

/-- The hash under which a base URI is added: its first character is skipped. -/
def Uri.hash (uri : Uri) : UInt64 := uriHash (uri.1.1.drop 1)

/-- The base URI of the default application. -/
def rootUri : Uri := ⟨⟨[slash], by decide⟩, by decide⟩

@[simp] theorem hash_rootUri : rootUri.hash = prefixHash := rfl

/-- The hash of the path of a request; without a path no base URI is looked up, which is what the
hash of the default application amounts to. -/
def pathHash : Option (List UInt8) → UInt64
  | none => prefixHash
  | some path => uriHashLen (path.drop 1) (path.length - 1)

variable {α : Type}

/-- An entry of the base-URI list. -/
structure Baseuri (α : Type) where
  hash : UInt64
  app : α
deriving DecidableEq

/-- An entry of the host list. -/
structure HostEntry (α : Type) where
  host : Host
  app : α
deriving DecidableEq

/-- The resolver with the default application of the server. -/
structure Server (α : Type) where
  baseuris : List (Baseuri α)
  hosts : List (HostEntry α)
  defaultApp : Option α
deriving DecidableEq

namespace HostEntry

/-- The order of the host list: a new entry goes in front of the first one it does not exceed. -/
def NoLater (new old : HostEntry α) : Prop := new.host.type.rank ≤ old.host.type.rank

instance (new old : HostEntry α) : Decidable (NoLater new old) :=
  inferInstanceAs (Decidable (_ ≤ _))

instance : Std.Total (NoLater (α := α)) :=
  ⟨fun first second => Nat.le_total first.host.type.rank second.host.type.rank⟩

instance : IsTrans (HostEntry α) NoLater := ⟨fun _ _ _ first second => Nat.le_trans first second⟩

end HostEntry

namespace Server

/-- `wr_req_resolver_new`. -/
def empty : Server α := ⟨[], [], none⟩

/-- The first half of `wr_req_resolver_add`. -/
def addBaseuri (server : Server α) (app : α) : Option Uri → Server α
  | none => server
  | some uri =>
      if uri.hash = prefixHash then { server with defaultApp := some app }
      else { server with baseuris := ⟨uri.hash, app⟩ :: server.baseuris }

/-- One turn of the second half of `wr_req_resolver_add`. -/
def addHost (app : α) (hosts : List (HostEntry α)) (host : Host) : List (HostEntry α) :=
  hosts.orderedInsert HostEntry.NoLater ⟨host, app⟩

def resolverAdd (server : Server α) (app : α) (conf : AppConf) : Server α :=
  let added := server.addBaseuri app conf.baseuri
  { added with hosts := conf.hostNameList.foldl (addHost app) added.hosts }

variable [DecidableEq α]

def resolverRemove (server : Server α) (app : α) : Server α where
  baseuris := server.baseuris.filter (·.app ≠ app)
  hosts := server.hosts.filter (·.app ≠ app)
  defaultApp := if server.defaultApp = some app then none else server.defaultApp

omit [DecidableEq α]

/-- The host of a request is its `HTTP_HOST` header up to the port. -/
def hostOf (value : List UInt8) : List UInt8 := value.takeWhile (· ≠ 58)

/-- The search for the host of a request. -/
def resolveHost (server : Server α) (host : List UInt8) : Option α :=
  (server.hosts.find? (·.host.isMatch host)).map (·.app)

/-- The application `wr_req_resolve_http_req` settles on for a path and an `HTTP_HOST` header. -/
def select (server : Server α) (path httpHost : Option (List UInt8)) : Option α :=
  let byPath := path.bind fun _ => (server.baseuris.find? (·.hash = pathHash path)).map (·.app)
  let byHost := httpHost.bind fun value => server.resolveHost (hostOf value)
  (byPath.or byHost).or server.defaultApp

/-- The request goes to the application that was chosen when it has workers. -/
def resolveHttpReq (server : Server α) (workers : α → Nat) (path httpHost : Option (List UInt8)) :
    Option α :=
  (server.select path httpHost).filter (0 < workers ·)

end Server

/-! ### What an addition and a removal change -/

/-- An application with its configuration. -/
structure Registration (α : Type) where
  app : α
  conf : AppConf
deriving DecidableEq

namespace Registration

/-- The application asks to be the default. -/
def isDefault (reg : Registration α) : Bool := reg.conf.baseuri.any (·.hash = prefixHash)

/-- The entry of an application in the base-URI list. -/
def baseuriEntry (reg : Registration α) : Option (Baseuri α) :=
  reg.conf.baseuri.bind fun uri =>
    if uri.hash = prefixHash then none else some ⟨uri.hash, reg.app⟩

/-- The entries of an application in the host list. -/
def hostEntries (reg : Registration α) : List (HostEntry α) :=
  reg.conf.hostNameList.map (⟨·, reg.app⟩)

theorem isDefault_iff {reg : Registration α} :
    reg.isDefault = true ↔ ∃ uri, reg.conf.baseuri = some uri ∧ uri.hash = prefixHash := by
  simp only [isDefault, Option.any_eq_true, decide_eq_true_eq]

theorem baseuriEntry_iff {reg : Registration α} {entry : Baseuri α} :
    reg.baseuriEntry = some entry ↔
      ∃ uri, reg.conf.baseuri = some uri ∧ uri.hash ≠ prefixHash ∧ ⟨uri.hash, reg.app⟩ = entry := by
  simp only [baseuriEntry, Option.bind_eq_some_iff, Option.ite_none_left_eq_some,
    Option.some.injEq, ne_eq]

theorem baseuriEntry_app {reg : Registration α} {entry : Baseuri α}
    (shown : reg.baseuriEntry = some entry) : entry.app = reg.app := by
  obtain ⟨uri, -, -, rfl⟩ := baseuriEntry_iff.mp shown
  rfl

theorem hostEntries_app {reg : Registration α} {entry : HostEntry α}
    (member : entry ∈ reg.hostEntries) : entry.app = reg.app := by
  obtain ⟨host, -, rfl⟩ := List.mem_map.mp member
  rfl

end Registration

namespace Server

/-- Adding an application under its configuration. -/
def add (server : Server α) (reg : Registration α) : Server α :=
  server.resolverAdd reg.app reg.conf

theorem add_baseuris (server : Server α) (reg : Registration α) :
    (server.add reg).baseuris = reg.baseuriEntry.toList ++ server.baseuris := by
  obtain ⟨app, conf⟩ := reg
  cases given : conf.baseuri with
  | none => simp [add, resolverAdd, addBaseuri, Registration.baseuriEntry, given]
  | some uri =>
      by_cases root : uri.hash = prefixHash
      · simp [add, resolverAdd, addBaseuri, Registration.baseuriEntry, given, root]
      · simp [add, resolverAdd, addBaseuri, Registration.baseuriEntry, given, root]

theorem add_defaultApp (server : Server α) (reg : Registration α) :
    (server.add reg).defaultApp = if reg.isDefault then some reg.app else server.defaultApp := by
  obtain ⟨app, conf⟩ := reg
  cases given : conf.baseuri with
  | none => simp [add, resolverAdd, addBaseuri, Registration.isDefault, given]
  | some uri =>
      by_cases root : uri.hash = prefixHash
      · simp [add, resolverAdd, addBaseuri, Registration.isDefault, given, root]
      · simp [add, resolverAdd, addBaseuri, Registration.isDefault, given, root]

theorem addBaseuri_hosts (server : Server α) (app : α) (baseuri : Option Uri) :
    (server.addBaseuri app baseuri).hosts = server.hosts := by
  cases baseuri with
  | none => rfl
  | some uri =>
      rw [addBaseuri]
      split <;> rfl

theorem addHosts_perm (app : α) (names : List Host) (hosts : List (HostEntry α)) :
    (names.foldl (addHost app) hosts).Perm (names.map (⟨·, app⟩) ++ hosts) := by
  induction names generalizing hosts with
  | nil => exact List.Perm.refl _
  | cons host names ih =>
      rw [List.foldl_cons, List.map_cons, List.cons_append]
      exact (ih _).trans (((List.perm_orderedInsert _ _ _).append_left _).trans
        List.perm_middle)

theorem addHosts_sorted (app : α) (names : List Host) {hosts : List (HostEntry α)}
    (sorted : hosts.Pairwise HostEntry.NoLater) :
    (names.foldl (addHost app) hosts).Pairwise HostEntry.NoLater := by
  induction names generalizing hosts with
  | nil => exact sorted
  | cons host names ih => exact ih (sorted.orderedInsert _ _)

theorem add_hosts (server : Server α) (reg : Registration α) :
    (server.add reg).hosts.Perm (reg.hostEntries ++ server.hosts) := by
  have hosts := addHosts_perm reg.app reg.conf.hostNameList
    (server.addBaseuri reg.app reg.conf.baseuri).hosts
  rw [addBaseuri_hosts] at hosts
  have shown : (server.add reg).hosts = reg.conf.hostNameList.foldl (addHost reg.app)
      server.hosts := by
    rw [add, resolverAdd, addBaseuri_hosts]
  rw [shown]
  exact hosts

theorem add_sorted {server : Server α} (reg : Registration α)
    (sorted : server.hosts.Pairwise HostEntry.NoLater) :
    (server.add reg).hosts.Pairwise HostEntry.NoLater := by
  rw [← addBaseuri_hosts server reg.app reg.conf.baseuri] at sorted
  exact addHosts_sorted _ _ sorted

/-- The search finds no host when no entry of the list matches. -/
theorem resolveHost_none {server : Server α} {host : List UInt8}
    (foreign : ∀ entry ∈ server.hosts, entry.host.isMatch host = false) :
    server.resolveHost host = none := by
  rw [resolveHost, Option.map_eq_none_iff, List.find?_eq_none]
  intro entry member found
  rw [foreign entry member] at found
  exact Bool.noConfusion found

end Server

end Resolver
