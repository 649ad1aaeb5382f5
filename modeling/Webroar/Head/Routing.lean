import Webroar.Head.Resolver

/-! # Routing by base URI

The resolver compares hashes of first path segments. A request goes to the application whose base
URI its path lies under, for every order in which the applications were added, exactly when the
hashes leave no choice and the only base URI they admit is right.
-/

namespace Resolver

/-- The path is the base URI or continues it with a slash. -/
def Under (uri : Uri) (path : Option (List UInt8)) : Prop :=
  ∃ text, path = some text ∧ (text = uri.1.1 ∨ uri.1.1 ++ [slash] <+: text)

variable {α : Type}

namespace Server

/-- Applications added one after the other to the empty resolver. -/
def register (regs : List (Registration α)) : Server α := regs.foldl add empty

end Server

/-- The base URIs of the applications that have one. -/
def baseuris (regs : List (Registration α)) : List Uri := regs.filterMap (·.conf.baseuri)

/-- The applications and the base URIs are pairwise different. -/
structure Distinct (regs : List (Registration α)) : Prop where
  apps : (regs.map (·.app)).Nodup
  uris : (baseuris regs).Nodup

/-- No host name of an application matches the host of the request. -/
def NoHost (regs : List (Registration α)) (httpHost : Option (List UInt8)) : Prop :=
  ∀ reg ∈ regs, ∀ host ∈ reg.conf.hostNameList, ∀ value, httpHost = some value →
    host.isMatch (Server.hostOf value) = false

/-- Routing as it should be for one order of registration: an application is chosen exactly when
the path lies under its base URI, and where there is none, the default application if any. -/
structure Exact (regs : List (Registration α)) (path httpHost : Option (List UInt8)) : Prop where
  under : ∀ reg ∈ regs, ∀ uri, reg.conf.baseuri = some uri → uri ≠ rootUri →
    ((Server.register regs).select path httpHost = some reg.app ↔ Under uri path)
  root : (∀ reg ∈ regs, ∀ uri, reg.conf.baseuri = some uri → uri ≠ rootUri → ¬ Under uri path) →
    (Server.register regs).select path httpHost =
      (regs.find? (·.conf.baseuri = some rootUri)).map (·.app)

/-- The hashes admit a registration for a path: its hash is that of the path, or it is the hash
of the default application and no other registration has the hash of the path. -/
def MayPick (regs : List (Registration α)) (path : Option (List UInt8)) (reg : Registration α)
    (uri : Uri) : Prop :=
  (reg ∈ regs ∧ reg.conf.baseuri = some uri) ∧
    (uri.hash = pathHash path ∨ uri.hash = prefixHash ∧
      ∀ other ∈ baseuris regs, other.hash = pathHash path → other.hash = prefixHash)

/-- The hashes admit at most one registration, and it is right: the default application, or one
whose base URI the path lies under. -/
structure Clear (regs : List (Registration α)) (path : Option (List UInt8)) : Prop where
  right : ∀ reg uri, MayPick regs path reg uri → uri = rootUri ∨ Under uri path
  single : ∀ first second uri other, MayPick regs path first uri →
    MayPick regs path second other → first = second

/-! ### Hashes -/

theorem hashFrom_append_slash (hash : UInt64) (str rest : List UInt8) :
    hashFrom hash (str ++ slash :: rest) = hashFrom hash str := by
  induction str generalizing hash with
  | nil => simp [hashFrom]
  | cons c str ih =>
      rw [List.cons_append, hashFrom, hashFrom]
      by_cases stops : c = 0 ∨ c = slash
      · rw [if_pos stops, if_pos stops]
      · rw [if_neg stops, if_neg stops, ih]

theorem pathHash_some (path : List UInt8) :
    pathHash (some path) = hashFrom 5381 (path.drop 1) := by
  have short : (path.drop 1).length ≤ ((path.length : Int) - 1).toNat := by
    rw [List.length_drop]
    omega
  rw [pathHash, uriHashLen, List.take_of_length_le short]

/-- A path under a base URI has its hash. -/
theorem hash_of_under {uri : Uri} {path : Option (List UInt8)} (under : Under uri path) :
    uri.hash = pathHash path := by
  obtain ⟨text, rfl, same | ⟨rest, continued⟩⟩ := under
  · rw [pathHash_some, same]
    rfl
  · obtain ⟨c, str, whole⟩ := List.exists_cons_of_ne_nil uri.2
    rw [pathHash_some, ← continued, Uri.hash, whole, uriHash]
    simp only [List.cons_append, List.drop_succ_cons, List.drop_zero, List.append_assoc,
      List.nil_append]
    exact (hashFrom_append_slash _ _ _).symm

/-! ### What the resolver holds -/

namespace Server

theorem register_concat (regs : List (Registration α)) (reg : Registration α) :
    register (regs ++ [reg]) = (register regs).add reg := by
  rw [register, register, List.foldl_append, List.foldl_cons, List.foldl_nil]

theorem mem_register_baseuris {regs : List (Registration α)} {entry : Baseuri α} :
    entry ∈ (register regs).baseuris ↔ ∃ reg ∈ regs, reg.baseuriEntry = some entry := by
  induction regs using List.reverseRecOn with
  | nil => simp [register, empty]
  | append_singleton regs reg ih =>
      rw [register_concat, add_baseuris, List.mem_append, ih, Option.mem_toList]
      simp only [List.mem_append, List.mem_singleton]
      constructor
      · rintro (shown | ⟨other, member, shown⟩)
        · exact ⟨reg, .inr rfl, shown⟩
        · exact ⟨other, .inl member, shown⟩
      · rintro ⟨other, member | rfl, shown⟩
        · exact .inr ⟨other, member, shown⟩
        · exact .inl shown

theorem mem_register_hosts {regs : List (Registration α)} {entry : HostEntry α} :
    entry ∈ (register regs).hosts ↔ ∃ reg ∈ regs, entry ∈ reg.hostEntries := by
  induction regs using List.reverseRecOn with
  | nil => simp [register, empty]
  | append_singleton regs reg ih =>
      rw [register_concat, (add_hosts _ _).mem_iff, List.mem_append, ih]
      simp only [List.mem_append, List.mem_singleton]
      constructor
      · rintro (shown | ⟨other, member, shown⟩)
        · exact ⟨reg, .inr rfl, shown⟩
        · exact ⟨other, .inl member, shown⟩
      · rintro ⟨other, member | rfl, shown⟩
        · exact .inr ⟨other, member, shown⟩
        · exact .inl shown

theorem register_defaultApp (regs : List (Registration α)) :
    (register regs).defaultApp = none ∧ (∀ reg ∈ regs, reg.isDefault = false) ∨
      ∃ reg ∈ regs, reg.isDefault = true ∧ (register regs).defaultApp = some reg.app := by
  induction regs using List.reverseRecOn with
  | nil => exact .inl ⟨rfl, fun _ member => absurd member List.not_mem_nil⟩
  | append_singleton regs reg ih =>
      rw [register_concat, add_defaultApp]
      cases asks : reg.isDefault with
      | true => exact .inr ⟨reg, by simp, asks, rfl⟩
      | false =>
          rcases ih with ⟨missing, quiet⟩ | ⟨other, member, claims, same⟩
          · refine .inl ⟨missing, fun other member => ?_⟩
            rcases List.mem_append.mp member with before | last
            · exact quiet other before
            · rw [List.mem_singleton.mp last, asks]
          · exact .inr ⟨other, List.mem_append_left _ member, claims, same⟩

/-- Hosts play no part when none matches. -/
theorem select_register {regs : List (Registration α)} {path httpHost : Option (List UInt8)}
    (foreign : NoHost regs httpHost) :
    (register regs).select path httpHost =
      (path.bind fun _ =>
        ((register regs).baseuris.find? (·.hash = pathHash path)).map (·.app)).or
          (register regs).defaultApp := by
  have byHost : (httpHost.bind fun value => (register regs).resolveHost (hostOf value)) = none := by
    cases httpHost with
    | none => rfl
    | some value =>
        refine resolveHost_none fun entry member => ?_
        obtain ⟨reg, present, shown⟩ := mem_register_hosts.mp member
        obtain ⟨host, listed, rfl⟩ := List.mem_map.mp shown
        exact foreign reg present host listed value rfl
  rw [select, byHost, Option.or_none]

end Server

variable {regs : List (Registration α)} {path httpHost : Option (List UInt8)}

/-- No entry has the hash of the path when the hashes admit a default application. -/
theorem find_none (plain : ∀ other ∈ baseuris regs, other.hash = pathHash path →
      other.hash = prefixHash) :
    (Server.register regs).baseuris.find? (·.hash = pathHash path) = none := by
  rw [List.find?_eq_none]
  intro entry member found
  obtain ⟨reg, present, shown⟩ := Server.mem_register_baseuris.mp member
  obtain ⟨uri, given, apart, rfl⟩ := Registration.baseuriEntry_iff.mp shown
  have same : uri.hash = pathHash path := of_decide_eq_true found
  exact apart (plain uri (List.mem_filterMap.mpr ⟨reg, present, given⟩) same)

/-- What is chosen is a registration the hashes admit, and nothing only when they admit none. -/
theorem select_picks (foreign : NoHost regs httpHost) :
    (Server.register regs).select path httpHost = none ∧
        (∀ reg uri, ¬ MayPick regs path reg uri) ∨
      ∃ reg uri, MayPick regs path reg uri ∧
        (Server.register regs).select path httpHost = some reg.app := by
  rw [Server.select_register foreign]
  by_cases plain : ∀ other ∈ baseuris regs, other.hash = pathHash path → other.hash = prefixHash
  · -- nothing is found by the path, so the default application decides
    have missing : (path.bind fun _ => ((Server.register regs).baseuris.find?
        (·.hash = pathHash path)).map (·.app)) = none := by
      rw [find_none plain]
      cases path <;> rfl
    rw [missing, Option.none_or]
    rcases Server.register_defaultApp regs with ⟨none, quiet⟩ | ⟨reg, member, asks, same⟩
    · refine .inl ⟨none, ?_⟩
      rintro reg uri ⟨⟨member, given⟩, picked⟩
      have root : uri.hash = prefixHash :=
        picked.elim (plain uri (List.mem_filterMap.mpr ⟨reg, member, given⟩)) And.left
      have asks := Registration.isDefault_iff.mpr ⟨uri, given, root⟩
      rw [quiet reg member] at asks
      exact Bool.noConfusion asks
    · obtain ⟨uri, given, root⟩ := Registration.isDefault_iff.mp asks
      exact .inr ⟨reg, uri, ⟨⟨member, given⟩, .inr ⟨root, plain⟩⟩, same⟩
  · push Not at plain
    obtain ⟨other, member, same, apart⟩ := plain
    obtain ⟨reg, present, given⟩ := List.mem_filterMap.mp member
    have listed : (⟨other.hash, reg.app⟩ : Baseuri α) ∈ (Server.register regs).baseuris :=
      Server.mem_register_baseuris.mpr ⟨reg, present,
        Registration.baseuriEntry_iff.mpr ⟨other, given, apart, rfl⟩⟩
    cases found : (Server.register regs).baseuris.find? (·.hash = pathHash path) with
    | none =>
        have differs := List.find?_eq_none.mp found _ listed
        exact absurd (decide_eq_true same) differs
    | some entry =>
        obtain ⟨owner, owned, shown⟩ :=
          Server.mem_register_baseuris.mp (List.mem_of_find?_eq_some found)
        obtain ⟨uri, named, -, rfl⟩ := Registration.baseuriEntry_iff.mp shown
        have hash := List.find?_some found
        rw [decide_eq_true_eq] at hash
        refine .inr ⟨owner, uri, ⟨⟨owned, named⟩, .inl hash⟩, ?_⟩
        cases path with
        | none => exact absurd same apart
        | some text => rfl

/-- An application the hashes admit is chosen when it was added last. -/
theorem select_last {front : List (Registration α)} {reg : Registration α} {uri : Uri}
    (foreign : NoHost (front ++ [reg]) httpHost) (picked : MayPick (front ++ [reg]) path reg uri) :
    (Server.register (front ++ [reg])).select path httpHost = some reg.app := by
  obtain ⟨⟨member, given⟩, picked⟩ := picked
  rw [Server.select_register foreign]
  by_cases root : uri.hash = prefixHash
  · have plain : ∀ other ∈ baseuris (front ++ [reg]), other.hash = pathHash path →
        other.hash = prefixHash := by
      intro other listed same
      rcases picked with own | ⟨-, plain⟩
      · rw [same, ← own, root]
      · exact plain other listed same
    have asks : reg.isDefault = true := Registration.isDefault_iff.mpr ⟨uri, given, root⟩
    rw [find_none plain, Server.register_concat, Server.add_defaultApp, if_pos asks]
    cases path <;> rfl
  · have own : uri.hash = pathHash path := picked.elim id fun other => absurd other.1 root
    have entry : reg.baseuriEntry = some ⟨uri.hash, reg.app⟩ :=
      Registration.baseuriEntry_iff.mpr ⟨uri, given, root, rfl⟩
    rw [Server.register_concat, Server.add_baseuris, entry, Option.toList_some,
      List.singleton_append, List.find?_cons, decide_eq_true own]
    cases path with
    | none => exact absurd own root
    | some text => rfl

/-! ### Exact routing -/

theorem MayPick.perm {order : List (Registration α)} {reg : Registration α} {uri : Uri}
    (same : order.Perm regs) (picked : MayPick regs path reg uri) : MayPick order path reg uri := by
  refine ⟨⟨same.mem_iff.mpr picked.1.1, picked.1.2⟩, picked.2.imp_right fun root => ?_⟩
  exact ⟨root.1, fun other listed => root.2 other ((same.filterMap _).mem_iff.mp listed)⟩

theorem NoHost.perm {order : List (Registration α)} (same : order.Perm regs)
    (foreign : NoHost regs httpHost) : NoHost order httpHost :=
  fun reg member => foreign reg (same.mem_iff.mp member)

theorem Distinct.app_inj (distinct : Distinct regs) {first second : Registration α}
    (one : first ∈ regs) (two : second ∈ regs) (same : first.app = second.app) : first = second :=
  List.inj_on_of_nodup_map distinct.apps one two same

theorem Distinct.uri_inj (distinct : Distinct regs) {first second : Registration α} {uri : Uri}
    (one : first ∈ regs) (two : second ∈ regs) (has : first.conf.baseuri = some uri)
    (also_has : second.conf.baseuri = some uri) : first = second := by
  have apart := List.pairwise_filterMap.mp distinct.uris
  have symmetric : Std.Symm fun one two : Registration α => ∀ uri, one.conf.baseuri = some uri →
      ∀ other, two.conf.baseuri = some other → uri ≠ other :=
    ⟨fun _ _ before uri has other also_has => (before other also_has uri has).symm⟩
  by_contra different
  exact apart.forall one two different uri has uri also_has rfl

theorem mayPick_of_under {reg : Registration α} {uri : Uri} (member : reg ∈ regs)
    (given : reg.conf.baseuri = some uri) (under : Under uri path) :
    MayPick regs path reg uri := ⟨⟨member, given⟩, .inl (hash_of_under under)⟩

/-- Where the hashes leave no choice and admit the right application, every order of
registration is exact. -/
theorem exact_of_clear (distinct : Distinct regs) (foreign : NoHost regs httpHost)
    (clear : Clear regs path) : Exact regs path httpHost where
  under := by
    intro reg member uri given proper
    constructor
    · intro chosen
      rcases @select_picks _ regs path _ foreign with
        ⟨nothing, -⟩ | ⟨owner, other, picked, selected⟩
      · rw [nothing] at chosen
        exact nomatch chosen
      · have same : owner = reg := distinct.app_inj picked.1.1 member
          (Option.some.inj (selected.symm.trans chosen))
        subst same
        have named : other = uri := Option.some.inj (picked.1.2.symm.trans given)
        subst named
        exact (clear.right _ _ picked).resolve_left proper
    · intro under
      have wanted := mayPick_of_under member given under
      rcases @select_picks _ regs path _ foreign with ⟨-, never⟩ | ⟨owner, other, picked, selected⟩
      · exact absurd wanted (never reg uri)
      · rw [selected, clear.single owner reg other uri picked wanted]
  root := by
    intro outside
    rcases @select_picks _ regs path _ foreign with
      ⟨nothing, never⟩ | ⟨owner, uri, picked, selected⟩
    · -- no root application is registered: the hashes would have admitted it
      have missing : regs.find? (·.conf.baseuri = some rootUri) = none := by
        rw [List.find?_eq_none]
        intro reg member given
        refine never reg rootUri ⟨⟨member, of_decide_eq_true given⟩, .inr ⟨hash_rootUri, ?_⟩⟩
        intro other listed same
        obtain ⟨owner, present, named⟩ := List.mem_filterMap.mp listed
        exact absurd ⟨⟨present, named⟩, .inl same⟩ (never owner other)
      rw [nothing, missing]
      rfl
    · have root : uri = rootUri := by
        rcases clear.right _ _ picked with root | under
        · exact root
        · by_contra proper
          exact outside owner picked.1.1 uri picked.1.2 proper under
      subst root
      cases found : regs.find? (·.conf.baseuri = some rootUri) with
      | none => exact absurd (decide_eq_true picked.1.2) (List.find?_eq_none.mp found _ picked.1.1)
      | some reg =>
          have given := List.find?_some found
          rw [decide_eq_true_eq] at given
          have same : owner = reg := distinct.uri_inj picked.1.1 (List.mem_of_find?_eq_some found)
            picked.1.2 given
          rw [selected, same]
          rfl

/-- A registration can be made last. -/
theorem exists_last {reg : Registration α} (member : reg ∈ regs) :
    ∃ front, (front ++ [reg]).Perm regs := by
  obtain ⟨before, behind, rfl⟩ := List.append_of_mem member
  refine ⟨before ++ behind, ?_⟩
  rw [List.append_assoc]
  exact (List.perm_append_singleton _ _).append_left _

/-- The other way round: whatever the hashes admit is chosen in some order, so it has to be right
and there can be no second one. -/
theorem clear_of_exact (distinct : Distinct regs) (foreign : NoHost regs httpHost)
    (exact : ∀ order, order.Perm regs → Exact order path httpHost) : Clear regs path := by
  have right : ∀ reg uri, MayPick regs path reg uri → uri = rootUri ∨ Under uri path := by
    intro reg uri picked
    by_cases root : uri = rootUri
    · exact .inl root
    · obtain ⟨front, same⟩ := exists_last picked.1.1
      have selected := select_last (foreign.perm same) (picked.perm same)
      exact .inr (((exact _ same).under reg (same.mem_iff.mpr picked.1.1) uri picked.1.2 root).mp
        selected)
  -- a proper base URI that is admitted wins in the order that puts the other one last
  have wins : ∀ first second uri other, MayPick regs path first uri →
      MayPick regs path second other → uri ≠ rootUri → first = second := by
    intro first second uri other picked last proper
    have under := (right first uri picked).resolve_left proper
    obtain ⟨front, same⟩ := exists_last last.1.1
    have selected := select_last (foreign.perm same) (last.perm same)
    have wanted := ((exact _ same).under first (same.mem_iff.mpr picked.1.1) uri picked.1.2
      proper).mpr under
    exact distinct.app_inj picked.1.1 last.1.1 (Option.some.inj (wanted.symm.trans selected))
  refine ⟨right, fun first second uri other one two => ?_⟩
  by_cases proper : uri = rootUri
  · by_cases also : other = rootUri
    · subst proper also
      exact distinct.uri_inj one.1.1 two.1.1 one.1.2 two.1.2
    · exact (wins second first other uri two one also).symm
  · exact wins first second uri other one two proper

/-- Routing is exact, in whatever order the applications were added, exactly when the hashes admit
at most one of them and that one is right. -/
theorem exact_iff (distinct : Distinct regs) (foreign : NoHost regs httpHost) :
    (∀ order, order.Perm regs → Exact order path httpHost) ↔ Clear regs path := by
  constructor
  · exact clear_of_exact distinct foreign
  · intro clear order same
    have moved : Clear order path := by
      constructor
      · exact fun reg uri picked => clear.right reg uri (picked.perm same.symm)
      · exact fun first second uri other one two =>
          clear.single first second uri other (one.perm same.symm) (two.perm same.symm)
    refine exact_of_clear ⟨?_, ?_⟩ (foreign.perm same) moved
    · exact (same.map _).nodup_iff.mpr distinct.apps
    · exact (same.filterMap _).nodup_iff.mpr distinct.uris

/-- Two applications with the base URIs `/a/b` and `/c`. -/
def sampleRegistrations : List (Registration Nat) :=
  [⟨0, ⟨⟨ascii "one", by decide⟩, some ⟨⟨ascii "/a/b", by decide⟩, by decide⟩, []⟩⟩,
    ⟨1, ⟨⟨ascii "two", by decide⟩, some ⟨⟨ascii "/c", by decide⟩, by decide⟩, []⟩⟩]

theorem sampleRegistrations_distinct : Distinct sampleRegistrations :=
  ⟨by decide +kernel, by decide +kernel⟩

theorem sampleRegistrations_noHost (httpHost : Option (List UInt8)) :
    NoHost sampleRegistrations httpHost := by
  intro reg member host listed
  have plain : ∀ reg ∈ sampleRegistrations, reg.conf.hostNameList = [] := by decide +kernel
  rw [plain reg member] at listed
  exact absurd listed List.not_mem_nil

theorem exact_iff_sample :
    (∀ order, order.Perm sampleRegistrations → Exact order (some (ascii "/c/d")) none) ↔
      Clear sampleRegistrations (some (ascii "/c/d")) :=
  exact_iff sampleRegistrations_distinct (sampleRegistrations_noHost none)

/-- The path `/a/c` goes to the application at `/a/b`. -/
theorem exact_fails :
    Distinct sampleRegistrations ∧ NoHost sampleRegistrations none ∧
      ¬ Exact sampleRegistrations (some (ascii "/a/c")) none := by
  refine ⟨sampleRegistrations_distinct, sampleRegistrations_noHost none, fun exact => ?_⟩
  have selected : (Server.register sampleRegistrations).select (some (ascii "/a/c")) none =
      some 0 := by decide +kernel
  obtain ⟨text, same, whole | prefixed⟩ :=
    (exact.under _ List.mem_cons_self _ rfl (by decide +kernel)).mp selected
  · cases Option.some.inj same
    exact absurd whole (by decide +kernel)
  · cases Option.some.inj same
    exact absurd prefixed (by decide +kernel)

end Resolver
