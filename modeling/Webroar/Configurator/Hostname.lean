import Webroar.Configurator.Baseuri

/-! # Applications with one host name

A host name must not come twice in an application or in two. The list of the configuration file
is walked once more for that, pair by pair, and starts again after each pair that is taken out.
Of two lists of host names only the first name of one is compared: the second loop is not set back
for the others.
-/

namespace Configurator

open Resolver (AppConf Host)

/-- `wr_chk_host_within_list`: does no text come twice? The types are not compared. -/
def chkHostWithinList : List Host → Bool
  | [] => true
  | host :: rest => !rest.any (fun other => host.name = other.name) && chkHostWithinList rest

/-- `wr_chk_host_lists`. -/
def chkHostLists : List Host → List Host → Bool
  | [], _ => true
  | host :: rest, list2 =>
      -- the inner loop leaves `list2` at its end, so the other hosts meet an empty list
      !list2.any (fun other => host.name = other.name) && chkHostLists rest []

/-- Where `wr_remove_app_with_dup_host` is: at an application, or comparing it with the later
ones. -/
inductive HostPoint where
  | app (app : Option Nat)
  | pair (app : Nat) (tmpApp : Option Nat)
deriving DecidableEq

/-- One turn of the loops of `wr_remove_app_with_dup_host`. -/
def hostTurn : List Entry × HostPoint → Turn (List Entry × HostPoint) (List Entry)
  | (list, .app none) => .halt list
  | (list, .app (some app)) =>
      match Chain.node Entry.address list app with
      | none => .fault
      | some entry =>
          let next := Chain.next Entry.address list app
          if entry.hosts = [] then .again (list, .app next)
          else if chkHostWithinList entry.hosts then .again (list, .pair app next)
          else .again (confRemove list entry.name, .app next)
  | (list, .pair app none) =>
      match Chain.node Entry.address list app with
      | none => .fault
      | some _ => .again (list, .app (Chain.next Entry.address list app))
  | (list, .pair app (some tmpApp)) =>
      match Chain.node Entry.address list app, Chain.node Entry.address list tmpApp with
      | some entry, some other =>
          if other.hosts ≠ [] ∧ ¬ chkHostLists entry.hosts other.hosts then
            -- the second name is read after the first removal
            match Chain.node Entry.address (confRemove list entry.name) tmpApp with
            | none => .fault
            | some _ =>
                let left := confRemove (confRemove list entry.name) other.name
                .again (left, .app (Chain.first Entry.address left))
          else
            .again (list, .pair app (Chain.next Entry.address list tmpApp))
      | _, _ => .fault

/-- The walk from the head of the list. -/
def hostStart (list : List Entry) : List Entry × HostPoint :=
  (list, .app (Chain.first Entry.address list))

/-! ### Host names in common -/

/-- Two configurations share a host name: its text and its type. -/
def Shares (first second : AppConf) : Prop :=
  ∃ host ∈ first.hostNameList, host ∈ second.hostNameList

/-- What two lists of host names are compared for: the first text of the one among those of the
other. -/
def Found (first second : List Host) : Prop :=
  ∃ host, first.head? = some host ∧ ∃ other ∈ second, host.name = other.name

/-- An entry repeats a text, or has one in common with another entry. -/
def AtOdds (list : List Entry) (entry : Entry) : Prop :=
  chkHostWithinList entry.hosts = false ∨
    ∃ other ∈ list, other ≠ entry ∧ ∃ host ∈ entry.hosts, ∃ also ∈ other.hosts,
      host.name = also.name

/-- Of a list of applications: the removals by name take none that is not at odds and leave none
with a text twice, and a host name in common is always a first one. -/
structure Regular (list : List Entry) : Prop where
  namesakes : list.Pairwise fun earlier later => earlier.name = later.name →
    chkHostWithinList later.hosts = true ∧ (AtOdds list later → AtOdds list earlier)
  found : list.Pairwise fun earlier later => Shares earlier.conf later.conf →
    Found earlier.hosts later.hosts

theorem chkHostLists_nil (hosts : List Host) : chkHostLists hosts [] = true := by
  induction hosts with
  | nil => rfl
  | cons host rest ih => exact ih

theorem chkHostLists_iff {first second : List Host} :
    chkHostLists first second = false ↔ Found first second := by
  cases first with
  | nil =>
      refine iff_of_false Bool.noConfusion ?_
      rintro ⟨host, head, -⟩
      cases head
  | cons host rest =>
      rw [chkHostLists, chkHostLists_nil, Bool.and_true, Bool.not_eq_false', List.any_eq_true]
      constructor
      · rintro ⟨other, listed, same⟩
        exact ⟨host, rfl, other, listed, of_decide_eq_true same⟩
      · rintro ⟨also, head, other, listed, same⟩
        cases head
        exact ⟨other, listed, decide_eq_true same⟩

theorem not_found_nil {hosts : List Host} : ¬ Found hosts [] := by
  rintro ⟨-, -, other, listed, -⟩
  cases listed

theorem Found.atOdds {list : List Entry} {first second : Entry} (found : Found first.hosts second.hosts)
    (one : first ∈ list) (two : second ∈ list) (differ : first ≠ second) :
    AtOdds list first ∧ AtOdds list second := by
  obtain ⟨host, head, other, listed, same⟩ := found
  have member : host ∈ first.hosts := List.mem_of_mem_head? head
  exact ⟨.inr ⟨second, two, differ.symm, host, member, other, listed, same⟩,
    .inr ⟨first, one, differ, other, listed, host, member, same.symm⟩⟩

/-! ### The walk -/

/-- The entries `before` are done with: no text comes twice in one, and no pair is found out. -/
abbrev Compared (before after : List Entry) : Prop :=
  Chain.Checked (fun entry => chkHostWithinList entry.hosts = true)
    (fun first second => ¬ Found first.hosts second.hosts) before after

/-- Where the walk is, with the turns it has left in front of it. -/
inductive HostAt : List Entry → HostPoint → Nat × Nat → Prop
  | app {before rest : List Entry} (done : Compared before rest) :
      HostAt (before ++ rest) (.app (Chain.first Entry.address rest)) (2 * rest.length, 0)
  | pair {before seen rest : List Entry} {entry : Entry}
      (done : Compared before (entry :: (seen ++ rest)))
      (fine : chkHostWithinList entry.hosts = true)
      (apart : ∀ other ∈ seen, ¬ Found entry.hosts other.hosts) :
      HostAt (before ++ entry :: (seen ++ rest))
        (.pair entry.address (Chain.first Entry.address rest))
        (2 * (seen ++ rest).length + 1, rest.length)

/-- What the turns of the walk keep: only applications at odds are taken out. -/
structure HostWalk (file : List Entry) (rank : Nat × Nat × Nat) (state : List Entry × HostPoint) :
    Prop where
  distinct : (state.1.map Entry.address).Nodup
  inside : state.1.Sublist file
  kept : ∀ entry ∈ file, ¬ AtOdds file entry → entry ∈ state.1
  length : rank.1 = state.1.length
  place : HostAt state.1 state.2 rank.2

variable {file list before after : List Entry} {entry other : Entry} {point next : HostPoint}
  {rank kind : Nat × Nat} {length : Nat}

/-- A removal for an entry at odds takes out an entry at odds. -/
theorem confRemove_atOdds (regular : Regular file) (inside : list.Sublist file)
    (listed : entry ∈ list) (odd : AtOdds file entry) :
    ∃ front gone back, list = front ++ gone :: back ∧ AtOdds file gone ∧
      confRemove list entry.name = front ++ back := by
  obtain ⟨front, gone, back, cut, named, others, removed⟩ := @Chain.remove_split Entry _ _
    Entry.name list entry listed
  refine ⟨front, gone, back, cut, ?_, removed⟩
  rw [cut] at listed inside
  rcases List.mem_append.mp listed with within | within
  · exact absurd rfl (others entry within)
  · rcases List.mem_cons.mp within with rfl | behind
    · exact odd
    · have pairs := (List.pairwise_append.mp (regular.namesakes.sublist inside)).2.1
      exact ((List.pairwise_cons.mp pairs).1 entry behind named).2 odd

/-- After a removal for an entry at odds the walk is one entry shorter. -/
theorem HostWalk.removed (regular : Regular file)
    (walk : HostWalk file (length, rank) (list, point)) (listed : entry ∈ list)
    (odd : AtOdds file entry) (place : HostAt (confRemove list entry.name) next kind) :
    HostWalk file ((confRemove list entry.name).length, kind) (confRemove list entry.name, next) ∧
      (confRemove list entry.name).length < length := by
  have distinct : (list.map Entry.address).Nodup := walk.distinct
  have inside : list.Sublist file := walk.inside
  have long : length = list.length := walk.length
  obtain ⟨front, gone, back, cut, leaves, removed⟩ :=
    confRemove_atOdds regular inside listed odd
  have shorter : (confRemove list entry.name).length < length := by
    rw [long, removed, cut, List.length_append, List.length_append, List.length_cons]
    omega
  have part : (confRemove list entry.name).Sublist list := Chain.remove_sublist list entry.name
  refine ⟨⟨distinct.sublist (part.map _), part.trans inside, ?_, rfl, place⟩, shorter⟩
  intro other member calm
  have still : other ∈ list := walk.kept other member calm
  rw [cut] at still
  rw [removed]
  rcases List.mem_append.mp still with within | within
  · exact List.mem_append_left _ within
  · rcases List.mem_cons.mp within with rfl | behind
    · exact absurd leaves calm
    · exact List.mem_append_right _ behind

/-- A turn that takes nothing out. -/
theorem HostWalk.moved (walk : HostWalk file (length, rank) (list, point))
    (place : HostAt list next kind) (less : WellFoundedRelation.rel kind rank) :
    ∃ lower, HostWalk file lower (list, next) ∧ WellFoundedRelation.rel lower (length, rank) :=
  ⟨(length, kind), ⟨walk.distinct, walk.inside, walk.kept, walk.length, place⟩,
    Prod.Lex.right _ less⟩

/-- At an application. -/
theorem HostWalk.turn_at {rest : List Entry} (regular : Regular file)
    (done : Compared before (entry :: rest))
    (walk : HostWalk file (length, 2 * (entry :: rest).length, 0)
      (before ++ entry :: rest, .app (some entry.address))) :
    ∃ next lower, hostTurn (before ++ entry :: rest, .app (some entry.address)) = .again next ∧
      HostWalk file lower next ∧
      WellFoundedRelation.rel lower (length, 2 * (entry :: rest).length, 0) := by
  have distinct : ((before ++ entry :: rest).map Entry.address).Nodup := walk.distinct
  have longer : 2 * rest.length + 1 < 2 * (entry :: rest).length := by
    rw [List.length_cons]
    omega
  have shape : before ++ entry :: rest = (before ++ [entry]) ++ rest := by
    rw [List.append_assoc, List.singleton_append]
  unfold hostTurn
  dsimp only
  rw [Chain.node_split distinct, Chain.next_split distinct]
  dsimp only
  by_cases bare : entry.hosts = []
  · rw [if_pos bare]
    have fine : chkHostWithinList entry.hosts = true := by rw [bare]; rfl
    have apart : ∀ later ∈ rest, ¬ Found entry.hosts later.hosts := by
      rw [bare]
      rintro later _ ⟨host, head, -⟩
      cases head
    have place := HostAt.app (done.push fine apart)
    rw [← shape] at place
    obtain ⟨lower, kept, less⟩ := walk.moved place (Prod.Lex.left _ _ (Nat.lt_of_succ_lt longer))
    exact ⟨_, lower, rfl, kept, less⟩
  · rw [if_neg bare]
    cases fine : chkHostWithinList entry.hosts with
    | true =>
        have place := @HostAt.pair before [] rest entry done fine
          (fun other absent => absurd absent List.not_mem_nil)
        obtain ⟨lower, kept, less⟩ := walk.moved place (Prod.Lex.left _ _ longer)
        exact ⟨_, lower, rfl, kept, less⟩
    | false =>
        -- no earlier one has the name, so it is this one that goes
        have spared : confRemove (before ++ entry :: rest) entry.name = before ++ rest := by
          have pairs := List.pairwise_append.mp (regular.namesakes.sublist walk.inside)
          refine (Chain.remove_append ?_).trans (congrArg _ Chain.remove_cons)
          intro other earlier same
          have passes := (pairs.2.2 other earlier entry List.mem_cons_self same).1
          exact Bool.noConfusion (fine.symm.trans passes)
        have place := HostAt.app (done.fewer fun other => List.mem_cons_of_mem entry)
        rw [← spared] at place
        obtain ⟨kept, shorter⟩ := walk.removed regular (List.mem_append_right _ List.mem_cons_self)
          (.inl fine) place
        exact ⟨_, _, rfl, kept, Prod.Lex.left _ _ shorter⟩

/-- Comparing with a later application. -/
theorem HostWalk.turn_pair {seen rest : List Entry} (regular : Regular file)
    (done : Compared before (entry :: (seen ++ other :: rest)))
    (fine : chkHostWithinList entry.hosts = true)
    (apart : ∀ other ∈ seen, ¬ Found entry.hosts other.hosts)
    (walk : HostWalk file
      (length, 2 * (seen ++ other :: rest).length + 1, (other :: rest).length)
      (before ++ entry :: (seen ++ other :: rest), .pair entry.address (some other.address))) :
    ∃ next lower, hostTurn (before ++ entry :: (seen ++ other :: rest),
        .pair entry.address (some other.address)) = .again next ∧
      HostWalk file lower next ∧
      WellFoundedRelation.rel lower
        (length, 2 * (seen ++ other :: rest).length + 1, (other :: rest).length) := by
  have distinct : ((before ++ entry :: (seen ++ other :: rest)).map Entry.address).Nodup :=
    walk.distinct
  have first : entry ∈ before ++ entry :: (seen ++ other :: rest) :=
    List.mem_append_right _ List.mem_cons_self
  have second : other ∈ before ++ entry :: (seen ++ other :: rest) :=
    List.mem_append_right _ (List.mem_cons_of_mem _ (List.mem_append_right _ List.mem_cons_self))
  have shape : before ++ entry :: (seen ++ other :: rest) =
      (before ++ entry :: seen) ++ other :: rest := by
    rw [List.append_assoc, List.cons_append]
  have next : Chain.next Entry.address (before ++ entry :: (seen ++ other :: rest))
      other.address = Chain.first Entry.address rest := by
    rw [shape] at distinct ⊢
    exact Chain.next_split distinct
  unfold hostTurn
  dsimp only
  rw [Chain.node_of_mem distinct first, Chain.node_of_mem distinct second, next]
  dsimp only
  by_cases found : Found entry.hosts other.hosts
  · have clash : other.hosts ≠ [] ∧ ¬ chkHostLists entry.hosts other.hosts = true := by
      refine ⟨fun bare => not_found_nil (bare ▸ found), ?_⟩
      rw [chkHostLists_iff.mpr found]
      exact Bool.noConfusion
    have differ : entry ≠ other := by
      rintro rfl
      rw [shape] at distinct
      have once := List.nodup_append.mp (List.Nodup.of_map _ distinct)
      exact once.2.2 entry (List.mem_append_right _ List.mem_cons_self) entry List.mem_cons_self rfl
    obtain ⟨odd, also⟩ := found.atOdds (walk.inside.mem first) (walk.inside.mem second) differ
    obtain ⟨left, shorter⟩ := walk.removed regular first odd (HostAt.app .nil)
    have still : other ∈ confRemove (before ++ entry :: (seen ++ other :: rest)) entry.name := by
      rw [shape, confRemove, Chain.remove_ahead (List.mem_append_right _ List.mem_cons_self)]
      exact List.mem_append_right _ List.mem_cons_self
    obtain ⟨kept, less⟩ := left.removed regular still also (HostAt.app .nil)
    rw [if_pos clash, Chain.node_of_mem left.distinct still]
    exact ⟨_, _, rfl, kept, Prod.Lex.left _ _ (less.trans shorter)⟩
  · have calm : ¬ (other.hosts ≠ [] ∧ ¬ chkHostLists entry.hosts other.hosts = true) := by
      rintro ⟨-, clash⟩
      exact found (chkHostLists_iff.mp (Bool.eq_false_of_not_eq_true clash))
    have moved : seen ++ other :: rest = (seen ++ [other]) ++ rest := by
      rw [List.append_assoc, List.singleton_append]
    have farther : ∀ earlier ∈ seen ++ [other], ¬ Found entry.hosts earlier.hosts := by
      intro earlier member
      rcases List.mem_append.mp member with front | last
      · exact apart earlier front
      · rw [List.mem_singleton.mp last]
        exact found
    rw [if_neg calm]
    rw [moved] at done walk ⊢
    obtain ⟨lower, kept, less⟩ := walk.moved (HostAt.pair done fine farther)
      (Prod.Lex.right _ (Nat.lt_succ_self _))
    exact ⟨_, lower, rfl, kept, less⟩

theorem HostWalk.turn {rank : Nat × Nat × Nat} {state : List Entry × HostPoint}
    (regular : Regular file) (walk : HostWalk file rank state) :
    (∃ next lower, hostTurn state = .again next ∧ HostWalk file lower next ∧
      WellFoundedRelation.rel lower rank) ∨
    (hostTurn state = .halt state.1 ∧ Compared state.1 []) := by
  obtain ⟨list, point⟩ := state
  obtain ⟨length, kind⟩ := rank
  have place : HostAt list point kind := walk.place
  cases place with
  | @app before rest done =>
      cases rest with
      | nil =>
          right
          dsimp only
          rw [List.append_nil]
          exact ⟨rfl, done⟩
      | cons entry rest => exact .inl (walk.turn_at regular done)
  | @pair before seen rest entry done fine apart =>
      left
      cases rest with
      | nil =>
          have distinct : ((before ++ entry :: (seen ++ [])).map Entry.address).Nodup :=
            walk.distinct
          rw [List.append_nil] at walk done distinct ⊢
          have shape : before ++ entry :: seen = (before ++ [entry]) ++ seen := by
            rw [List.append_assoc, List.singleton_append]
          have place := HostAt.app (done.push fine apart)
          rw [← shape] at place
          obtain ⟨lower, kept, less⟩ := walk.moved place (Prod.Lex.left _ _ (Nat.lt_succ_self _))
          have last : Chain.first Entry.address ([] : List Entry) = none := rfl
          rw [last]
          unfold hostTurn
          dsimp only
          rw [Chain.node_split distinct, Chain.next_split distinct]
          exact ⟨_, lower, rfl, kept, less⟩
      | cons other rest => exact walk.turn_pair regular done fine apart

/-- The walk over a regular list ends; no two of the applications left share a host name, and those
that were not at odds are left. -/
theorem host_walk_ends (distinct : (list.map Entry.address).Nodup) (regular : Regular list) :
    ∃ left, Loop.Ends hostTurn (hostStart list) left ∧ left.Sublist list ∧
      (left.Pairwise fun earlier later => ¬ Shares earlier.conf later.conf) ∧
      ∀ entry ∈ list, ¬ AtOdds list entry → entry ∈ left := by
  have begins : HostWalk list (list.length, 2 * list.length, 0) (hostStart list) :=
    ⟨distinct, List.Sublist.refl _, fun _ member _ => member, rfl, HostAt.app .nil⟩
  obtain ⟨left, low, last, ends, walk, halted⟩ :=
    Loop.ends_of_rank (HostWalk list)
      (fun rank state walk => (walk.turn regular).imp_right fun halts => ⟨_, halts.1⟩) begins
  rcases walk.turn regular with ⟨next, lower, again, -, -⟩ | ⟨halts, compared⟩
  · rw [halted] at again
    cases again
  · rw [halted] at halts
    obtain rfl := Turn.halt.inj halts
    refine ⟨_, ends, walk.inside, ?_, walk.kept⟩
    refine (compared.pairs.and (regular.found.sublist walk.inside)).imp ?_
    rintro earlier later ⟨unfound, found⟩ shares
    exact unfound (found shares)

/-- A turn leaves the list as it is or removes entries. -/
theorem hostTurn_sublist {following : List Entry × HostPoint}
    (took : hostTurn (list, point) = .again following) : following.1.Sublist list := by
  have removal : ∀ (list : List Entry) name, (confRemove list name).Sublist list :=
    fun list name => Chain.remove_sublist list name
  cases point with
  | app app =>
      cases app with
      | none => cases took
      | some app =>
          unfold hostTurn at took
          dsimp only at took
          split at took
          · cases took
          · split at took
            · cases took
              exact .refl _
            · split at took
              · cases took
                exact .refl _
              · cases took
                exact removal list _
  | pair app tmpApp =>
      cases tmpApp with
      | none =>
          unfold hostTurn at took
          dsimp only at took
          split at took
          · cases took
          · cases took
            exact .refl _
      | some tmpApp =>
          unfold hostTurn at took
          dsimp only at took
          split at took
          · split at took
            · split at took
              · cases took
              · cases took
                exact (removal _ _).trans (removal list _)
            · cases took
              exact .refl _
          · cases took

theorem hostTurn_halt {result : List Entry} (last : hostTurn (list, point) = .halt result) :
    result = list := by
  cases point with
  | app app =>
      cases app with
      | none => exact (Turn.halt.inj last).symm
      | some app =>
          unfold hostTurn at last
          dsimp only at last
          split at last
          · cases last
          · split at last
            · cases last
            · split at last
              · cases last
              · cases last
  | pair app tmpApp =>
      cases tmpApp with
      | none =>
          unfold hostTurn at last
          dsimp only at last
          split at last
          · cases last
          · cases last
      | some tmpApp =>
          unfold hostTurn at last
          dsimp only at last
          split at last
          · split at last
            · split at last
              · cases last
              · cases last
            · cases last
          · cases last

/-- The walk leaves entries in the order of the file. -/
theorem host_walk_sublist {left : List Entry}
    (ends : Loop.Ends hostTurn (hostStart list) left) : left.Sublist list := by
  obtain ⟨⟨still, point⟩, inside, halted⟩ := ends.invariant (fun state => state.1.Sublist list)
    (List.Sublist.refl _) (fun state next kept took => (hostTurn_sublist took).trans kept)
  rw [hostTurn_halt halted]
  exact inside

end Configurator
