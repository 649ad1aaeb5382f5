import Webroar.Head.Resolver
import Webroar.Library.Chain
import Webroar.Library.Loop

/-! # Applications with one base URI

The configuration file gives a list of applications. Those that ask for the base URI of the admin
panel, or for one that an earlier application has, are taken out of the list while it is walked
with three pointers; they are looked up by name, so where names repeat another entry can go. The
walk does what it should exactly when no such application has the name of an earlier one that is
to stay.
-/

namespace Configurator

open Resolver (AppConf Uri Host)

/-- `config_application_list_t`: an entry of `Config->Application.list` and its address. -/
structure Entry where
  address : Nat
  conf : AppConf
  new : Option AppConf
deriving DecidableEq

namespace Entry

def name (entry : Entry) : List UInt8 := entry.conf.name.1

def baseuri (entry : Entry) : Option Uri := entry.conf.baseuri

def hosts (entry : Entry) : List Host := entry.conf.hostNameList

end Entry

/-- `Config->Application.Admin_panel.base_uri`. -/
def adminUri : Uri := ⟨⟨ascii "/admin-panel", by decide⟩, by decide⟩

/-- `wr_app_conf_remove`. -/
def confRemove (list : List Entry) (name : List UInt8) : List Entry :=
  Chain.remove Entry.name list name

/-- Where `wr_remove_app_with_dup_baseuri` is: at an application, or comparing it with the later
ones. -/
inductive BaseuriPoint where
  | app (app : Option Nat)
  | dup (app : Nat) (next tmpApp : Option Nat)
deriving DecidableEq

/-- One turn of the loops of `wr_remove_app_with_dup_baseuri`. -/
def baseuriTurn : List Entry × BaseuriPoint → Turn (List Entry × BaseuriPoint) (List Entry)
  | (list, .app none) => .halt list
  | (list, .app (some app)) =>
      match Chain.node Entry.address list app with
      | none => .fault
      | some entry =>
          let next := Chain.next Entry.address list app
          match entry.baseuri with
          | none => .again (list, .app next)
          | some uri =>
              if uri = adminUri then
                .again (confRemove list entry.name, .app next)
              else
                .again (list, .dup app next next)
  | (list, .dup _ next none) => .again (list, .app next)
  | (list, .dup app next (some tmpApp)) =>
      match Chain.node Entry.address list app, Chain.node Entry.address list tmpApp with
      | some entry, some other =>
          if other.baseuri.isSome ∧ entry.baseuri = other.baseuri then
            -- the entry that goes may be the one the walk is at
            match Chain.node Entry.address (confRemove list other.name) app with
            | none => .fault
            | some _ =>
                let next := Chain.next Entry.address (confRemove list other.name) app
                .again (confRemove list other.name, .dup app next next)
          else
            .again (list, .dup app next (Chain.next Entry.address list tmpApp))
      | _, _ => .fault

/-- The walk from the head of the list. -/
def baseuriStart (list : List Entry) : List Entry × BaseuriPoint :=
  (list, .app (Chain.first Entry.address list))

/-! ### Who is to stay -/

/-- An entry stays when it has no base URI, or is the first one with it and the base URI is not the
admin panel's. -/
def Stays (list : List Entry) (entry : Entry) : Prop :=
  ∀ uri, entry.baseuri = some uri →
    uri ≠ adminUri ∧ (list.find? fun other => other.baseuri = some uri) = some entry

instance (list : List Entry) (entry : Entry) : Decidable (Stays list entry) :=
  match shape : entry.baseuri with
  | none => isTrue fun uri same => by rw [shape] at same; cases same
  | some uri =>
      decidable_of_iff
        (uri ≠ adminUri ∧ (list.find? fun other => other.baseuri = some uri) = some entry)
        ⟨fun holds other same => by rw [shape] at same; cases same; exact holds,
          fun holds => holds uri shape⟩

/-- Each base URI with its first owner, and the applications without one. -/
def owners (list : List Entry) : List Entry := list.filter fun entry => Stays list entry

/-- An entry that is to go has no earlier namesake that is to stay. -/
def Namesakes (list : List Entry) : Prop :=
  ∀ before entry after, list = before ++ entry :: after → ¬ Stays list entry →
    ∀ other ∈ before, other.name = entry.name → ¬ Stays list other

variable {list before after : List Entry} {entry : Entry}

/-- Later entries do not matter to an entry that no earlier one shares its base URI with. -/
theorem stays_of_apart
    (apart : ∀ other ∈ before, ∀ uri, other.baseuri = some uri → entry.baseuri ≠ some uri)
    (ordinary : entry.baseuri ≠ some adminUri) : Stays (before ++ entry :: after) entry := by
  intro uri same
  refine ⟨fun admin => ordinary (admin ▸ same), ?_⟩
  rw [List.find?_append, List.find?_eq_none.mpr, Option.none_or]
  · exact List.find?_cons_of_pos (decide_eq_true same)
  · intro other member
    rw [decide_eq_true_eq]
    exact fun shared => apart other member uri shared same

/-- An entry behind one with the same base URI goes. -/
theorem not_stays_of_shared {uri : Uri} {other : Entry} (listed : other ∈ before)
    (shared : other.baseuri = some uri) (same : entry.baseuri = some uri)
    (distinct : ((before ++ entry :: after).map Entry.address).Nodup) :
    ¬ Stays (before ++ entry :: after) entry := by
  intro stays
  have found := (stays uri same).2
  have first : (before.find? fun other => other.baseuri = some uri).isSome = true :=
    List.find?_isSome.mpr ⟨other, listed, decide_eq_true shared⟩
  obtain ⟨owner, owned⟩ := Option.isSome_iff_exists.mp first
  rw [List.find?_append, owned, Option.some_or] at found
  obtain rfl := Option.some.inj found
  rw [List.map_append, List.nodup_append] at distinct
  exact distinct.2.2 _ (List.mem_map_of_mem (List.mem_of_find?_eq_some owned)) _
    List.mem_cons_self rfl

/-- Taking out an entry that goes makes no difference to who stays. -/
theorem stays_without (goes : ¬ Stays (before ++ entry :: after) entry) (other : Entry) :
    Stays (before ++ after) other ↔ Stays (before ++ entry :: after) other := by
  have search : ∀ uri, uri ≠ adminUri →
      ((before ++ after).find? fun other => other.baseuri = some uri) =
        (before ++ entry :: after).find? fun other => other.baseuri = some uri := by
    intro uri ordinary
    rw [List.find?_append, List.find?_append]
    cases found : before.find? fun other => other.baseuri = some uri with
    | some owner => rfl
    | none =>
        have other : ¬ entry.baseuri = some uri := by
          intro same
          apply goes
          apply stays_of_apart
          · intro earlier member shared has both
            have none := List.find?_eq_none.mp found earlier member
            rw [decide_eq_true_eq, has, ← both, same] at none
            exact none rfl
          · intro admin
            exact ordinary (Option.some.inj (same.symm.trans admin))
        rw [Option.none_or, Option.none_or, List.find?_cons_of_neg]
        rw [decide_eq_true_eq]
        exact other
  constructor
  · intro stays uri same
    rw [← search uri (stays uri same).1]
    exact stays uri same
  · intro stays uri same
    rw [search uri (stays uri same).1]
    exact stays uri same

theorem owners_without (goes : ¬ Stays (before ++ entry :: after) entry) :
    owners (before ++ after) = owners (before ++ entry :: after) := by
  have same : (fun other => decide (Stays (before ++ after) other)) =
      fun other => decide (Stays (before ++ entry :: after) other) := by
    funext other
    exact decide_eq_decide.mpr (stays_without goes other)
  rw [owners, owners, same, List.filter_append, List.filter_append, List.filter_cons_of_neg]
  rw [decide_eq_true_eq]
  exact goes

theorem namesakes_without (goes : ¬ Stays (before ++ entry :: after) entry)
    (namesakes : Namesakes (before ++ entry :: after)) : Namesakes (before ++ after) := by
  intro front last back cut leaves other earlier same
  rw [stays_without goes] at leaves ⊢
  rcases List.append_eq_append_iff.mp cut with ⟨middle, rfl, rest⟩ | ⟨middle, rfl, rest⟩
  · -- the last one is behind the entry that went
    have whole : before ++ entry :: after = (before ++ entry :: middle) ++ last :: back := by
      rw [rest, List.append_assoc, List.cons_append]
    refine namesakes _ last back whole leaves other ?_ same
    rcases List.mem_append.mp earlier with first | second
    · exact List.mem_append_left _ first
    · exact List.mem_append_right _ (List.mem_cons_of_mem _ second)
  · cases middle with
    | nil =>
        rw [List.nil_append] at rest
        have whole : (front ++ []) ++ entry :: after =
            (front ++ [entry]) ++ last :: back := by
          rw [← rest, List.append_nil, List.append_assoc, List.cons_append, List.nil_append]
        exact namesakes _ last back whole leaves other (List.mem_append_left _ earlier) same
    | cons head tail =>
        rw [List.cons_append, List.cons.injEq] at rest
        obtain ⟨rfl, rfl⟩ := rest
        have whole : (front ++ last :: tail) ++ entry :: after =
            front ++ last :: (tail ++ entry :: after) := by
          rw [List.append_assoc, List.cons_append]
        exact namesakes front last _ whole leaves other earlier same

/-- A removal for an entry that goes takes out an entry that goes. -/
theorem confRemove_goes (namesakes : Namesakes list) (listed : entry ∈ list)
    (goes : ¬ Stays list entry) :
    ∃ front gone back, list = front ++ gone :: back ∧ ¬ Stays list gone ∧
      confRemove list entry.name = front ++ back := by
  obtain ⟨front, gone, back, cut, named, others, removed⟩ := @Chain.remove_split Entry _ _
    Entry.name list entry listed
  refine ⟨front, gone, back, cut, ?_, removed⟩
  rw [cut] at listed
  rcases List.mem_append.mp listed with inside | inside
  · exact absurd rfl (others entry inside)
  · rcases List.mem_cons.mp inside with rfl | behind
    · exact goes
    · obtain ⟨between, rest, rfl⟩ := List.append_of_mem behind
      have whole : list = (front ++ gone :: between) ++ entry :: rest := by
        rw [cut, List.append_assoc, List.cons_append]
      exact namesakes _ entry rest whole goes gone
        (List.mem_append_right _ List.mem_cons_self) named

/-! ### The walk, where names do no harm -/

/-- Two configurations do not share a base URI. -/
def Apart (first second : AppConf) : Prop :=
  ∀ uri, first.baseuri = some uri → second.baseuri ≠ some uri

/-- The entries `before` are done with: they stay, and no other entry has the base URI of one. -/
abbrev Done (before after : List Entry) : Prop :=
  Chain.Checked (fun entry => entry.baseuri ≠ some adminUri)
    (fun first second => Apart first.conf second.conf) before after

theorem stays_of_done (done : Done before after) (listed : entry ∈ before) :
    Stays (before ++ after) entry := by
  obtain ⟨front, back, rfl⟩ := List.append_of_mem listed
  have ordinary := done.each entry listed
  rw [List.append_assoc, List.cons_append]
  refine stays_of_apart ?_ ordinary
  intro other earlier
  exact (List.pairwise_append.mp done.pairs).2.2 other earlier entry List.mem_cons_self

theorem stays_next (done : Done before (entry :: after))
    (ordinary : entry.baseuri ≠ some adminUri) : Stays (before ++ entry :: after) entry :=
  stays_of_apart (fun other earlier => done.behind other earlier entry List.mem_cons_self) ordinary

/-- When the list is done with, all of it stays. -/
theorem owners_of_done (done : Done list []) : owners list = list := by
  rw [owners, List.filter_eq_self]
  intro entry listed
  have stays := stays_of_done done listed
  rw [List.append_nil] at stays
  exact decide_eq_true stays

/-- Where the walk is while names do no harm, with the turns it has left in front of it: at an
application with all earlier ones done with, or comparing one that is to stay. -/
inductive At : List Entry → BaseuriPoint → Nat × Nat → Prop
  | app {before rest : List Entry} (done : Done before rest) :
      At (before ++ rest) (.app (Chain.first Entry.address rest)) (2 * rest.length, 0)
  | dup {before seen rest : List Entry} {entry : Entry} {uri : Uri}
      (done : Done before (entry :: (seen ++ rest))) (given : entry.baseuri = some uri)
      (ordinary : uri ≠ adminUri) (apart : ∀ other ∈ seen, Apart entry.conf other.conf) :
      At (before ++ entry :: (seen ++ rest))
        (.dup entry.address (Chain.first Entry.address (seen ++ rest))
          (Chain.first Entry.address rest))
        (2 * (seen ++ rest).length + 1, rest.length)

/-- What the turns of the walk keep: the applications that are to stay are those of the file. -/
structure Walk (file : List Entry) (rank : Nat × Nat × Nat) (state : List Entry × BaseuriPoint) :
    Prop where
  distinct : (state.1.map Entry.address).Nodup
  namesakes : Namesakes state.1
  kept : owners state.1 = owners file
  length : rank.1 = state.1.length
  place : At state.1 state.2 rank.2

/-- A removal for an application that is to go spares those that are to stay in front of it. -/
theorem confRemove_behind {middle : List Entry}
    (namesakes : Namesakes (before ++ (middle ++ entry :: after)))
    (goes : ¬ Stays (before ++ (middle ++ entry :: after)) entry)
    (stay : ∀ other ∈ before, Stays (before ++ (middle ++ entry :: after)) other) :
    confRemove (before ++ (middle ++ entry :: after)) entry.name =
      before ++ confRemove (middle ++ entry :: after) entry.name := by
  apply Chain.remove_append
  intro other member same
  refine namesakes (before ++ middle) entry after ?_ goes other
    (List.mem_append_left _ member) same (stay other member)
  rw [List.append_assoc]

variable {file : List Entry} {kind rank : Nat × Nat} {point : BaseuriPoint}

/-! #### Turns -/

theorem turn_app (distinct : ((before ++ entry :: after).map Entry.address).Nodup)
    (hosted : entry.baseuri = none) :
    baseuriTurn (before ++ entry :: after, .app (some entry.address)) =
      .again (before ++ entry :: after, .app (Chain.first Entry.address after)) := by
  unfold baseuriTurn
  dsimp only
  rw [Chain.node_split distinct, Chain.next_split distinct]
  dsimp only
  rw [hosted]

theorem turn_admin (distinct : ((before ++ entry :: after).map Entry.address).Nodup)
    (admin : entry.baseuri = some adminUri) :
    baseuriTurn (before ++ entry :: after, .app (some entry.address)) =
      .again (confRemove (before ++ entry :: after) entry.name,
        .app (Chain.first Entry.address after)) := by
  unfold baseuriTurn
  dsimp only
  rw [Chain.node_split distinct, Chain.next_split distinct]
  dsimp only
  rw [admin]
  exact if_pos rfl

theorem turn_ordinary {uri : Uri} (distinct : ((before ++ entry :: after).map Entry.address).Nodup)
    (given : entry.baseuri = some uri) (ordinary : uri ≠ adminUri) :
    baseuriTurn (before ++ entry :: after, .app (some entry.address)) =
      .again (before ++ entry :: after,
        .dup entry.address (Chain.first Entry.address after)
          (Chain.first Entry.address after)) := by
  unfold baseuriTurn
  dsimp only
  rw [Chain.node_split distinct, Chain.next_split distinct]
  dsimp only
  rw [given]
  exact if_neg ordinary

theorem turn_other {seen : List Entry} {other : Entry} {next : Option Nat}
    (distinct : ((before ++ entry :: (seen ++ other :: after)).map Entry.address).Nodup)
    (apart : Apart entry.conf other.conf) :
    baseuriTurn (before ++ entry :: (seen ++ other :: after),
        .dup entry.address next (some other.address)) =
      .again (before ++ entry :: (seen ++ other :: after),
        .dup entry.address next (Chain.first Entry.address after)) := by
  have shape : before ++ entry :: (seen ++ other :: after) =
      (before ++ entry :: seen) ++ other :: after := by
    rw [List.append_assoc, List.cons_append]
  have differ : ¬ (other.baseuri.isSome = true ∧ entry.baseuri = other.baseuri) := by
    intro same
    obtain ⟨uri, given⟩ := Option.isSome_iff_exists.mp same.1
    exact apart uri (same.2.trans given) given
  have first := Chain.node_split distinct
  rw [shape] at distinct first ⊢
  unfold baseuriTurn
  dsimp only
  rw [first, Chain.node_split distinct, Chain.next_split distinct]
  dsimp only
  rw [if_neg differ]

theorem turn_shared {seen rest : List Entry} {other : Entry} {uri : Uri} {next : Option Nat}
    (distinct : ((before ++ entry :: (seen ++ other :: after)).map Entry.address).Nodup)
    (given : entry.baseuri = some uri) (same : other.baseuri = some uri)
    (removed : confRemove (before ++ entry :: (seen ++ other :: after)) other.name =
      before ++ entry :: rest) :
    baseuriTurn (before ++ entry :: (seen ++ other :: after),
        .dup entry.address next (some other.address)) =
      .again (before ++ entry :: rest,
        .dup entry.address (Chain.first Entry.address rest) (Chain.first Entry.address rest)) := by
  have shape : before ++ entry :: (seen ++ other :: after) =
      (before ++ entry :: seen) ++ other :: after := by
    rw [List.append_assoc, List.cons_append]
  have fewer : ((before ++ entry :: rest).map Entry.address).Nodup := by
    rw [← removed]
    exact distinct.sublist ((Chain.remove_sublist _ other.name).map _)
  have both : other.baseuri.isSome = true ∧ entry.baseuri = other.baseuri := by
    rw [same, given]
    exact ⟨rfl, rfl⟩
  have first := Chain.node_split distinct
  have second : Chain.node Entry.address (before ++ entry :: (seen ++ other :: after))
      other.address = some other := by
    rw [shape] at distinct ⊢
    exact Chain.node_split distinct
  unfold baseuriTurn
  dsimp only
  rw [first, second]
  dsimp only
  rw [if_pos both, removed, Chain.node_split fewer, Chain.next_split fewer]

/-! #### All turns -/

/-- After a removal for an application that is to go the walk is one entry shorter. -/
theorem Walk.removed {length : Nat} {next : BaseuriPoint}
    (walk : Walk file (length, rank) (list, point)) (listed : entry ∈ list)
    (goes : ¬ Stays list entry) (place : At (confRemove list entry.name) next kind) :
    ∃ lower, Walk file lower (confRemove list entry.name, next) ∧
      WellFoundedRelation.rel lower (length, rank) := by
  have distinct : (list.map Entry.address).Nodup := walk.distinct
  have namesakes : Namesakes list := walk.namesakes
  have same : owners list = owners file := walk.kept
  have long : length = list.length := walk.length
  obtain ⟨front, gone, back, cut, leaves, removed⟩ := confRemove_goes namesakes listed goes
  have shorter : (confRemove list entry.name).length < length := by
    rw [long, removed, cut, List.length_append, List.length_append, List.length_cons]
    omega
  refine ⟨((confRemove list entry.name).length, kind), ⟨?_, ?_, ?_, rfl, place⟩,
    Prod.Lex.left _ _ shorter⟩
  · exact distinct.sublist ((Chain.remove_sublist list entry.name).map _)
  · rw [cut] at leaves namesakes
    rw [removed]
    exact namesakes_without leaves namesakes
  · rw [cut] at leaves
    rw [removed, owners_without leaves, ← cut]
    exact same

/-- A turn that takes nothing out. -/
theorem Walk.moved {length : Nat} {next : BaseuriPoint}
    (walk : Walk file (length, rank) (list, point)) (place : At list next kind)
    (less : WellFoundedRelation.rel kind rank) :
    ∃ lower, Walk file lower (list, next) ∧ WellFoundedRelation.rel lower (length, rank) :=
  ⟨(length, kind), ⟨walk.distinct, walk.namesakes, walk.kept, walk.length, place⟩,
    Prod.Lex.right _ less⟩

/-- At an application all earlier ones are done with. -/
theorem Walk.turn_at {rest : List Entry} {length : Nat} (done : Done before (entry :: rest))
    (walk : Walk file (length, 2 * (entry :: rest).length, 0)
      (before ++ entry :: rest, .app (some entry.address))) :
    ∃ next lower, baseuriTurn (before ++ entry :: rest, .app (some entry.address)) = .again next ∧
      Walk file lower next ∧
      WellFoundedRelation.rel lower (length, 2 * (entry :: rest).length, 0) := by
  have distinct : ((before ++ entry :: rest).map Entry.address).Nodup := walk.distinct
  have longer : 2 * rest.length + 1 < 2 * (entry :: rest).length := by
    rw [List.length_cons]
    omega
  have shape : before ++ entry :: rest = (before ++ [entry]) ++ rest := by
    rw [List.append_assoc, List.singleton_append]
  cases given : entry.baseuri with
  | none =>
      have apart : ∀ later ∈ rest, Apart entry.conf later.conf := by
        intro later _ uri has
        exact nomatch has.symm.trans given
      have place := At.app (done.push (by rw [given]; exact (nomatch ·)) apart)
      rw [← shape] at place
      obtain ⟨lower, kept, less⟩ := walk.moved place
        (Prod.Lex.left _ _ (Nat.lt_of_succ_lt longer))
      exact ⟨_, lower, turn_app distinct given, kept, less⟩
  | some uri =>
      by_cases admin : uri = adminUri
      · subst admin
        have goes : ¬ Stays (before ++ entry :: rest) entry := fun stays =>
          (stays adminUri given).1 rfl
        have spared : confRemove (before ++ entry :: rest) entry.name = before ++ rest := by
          rw [← List.nil_append (entry :: rest)] at goes ⊢
          rw [confRemove_behind walk.namesakes goes fun other member => stays_of_done done member,
            List.nil_append]
          exact congrArg _ Chain.remove_cons
        have place := At.app (done.fewer fun other => List.mem_cons_of_mem entry)
        rw [← spared] at place
        obtain ⟨lower, kept, less⟩ := walk.removed (List.mem_append_right _ List.mem_cons_self)
          goes place
        exact ⟨_, lower, turn_admin distinct given, kept, less⟩
      · have place := @At.dup before [] rest entry uri done given admin
          (fun other absent => absurd absent List.not_mem_nil)
        obtain ⟨lower, kept, less⟩ := walk.moved place (Prod.Lex.left _ _ longer)
        exact ⟨_, lower, turn_ordinary distinct given admin, kept, less⟩

/-- Comparing with a later application. -/
theorem Walk.turn_dup {seen rest : List Entry} {other : Entry} {uri : Uri} {length : Nat}
    (done : Done before (entry :: (seen ++ other :: rest))) (given : entry.baseuri = some uri)
    (ordinary : uri ≠ adminUri) (apart : ∀ other ∈ seen, Apart entry.conf other.conf)
    (walk : Walk file
      (length, 2 * (seen ++ other :: rest).length + 1, (other :: rest).length)
      (before ++ entry :: (seen ++ other :: rest),
        .dup entry.address (Chain.first Entry.address (seen ++ other :: rest))
          (some other.address))) :
    ∃ next lower, baseuriTurn (before ++ entry :: (seen ++ other :: rest),
        .dup entry.address (Chain.first Entry.address (seen ++ other :: rest))
          (some other.address)) = .again next ∧
      Walk file lower next ∧
      WellFoundedRelation.rel lower
        (length, 2 * (seen ++ other :: rest).length + 1, (other :: rest).length) := by
  have distinct : ((before ++ entry :: (seen ++ other :: rest)).map Entry.address).Nodup :=
    walk.distinct
  have listed : other ∈ before ++ entry :: (seen ++ other :: rest) :=
    List.mem_append_right _ (List.mem_cons_of_mem _
      (List.mem_append_right _ List.mem_cons_self))
  have split : before ++ entry :: (seen ++ other :: rest) =
      (before ++ [entry]) ++ (seen ++ other :: rest) := by
    rw [List.append_assoc, List.singleton_append]
  by_cases same : other.baseuri = some uri
  · have usual : entry.baseuri ≠ some adminUri := fun admin =>
      ordinary (Option.some.inj (given.symm.trans admin))
    have goes : ¬ Stays (before ++ entry :: (seen ++ other :: rest)) other := by
      have shape : before ++ entry :: (seen ++ other :: rest) =
          (before ++ entry :: seen) ++ other :: rest := by
        rw [List.append_assoc, List.cons_append]
      rw [shape] at distinct ⊢
      exact not_stays_of_shared (List.mem_append_right _ List.mem_cons_self) given same distinct
    have stay : ∀ earlier ∈ before ++ [entry],
        Stays (before ++ entry :: (seen ++ other :: rest)) earlier := by
      intro earlier member
      rcases List.mem_append.mp member with front | last
      · exact stays_of_done done front
      · rw [List.mem_singleton.mp last]
        exact stays_next done usual
    have removed : confRemove (before ++ entry :: (seen ++ other :: rest)) other.name =
        before ++ entry :: confRemove (seen ++ other :: rest) other.name := by
      have namesakes := walk.namesakes
      dsimp only at namesakes
      rw [split] at goes stay namesakes ⊢
      rw [confRemove_behind namesakes goes stay, List.append_assoc, List.singleton_append]
    have fewer : Done before (entry :: ([] ++ confRemove (seen ++ other :: rest) other.name)) := by
      apply done.fewer
      intro later member
      rcases List.mem_cons.mp member with rfl | behind
      · exact List.mem_cons_self
      · exact List.mem_cons_of_mem _ ((Chain.remove_sublist _ other.name).mem behind)
    have place := At.dup fewer given ordinary fun other absent => absurd absent List.not_mem_nil
    rw [List.nil_append, ← removed] at place
    obtain ⟨lower, kept, less⟩ := walk.removed listed goes place
    rw [removed] at kept
    exact ⟨_, lower, turn_shared distinct given same removed, kept, less⟩
  · have differ : Apart entry.conf other.conf := by
      intro given' has also
      exact same (also.trans (has.symm.trans given))
    have shape : seen ++ other :: rest = (seen ++ [other]) ++ rest := by
      rw [List.append_assoc, List.singleton_append]
    have farther : ∀ earlier ∈ seen ++ [other], Apart entry.conf earlier.conf := by
      intro earlier member
      rcases List.mem_append.mp member with front | last
      · exact apart earlier front
      · rw [List.mem_singleton.mp last]
        exact differ
    have turn := @turn_other before rest entry seen other
      (Chain.first Entry.address (seen ++ other :: rest)) distinct differ
    rw [shape] at done walk turn ⊢
    obtain ⟨lower, kept, less⟩ := walk.moved (At.dup done given ordinary farther)
      (Prod.Lex.right _ (Nat.lt_succ_self _))
    exact ⟨_, lower, turn, kept, less⟩

theorem Walk.turn {rank : Nat × Nat × Nat} {state : List Entry × BaseuriPoint}
    (walk : Walk file rank state) :
    (∃ next lower, baseuriTurn state = .again next ∧ Walk file lower next ∧
      WellFoundedRelation.rel lower rank) ∨
    (baseuriTurn state = .halt (owners file)) := by
  obtain ⟨list, point⟩ := state
  obtain ⟨length, kind⟩ := rank
  have place : At list point kind := walk.place
  cases place with
  | @app before rest done =>
      cases rest with
      | nil =>
          right
          have kept := walk.kept
          dsimp only at kept
          rw [List.append_nil] at kept ⊢
          rw [← kept, owners_of_done done]
          rfl
      | cons entry rest => exact .inl (walk.turn_at done)
  | @dup before seen rest entry uri done given ordinary apart =>
      left
      cases rest with
      | nil =>
          rw [List.append_nil] at walk done ⊢
          have shape : before ++ entry :: seen = (before ++ [entry]) ++ seen := by
            rw [List.append_assoc, List.singleton_append]
          have usual : entry.baseuri ≠ some adminUri := fun admin =>
            ordinary (Option.some.inj (given.symm.trans admin))
          have place := At.app (done.push usual apart)
          rw [← shape] at place
          obtain ⟨lower, kept, less⟩ := walk.moved place (Prod.Lex.left _ _ (Nat.lt_succ_self _))
          exact ⟨_, lower, rfl, kept, less⟩
      | cons other rest => exact walk.turn_dup done given ordinary apart

/-! ### Where names do harm -/

theorem baseuri_ends (distinct : (list.map Entry.address).Nodup) (namesakes : Namesakes list) :
    Loop.Ends baseuriTurn (baseuriStart list) (owners list) := by
  have begins : Walk list (list.length, 2 * list.length, 0) (baseuriStart list) :=
    ⟨distinct, namesakes, rfl, rfl, At.app .nil⟩
  obtain ⟨result, low, last, ends, walk, halted⟩ :=
    Loop.ends_of_rank (Walk list)
      (fun rank state walk => walk.turn.imp_right fun halts => ⟨_, halts⟩) begins
  rcases walk.turn with ⟨next, lower, again, -, -⟩ | halts
  · rw [halted] at again
    cases again
  · rw [halted] at halts
    rw [← Turn.halt.inj halts]
    exact ends

/-- A turn leaves the list as it is or removes an entry by name. -/
theorem turn_keeps {next : List Entry × BaseuriPoint}
    (took : baseuriTurn (list, point) = .again next) :
    next.1 = list ∨ ∃ label, next.1 = confRemove list label := by
  cases point with
  | app app =>
      cases app with
      | none => cases took
      | some app =>
          unfold baseuriTurn at took
          dsimp only at took
          split at took
          · cases took
          · split at took
            · cases took
              exact .inl rfl
            · split at took
              · cases took
                exact .inr ⟨_, rfl⟩
              · cases took
                exact .inl rfl
  | dup app following tmpApp =>
      cases tmpApp with
      | none =>
          cases took
          exact .inl rfl
      | some tmpApp =>
          unfold baseuriTurn at took
          dsimp only at took
          split at took
          · split at took
            · split at took
              · cases took
              · cases took
                exact .inr ⟨_, rfl⟩
            · cases took
              exact .inl rfl
          · cases took

theorem turn_halt {result : List Entry} (last : baseuriTurn (list, point) = .halt result) :
    result = list := by
  cases point with
  | app app =>
      cases app with
      | none => exact (Turn.halt.inj last).symm
      | some app =>
          unfold baseuriTurn at last
          dsimp only at last
          split at last
          · cases last
          · split at last
            · cases last
            · split at last
              · cases last
              · cases last
  | dup app following tmpApp =>
      cases tmpApp with
      | none => cases last
      | some tmpApp =>
          unfold baseuriTurn at last
          dsimp only at last
          split at last
          · split at last
            · split at last
              · cases last
              · cases last
            · cases last
          · cases last

/-- No turn takes an entry that is behind a namesake without that one. -/
theorem together_of_turn {state next : List Entry × BaseuriPoint} {other : Entry}
    (same : other.name = entry.name)
    (order : state.1.Pairwise fun first second => ¬ (first = entry ∧ second = other))
    (together : other ∈ state.1 → entry ∈ state.1) (took : baseuriTurn state = .again next) :
    (next.1.Pairwise fun first second => ¬ (first = entry ∧ second = other)) ∧
      (other ∈ next.1 → entry ∈ next.1) := by
  obtain ⟨now, point⟩ := state
  rcases turn_keeps took with kept | ⟨label, removed⟩
  · rw [kept]
    exact ⟨order, together⟩
  · rw [removed]
    refine ⟨order.sublist (Chain.remove_sublist now label), fun still => ?_⟩
    have there := together ((Chain.remove_sublist now label).mem still)
    by_cases named : entry.name = label
    · subst named
      obtain ⟨front, gone, back, split, -, others, left⟩ :=
        @Chain.remove_split Entry _ _ Entry.name now entry there
      rw [confRemove, left] at still ⊢
      dsimp only at there order
      rw [split] at there order
      rcases List.mem_append.mp still with inside | behind
      · exact absurd same (others other inside)
      · rcases List.mem_append.mp there with front | rest
        · exact absurd rfl (others entry front)
        · rcases List.mem_cons.mp rest with rfl | later
          · have pairs := (List.pairwise_append.mp order).2.1
            exact absurd ⟨rfl, rfl⟩ ((List.pairwise_cons.mp pairs).1 other behind)
          · exact List.mem_append_right _ later
    · exact (List.mem_eraseP_of_neg (by simpa using named)).mpr there

/-- The walk leaves what it should only if no application that goes has the name of an earlier one
that is to stay: a removal would take that one first. -/
theorem namesakes_of_ends (ends : Loop.Ends baseuriTurn (baseuriStart list) (owners list))
    (distinct : (list.map Entry.address).Nodup) : Namesakes list := by
  intro before entry after cut goes other earlier same stays
  have once : list.Nodup := List.Nodup.of_map _ distinct
  rw [cut, List.nodup_append] at once
  have order : list.Pairwise fun first second => ¬ (first = entry ∧ second = other) := by
    rw [cut]
    refine List.pairwise_append.mpr ⟨?_, ?_, ?_⟩
    · refine List.pairwise_of_forall_mem_list fun first member _ _ both => ?_
      exact once.2.2 first member entry List.mem_cons_self both.1
    · refine List.pairwise_of_forall_mem_list fun _ _ second member both => ?_
      exact once.2.2 other earlier second member both.2.symm
    · intro first member second _ both
      exact once.2.2 first member entry List.mem_cons_self both.1
  have listed : entry ∈ list := cut ▸ List.mem_append_right _ List.mem_cons_self
  -- while the earlier one is in the list the later one is, and behind it
  obtain ⟨⟨left, point⟩, ⟨-, together⟩, halted⟩ := ends.invariant
    (fun state => (state.1.Pairwise fun first second => ¬ (first = entry ∧ second = other)) ∧
      (other ∈ state.1 → entry ∈ state.1))
    ⟨order, fun _ => listed⟩
    (fun state next kept took => together_of_turn same kept.1 kept.2 took)
  have result := turn_halt halted
  have both := together (result ▸ List.mem_filter.mpr
    ⟨cut ▸ List.mem_append_left _ earlier, decide_eq_true stays⟩)
  dsimp only at both
  rw [← result] at both
  exact goes (of_decide_eq_true (List.mem_filter.mp both).2)

/-- The walk over the applications of the configuration file, no two of which are at one address:
it ends with each base URI at its first owner exactly when no application that goes has an earlier
namesake that is to stay. -/
theorem baseuri_walk_iff (distinct : (list.map Entry.address).Nodup) :
    Loop.Ends baseuriTurn (baseuriStart list) (owners list) ↔ Namesakes list :=
  ⟨fun ends => namesakes_of_ends ends distinct, baseuri_ends distinct⟩

end Configurator
