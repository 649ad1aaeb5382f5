import Webroar.App.Watch

/-! # The order of the pending workers

Pending workers are to be found by their process id, and to stay in the order in which they were
forked, so that the one at the front of the queue is the oldest. The search turns the queue, and
leaves it as it is when it has found its worker; and a worker object has room for sixteen bits of a
process id.
-/

namespace Watch

variable (fork : Nat → Int)

/-- The process ids that forking has returned so far. -/
def pids (forks : Nat) : List Int := ((List.range forks).map fork).filter (0 < ·)

/-- The pending workers are in the order in which they were forked. -/
def Ordered (watch : Watch) : Prop := watch.pending.Sublist (pids fork watch.forks)

end Watch

namespace App

variable (config : Config) (fork : Nat → Int)

/-- The worker with this process id is not pending any more, and every other one still is. -/
def Takes (app after : App) (pid : Int) : Prop :=
  (pid ∈ app.pending → pid ∉ after.pending) ∧
    ∀ other ∈ app.pending, other ≠ pid → other ∈ after.pending

/-- A worker that announces itself, or an error, is found if it is pending. -/
def Finds (event : Event) (app : App) : Prop :=
  app.state ≠ .destroy →
    match event with
    | .connect pid _ => app.Takes (app.step config fork event) pid
    | .wkrError pid =>
        (app.step config fork event).state = .destroy ∨ app.Takes (app.step config fork event) pid
    | _ => True

/-- If the worker is pending it is the first or the last in the queue. -/
def Outermost (app : App) (pid : Int) : Prop :=
  ∀ before rest, app.pending = before ++ pid :: rest → before = [] ∨ rest = []

/-- What it takes to find a worker and to keep the others in order: a pending worker that announces
itself is looked up under its own process id, and one that is not pending not under that of
another; no error is announced by a pending worker while a reload waits; and the worker is the
first or the last in the queue. -/
def Plain (event : Event) (app : App) : Prop :=
  app.state ≠ .destroy →
    match event with
    | .connect pid connection =>
        ((pid : Int) ∈ app.pending → connection.uds = true ∧ app.Open ∧ pid < 65536) ∧
        ((pid : Int) ∉ app.pending →
          ¬ (connection.uds = true ∧ app.Open ∧ ((pid % 65536 : Nat) : Int) ∈ app.pending)) ∧
        app.Outermost pid
    | .wkrError pid =>
        app.state ≠ .new →
          (app.state = .restart → pid ∉ app.pending) ∧ (app.state ≠ .restart → app.Outermost pid)
    | _ => True

end App

namespace Watch

variable {config : Config} {fork : Nat → Int} {watch after : Watch}

/-- Different calls of fork return different process ids. -/
def Distinct (fork : Nat → Int) : Prop :=
  ∀ first second, 0 < fork first → fork first = fork second → first = second

theorem pids_succ_pos {forks : Nat} (succeeds : 0 < fork forks) :
    pids fork (forks + 1) = pids fork forks ++ [fork forks] := by
  unfold pids
  rw [List.range_succ, List.map_append, List.filter_append, List.map_singleton,
    List.filter_singleton, decide_eq_true succeeds]
  rfl

theorem pids_succ_nonpos {forks : Nat} (fails : fork forks ≤ 0) :
    pids fork (forks + 1) = pids fork forks := by
  unfold pids
  rw [List.range_succ, List.map_append, List.filter_append, List.map_singleton,
    List.filter_singleton, decide_eq_false (Int.not_lt.mpr fails)]
  exact List.append_nil _

theorem mem_pids {forks : Nat} {pid : Int} (member : pid ∈ pids fork forks) :
    0 < pid ∧ ∃ number < forks, fork number = pid := by
  obtain ⟨listed, positive⟩ := List.mem_filter.mp member
  obtain ⟨number, less, same⟩ := List.mem_map.mp listed
  exact ⟨of_decide_eq_true positive, number, List.mem_range.mp less, same⟩

theorem nodup_pids (distinct : Distinct fork) (forks : Nat) : (pids fork forks).Nodup := by
  induction forks with
  | zero => exact List.nodup_nil
  | succ forks ih =>
      rcases lt_or_ge 0 (fork forks) with succeeds | fails
      · rw [pids_succ_pos succeeds]
        refine List.nodup_append.mpr ⟨ih, List.nodup_singleton _, ?_⟩
        intro pid member other single same
        cases List.mem_singleton.mp single
        obtain ⟨-, number, less, forked⟩ := mem_pids member
        have twice := distinct forks number succeeds (same.symm.trans forked.symm)
        omega
      · rw [pids_succ_nonpos fails]
        exact ih

/-- Two elements of a list without repetitions come in one order only. -/
theorem not_swapped {α : Type} {list : List α} {first second : α} (nodup : list.Nodup)
    (forth : [first, second].Sublist list) (back : [second, first].Sublist list) : False := by
  induction list with
  | nil => exact nomatch forth
  | cons head tail ih =>
      obtain ⟨fresh, rest⟩ := List.nodup_cons.mp nodup
      cases forth with
      | cons _ forth =>
          cases back with
          | cons _ back => exact ih rest forth back
          | cons_cons _ back =>
              exact fresh (forth.subset (List.mem_cons_of_mem _ List.mem_cons_self))
      | cons_cons _ forth =>
          cases back with
          | cons _ back => exact fresh (back.subset (List.mem_cons_of_mem _ List.mem_cons_self))
          | cons_cons _ back => exact fresh (forth.subset List.mem_cons_self)

/-! ### What keeps the order -/

theorem Ordered.forks (ordered : watch.Ordered fork) (forks : watch.Forks config fork after) :
    after.Ordered fork := by
  induction forks with
  | none => exact ordered
  | failed earlier fails ih =>
      unfold Ordered Watch.fail
      rw [pids_succ_nonpos fails]
      exact ih
  | forked earlier trials room succeeds ih =>
      unfold Ordered Watch.grow
      rw [pids_succ_pos succeeds]
      exact ih.append (List.Sublist.refl _)

/-- Workers leave the queue, and the others stay in it. -/
theorem Ordered.fewer (ordered : watch.Ordered fork)
    (fewer : after.pending.Sublist watch.pending) (forks : after.forks = watch.forks) :
    after.Ordered fork := by
  unfold Ordered
  rw [forks]
  exact fewer.trans ordered

theorem expire_fewer : (watch.expire config).pending.Sublist watch.pending ∧
    (watch.expire config).forks = watch.forks := by
  unfold expire
  split
  · exact ⟨List.nil_sublist _, rfl⟩
  · exact ⟨List.tail_sublist _, rfl⟩

theorem Forks.earlier (forks : watch.Forks config fork after) :
    (pids fork watch.forks).Sublist (pids fork after.forks) := by
  induction forks with
  | none => exact List.Sublist.refl _
  | failed earlier fails ih =>
      unfold Watch.fail
      rw [pids_succ_nonpos fails]
      exact ih
  | forked earlier trials room succeeds ih =>
      unfold Watch.grow
      rw [pids_succ_pos succeeds]
      exact ih.trans (List.sublist_append_left _ _)

/-- The pids of workers that are forked later are new. -/
theorem Forks.fresh (forks : watch.Forks config fork after) (distinct : Distinct fork)
    {pid : Int} (old : pid ∈ pids fork watch.forks) :
    pid ∈ after.pending ↔ pid ∈ watch.pending := by
  obtain ⟨positive, number, less, same⟩ := mem_pids old
  have later : watch.forks ≤ after.forks ∧ (pid ∈ after.pending ↔ pid ∈ watch.pending) := by
    induction forks with
    | none => exact ⟨Nat.le_refl _, Iff.rfl⟩
    | failed earlier fails ih => exact ⟨Nat.le_succ_of_le ih.1, ih.2⟩
    | forked earlier trials room succeeds ih =>
        refine ⟨Nat.le_succ_of_le ih.1, ?_⟩
        unfold Watch.grow
        rw [List.mem_append, List.mem_singleton, ih.2]
        refine or_iff_left fun new => ?_
        rw [← same] at positive new
        have twice := distinct number _ positive new
        omega
  exact later.2

end Watch

namespace App

variable {config : Config} {fork : Nat → Int} {app after : App}

/-- A worker is taken out of the queue, and those behind it come before the others. -/
theorem found_fewer {pid : Int} {before rest : List Int}
    (split : app.pending = before ++ pid :: rest) (outermost : app.Outermost pid) :
    (rest ++ before).Sublist app.pending := by
  rw [split]
  rcases outermost before rest split with none | none
  · rw [none, List.append_nil, List.nil_append]
    exact List.sublist_cons_self _ _
  · rw [none, List.nil_append]
    exact List.sublist_append_left _ _

theorem Plain.low {pid : Nat} {connection : Connection}
    (plain : app.Plain (.connect pid connection)) (live : app.state ≠ .destroy)
    (looks : connection.uds = true ∧ app.Open)
    (present : ((pid % 65536 : Nat) : Int) ∈ app.pending) :
    pid % 65536 = pid ∧ app.Outermost pid := by
  obtain ⟨own, other, outermost⟩ := plain live
  refine ⟨?_, outermost⟩
  by_cases pending : (pid : Int) ∈ app.pending
  · exact Nat.mod_eq_of_lt (own pending).2.2
  · exact absurd ⟨looks.1, looks.2, present⟩ (other pending)

theorem step_ordered (room : app.pending.length ≤ config.pending) {event : Event}
    (plain : app.Plain event) (ordered : app.watch.Ordered fork) :
    (app.step config fork event).watch.Ordered fork := by
  by_cases gone : app.state = .destroy
  · unfold step
    rwa [if_pos gone]
  · rcases @step_effect config fork app gone room event with ends | effect
    · exact ordered.fewer ends.2.1 ends.2.2
    · generalize (app.step config fork event).watch = after at effect
      cases event with
      | connect pid connection =>
          rcases effect with ⟨-, same⟩ | ⟨looks, before, rest, split, forks⟩
          · rw [same]
            exact ordered
          · have present : ((pid % 65536 : Nat) : Int) ∈ app.pending := by
              rw [split]
              exact List.mem_append_right _ List.mem_cons_self
            obtain ⟨own, outermost⟩ := plain.low gone looks present
            rw [own] at split
            have fewer : (app.watch.heard config (rest ++ before)).Ordered fork :=
              ordered.fewer (found_fewer split outermost) rfl
            exact fewer.forks forks
      | wkrError pid =>
          rcases effect with ⟨-, same⟩ | ⟨⟨restart, new⟩, ⟨-, same⟩ | ⟨before, rest, split, same⟩⟩
          · rw [same]
            exact ordered
          · rw [same]
            exact ordered
          · rw [same]
            exact ordered.fewer (found_fewer split ((plain gone new).2 restart)) rfl
      | reload ctl read =>
          cases read with
          | none => exact ordered.forks effect
          | some new =>
              have cleared : ({ app.watch with pending := [], counter := 0 } : Watch).Ordered
                  fork := ordered.fewer (List.nil_sublist _) rfl
              exact cleared.forks effect
      | addTimeout =>
          have expired := ordered.fewer (@Watch.expire_fewer config app.watch).1
            Watch.expire_fewer.2
          rcases effect with ⟨-, same⟩ | ⟨-, ⟨-, same⟩ | ⟨-, same | forks⟩⟩
          · rw [same]
            exact ordered
          · rw [same]
            exact ordered
          · rw [same]
            exact expired
          · exact expired.forks forks
      | _ => exact ordered.forks effect

/-- Where a worker is cut out of the queue, and others may be forked, just that one is gone. -/
theorem takes_of_split (distinct : Watch.Distinct fork) (ordered : app.watch.Ordered fork)
    {pid : Int} {before rest : List Int} (split : app.pending = before ++ pid :: rest)
    (forks : (app.watch.heard config (rest ++ before)).Forks config fork after.watch) :
    app.Takes after pid := by
  have old : ∀ other ∈ app.pending, other ∈ Watch.pids fork app.forks :=
    fun other member => ordered.subset member
  have kept : ∀ other ∈ app.pending, other ∈ after.pending ↔ other ∈ rest ++ before :=
    fun other member => forks.fresh distinct (old other member)
  have nodup : app.pending.Nodup := (Watch.nodup_pids distinct app.forks).sublist ordered
  constructor
  · intro present
    rw [kept pid present, List.mem_append]
    rw [split] at nodup
    have apart := List.nodup_append.mp nodup
    rintro (behind | ahead)
    · exact (List.nodup_cons.mp apart.2.1).1 behind
    · exact apart.2.2 pid ahead pid List.mem_cons_self rfl
  · intro other member differs
    rw [kept other member, List.mem_append]
    rw [split] at member
    rcases List.mem_append.mp member with ahead | behind
    · exact .inr ahead
    · exact .inl ((List.mem_cons.mp behind).resolve_left differs)

theorem step_finds (room : app.pending.length ≤ config.pending) (distinct : Watch.Distinct fork)
    {event : Event} (plain : app.Plain event) (ordered : app.watch.Ordered fork) :
    app.Finds config fork event := by
  intro live
  cases event with
  | connect pid connection =>
      have same : app.step config fork (.connect pid connection) =
          (app.connect config fork pid connection).1 := if_neg live
      dsimp only
      rw [same]
      rcases @connect_effect config fork app room pid connection with
        ⟨refused, kept⟩ | ⟨looks, before, rest, split, forks⟩
      · have unchanged : (app.connect config fork pid connection).1.pending = app.pending :=
          congrArg Watch.pending kept
        have absent : (pid : Int) ∉ app.pending := by
          intro present
          obtain ⟨uds, opened, fits⟩ := (plain live).1 present
          rw [Nat.mod_eq_of_lt fits] at refused
          exact refused ⟨uds, opened, present⟩
        refine ⟨fun present => absurd present absent, fun other member _ => ?_⟩
        rw [unchanged]
        exact member
      · have present : ((pid % 65536 : Nat) : Int) ∈ app.pending := by
          rw [split]
          exact List.mem_append_right _ List.mem_cons_self
        obtain ⟨own, -⟩ := plain.low live looks present
        rw [own] at split
        exact takes_of_split distinct ordered split forks
  | wkrError pid =>
      have same : app.step config fork (.wkrError pid) = app.wkrError config pid := if_neg live
      dsimp only
      rw [same]
      rcases @wkrError_effect config fork app room pid with ends | effect
      · exact .inl ends.1
      · right
        rcases effect with ⟨restart, kept⟩ |
          ⟨⟨restart, new⟩, ⟨absent, kept⟩ | ⟨before, rest, split, kept⟩⟩
        · have unchanged : (app.wkrError config pid).pending = app.pending :=
            congrArg Watch.pending kept
          have new : app.state ≠ .new := fun new => nomatch restart.symm.trans new
          refine ⟨fun present => absurd present ((plain live new).1 restart), ?_⟩
          intro other member _
          rw [unchanged]
          exact member
        · have unchanged : (app.wkrError config pid).pending = app.pending :=
            congrArg Watch.pending kept
          refine ⟨fun present => absurd present absent, fun other member _ => ?_⟩
          rw [unchanged]
          exact member
        · refine @takes_of_split config fork app _ distinct ordered _ _ _ split ?_
          rw [kept]
          exact .none
  | _ => trivial

/-- Where the others are still in order, the worker was the first or the last. -/
theorem outermost_of_ordered (distinct : Watch.Distinct fork) (ordered : app.watch.Ordered fork)
    {pid : Int} {before rest : List Int} (split : app.pending = before ++ pid :: rest)
    (forks : (app.watch.heard config (rest ++ before)).Forks config fork after.watch)
    (still : after.watch.Ordered fork) : app.Outermost pid := by
  intro ahead behind same
  have nodup : app.pending.Nodup := (Watch.nodup_pids distinct app.forks).sublist ordered
  obtain ⟨new, grown⟩ := forks.pending
  have once : pid ∉ before ∧ pid ∉ rest := by
    rw [split] at nodup
    have apart := List.nodup_append.mp nodup
    refine ⟨fun member => ?_, (List.nodup_cons.mp apart.2.1).1⟩
    exact apart.2.2 pid member pid List.mem_cons_self rfl
  have cut := (List.append_cons_inj_of_notMem once.1 once.2).mp (split.symm.trans same)
  obtain ⟨rfl, -, rfl⟩ := cut
  cases before with
  | nil => exact .inl rfl
  | cons first before =>
      cases rest with
      | nil => exact .inr rfl
      | cons last rest =>
          -- Both were forked in one order, and stand in the queue in the other.
          have forth : [first, last].Sublist (Watch.pids fork after.forks) := by
            refine .trans ?_ (ordered.trans forks.earlier)
            change [first, last].Sublist app.pending
            rw [split, List.cons_append]
            apply List.Sublist.cons_cons
            apply List.singleton_sublist.mpr
            exact List.mem_append_right _ (List.mem_cons_of_mem _ List.mem_cons_self)
          have back : [last, first].Sublist (Watch.pids fork after.forks) := by
            refine .trans ?_ still
            rw [grown]
            change [last, first].Sublist (last :: rest ++ first :: before ++ new)
            rw [List.cons_append, List.cons_append]
            apply List.Sublist.cons_cons
            apply List.singleton_sublist.mpr
            exact List.mem_append_left _ (List.mem_append_right _ List.mem_cons_self)
          exact (Watch.not_swapped (Watch.nodup_pids distinct _) forth back).elim

/-- A step that finds the worker and keeps the order was a plain one. -/
theorem step_plain (room : app.pending.length ≤ config.pending) (distinct : Watch.Distinct fork)
    {event : Event} (ordered : app.watch.Ordered fork)
    (still : (app.step config fork event).watch.Ordered fork)
    (finds : app.Finds config fork event) : app.Plain event := by
  intro live
  have finds := finds live
  cases event with
  | connect pid connection =>
      have same : app.step config fork (.connect pid connection) =
          (app.connect config fork pid connection).1 := if_neg live
      dsimp only at finds
      rw [same] at finds still
      rcases @connect_effect config fork app room pid connection with
        ⟨refused, kept⟩ | ⟨looks, before, rest, split, forks⟩
      · have unchanged : (app.connect config fork pid connection).1.pending = app.pending :=
          congrArg Watch.pending kept
        have absent : (pid : Int) ∉ app.pending := by
          intro present
          have gone := finds.1 present
          rw [unchanged] at gone
          exact gone present
        refine ⟨fun present => absurd present absent, fun _ => refused, ?_⟩
        intro before rest split
        rw [split] at absent
        exact absurd (List.mem_append_right _ List.mem_cons_self) absent
      · have present : ((pid % 65536 : Nat) : Int) ∈ app.pending := by
          rw [split]
          exact List.mem_append_right _ List.mem_cons_self
        have takes := takes_of_split distinct ordered split forks
        have own : ((pid % 65536 : Nat) : Int) = pid := by
          by_contra differs
          exact takes.1 present (finds.2 _ present differs)
        have fits : pid < 65536 := by omega
        rw [own] at split present
        exact ⟨fun _ => ⟨looks.1, looks.2, fits⟩, fun absent => absurd present absent,
          outermost_of_ordered distinct ordered split forks still⟩
  | wkrError pid =>
      intro new
      have same : app.step config fork (.wkrError pid) = app.wkrError config pid := if_neg live
      dsimp only at finds
      rw [same] at finds still
      have stays : (app.wkrError config pid).state ≠ .destroy := by
        unfold wkrError
        split
        · exact nofun
        · next state => exact absurd state new
        · exact live
      have finds := finds.resolve_left stays
      have unfound : (app.wkrError config pid).pending = app.pending → pid ∉ app.pending := by
        intro unchanged present
        have gone := finds.1 present
        rw [unchanged] at gone
        exact gone present
      rcases @wkrError_effect config fork app room pid with ends | effect
      · exact absurd ends.1 stays
      · rcases effect with ⟨restart, kept⟩ |
          ⟨⟨restart, -⟩, ⟨absent, -⟩ | ⟨before, rest, split, kept⟩⟩
        · exact ⟨fun _ => unfound (congrArg Watch.pending kept),
            fun other => absurd restart other⟩
        · refine ⟨fun _ => absent, fun _ before rest split => ?_⟩
          rw [split] at absent
          exact absurd (List.mem_append_right _ List.mem_cons_self) absent
        · refine ⟨fun other => absurd other restart, fun _ => ?_⟩
          refine @outermost_of_ordered config fork app _ distinct ordered _ _ _ split ?_ still
          rw [kept]
          exact .none
  | _ => trivial

/-! ### Runs -/

/-- In every state of the run the pending workers are in the order in which they were forked, and
a pending worker that announces itself or an error is found, and no other. -/
def InForkOrder (config : Config) (fork : Nat → Int) (conf : Conf) (ctl : Option Nat)
    (input : Nat → Event) : Prop :=
  ∀ count,
    (Machine.after (step config fork) input (insert config fork conf ctl) count).watch.Ordered
        fork ∧
      (Machine.after (step config fork) input (insert config fork conf ctl) count).Finds config
        fork (input count)

theorem in_fork_order_iff (config : Config) (fork : Nat → Int) (distinct : Watch.Distinct fork)
    (conf : Conf) (ctl : Option Nat) (input : Nat → Event) :
    InForkOrder config fork conf ctl input ↔
      ∀ count, (Machine.after (step config fork) input (insert config fork conf ctl) count).Plain
        (input count) := by
  have steady : ∀ count,
      (Machine.after (step config fork) input (insert config fork conf ctl) count).Steady
        config := by
    intro count
    induction count with
    | zero => exact .insert conf ctl
    | succ count ih => exact ih.step (input count)
  constructor
  · intro order count
    exact step_plain (steady count).room distinct (order count).1 (order (count + 1)).1
      (order count).2
  · intro plain
    have ordered : ∀ count, (Machine.after (step config fork) input (insert config fork conf ctl)
        count).watch.Ordered fork := by
      intro count
      induction count with
      | zero =>
          have created : (created config conf ctl).watch.Ordered fork := List.nil_sublist _
          exact created.forks balance_watch
      | succ count ih => exact step_ordered (steady count).room (plain count) ih
    intro count
    exact ⟨ordered count, step_finds (steady count).room distinct (plain count) (ordered count)⟩

theorem distinct_from (least : Int) : Watch.Distinct fun count => least + count := by
  intro first second _ same
  dsimp only at same
  omega

/-- The oldest pending worker registers. -/
theorem plain_oldest {pid : Nat} {connection : Connection} {rest : List Int}
    (pending : app.pending = (pid : Int) :: rest) (once : (pid : Int) ∉ rest)
    (uds : connection.uds = true) (opened : app.Open) (fits : pid < 65536) :
    app.Plain (.connect pid connection) := by
  have present : (pid : Int) ∈ app.pending := by
    rw [pending]
    exact List.mem_cons_self
  intro _
  refine ⟨fun _ => ⟨uds, opened, fits⟩, fun absent => absurd present absent, ?_⟩
  intro before behind split
  left
  cases before with
  | nil => rfl
  | cons first before =>
      have same := pending.symm.trans split
      rw [List.cons_append] at same
      have tail := (List.cons.inj same).2
      rw [tail] at once
      exact absurd (List.mem_append_right _ List.mem_cons_self) once

/-- Two of three workers register in the order in which they were forked. -/
def orderedInput : Nat → Event
  | 0 => .connect 100 ⟨true, true, true⟩
  | 1 => .connect 101 ⟨true, true, true⟩
  | _ => .part 0

/-- An application of three workers. -/
def threeConf : Conf := ⟨3, 3, ⟨⟨[], noNul_nil⟩, none, []⟩⟩

theorem in_fork_order_sample :
    InForkOrder Config.init (fun count => 100 + count) threeConf none orderedInput := by
  refine (in_fork_order_iff Config.init _ (distinct_from 100) threeConf none orderedInput).mpr ?_
  intro count
  match count with
  | 0 =>
      refine @plain_oldest _ 100 _ [101, 102] ?_ ?_ ?_ ?_ ?_
      · decide +kernel
      · decide
      · rfl
      · exact .inl (by decide +kernel)
      · decide
  | 1 =>
      refine @plain_oldest _ 101 _ [102] ?_ ?_ ?_ ?_ ?_
      · decide +kernel
      · decide
      · rfl
      · exact .inl (by decide +kernel)
      · decide
  | _ + 2 => exact fun _ => trivial

/-- The second of three pending workers registers first. -/
def earlyInput : Nat → Event
  | 0 => .connect 101 ⟨true, true, true⟩
  | _ => .part 0

theorem not_in_fork_order :
    ¬ InForkOrder Config.init (fun count => 100 + count) threeConf none earlyInput := by
  intro order
  have first : (Machine.after (step Config.init fun count => 100 + count) earlyInput
      (insert Config.init (fun count => 100 + count) threeConf none) 1).watch.pending =
        [102, 100] := by decide +kernel
  have pids : Watch.pids (fun count => 100 + count) 3 = [100, 101, 102] := by decide +kernel
  have forks : (Machine.after (step Config.init fun count => 100 + count) earlyInput
      (insert Config.init (fun count => 100 + count) threeConf none) 1).watch.forks = 3 := by
    decide +kernel
  have ordered := (order 1).1
  unfold Watch.Ordered at ordered
  rw [first, forks, pids] at ordered
  exact absurd ordered (by decide)

end App
