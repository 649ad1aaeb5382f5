import Webroar.App.Reload

/-! # Runs with reloads

Does a reload end with an application that is ACTIVE, and is it only the worker forked for it that
decides how it ends? The first question is about what happened since the reload was committed, the
second about the process id of the worker that was forked.
-/

namespace App

variable (config : Config) (fork : Nat → Int)

/-! ### The worker of a reload -/

/-- An application together with the process id of the worker forked for the last reload. -/
structure Traced where
  app : App
  started : Option Int

/-- The worker forked for a reload, if one can be forked. -/
def forkedFor (app : App) : Option Int :=
  if 0 < config.pending ∧ 0 < config.addTrials ∧ 0 < fork app.forks then some (fork app.forks)
  else none

def Traced.step (event : Event) (traced : Traced) : Traced where
  app := traced.app.step config fork event
  started :=
    match event with
    | .reload _ (some _) =>
        if traced.app.state = .destroy then traced.started else traced.app.forkedFor config fork
    | _ => traced.started

/-- The event is one of the worker forked for the reload, or it removes the application or reloads
it anew. -/
def Traced.Own (traced : Traced) (event : Event) : Prop :=
  match event with
  | .remove _ | .reload _ _ => True
  | .connect pid _ => traced.started = some ((pid % 65536 : Nat) : Int)
  | .wkrError pid => traced.started = some pid
  | .addTimeout => traced.started.isSome = true
  | _ => False

/-- The next callback respects a reload: it has its configuration exactly while it waits, keeps it,
and is ended by nobody else. -/
structure Traced.Isolated (traced : Traced) (event : Event) : Prop where
  marked : traced.app.state ≠ .destroy →
    (traced.app.new.isSome = true ↔ traced.app.state = .restart)
  own : traced.app.state = .restart → (traced.app.step config fork event).state ≠ .restart →
    traced.Own event
  kept : traced.app.state = .restart → (traced.app.step config fork event).state = .restart →
    (∀ ctl newer, event ≠ .reload ctl (some newer)) →
      (traced.app.step config fork event).new = traced.app.new

/-- While a reload waits, no worker is accepted and no ERROR message comes but those of the worker
forked for it, the timeout comes only if one was forked, and no worker hangs up that the
application can spare. -/
def Traced.Undisturbed (traced : Traced) (event : Event) : Prop :=
  traced.app.state = .restart →
    match event with
    | .connect pid connection =>
        traced.app.Accepts pid connection →
          traced.started = some ((pid % 65536 : Nat) : Int)
    | .wkrError pid => traced.started = some pid
    | .addTimeout => traced.app.TimesOut config → traced.started.isSome = true
    | .timeout worker => ¬ traced.app.HangsUp config worker
    | _ => True

variable {config fork} {app : App}

/-- The condition asks of every event that ends the wait that it is one of the own ones. -/
theorem Traced.undisturbed_iff {traced : Traced} {event : Event} :
    traced.Undisturbed config event ↔
      (traced.app.state = .restart → traced.app.Leaves config event → traced.Own event) := by
  unfold Undisturbed Leaves Own
  cases event with
  | wkrError pid => exact ⟨fun own state _ => own state, fun own state => own state trivial⟩
  | remove ctl => exact ⟨fun _ _ _ => trivial, fun _ _ => trivial⟩
  | connect pid connection | addTimeout | timeout worker => exact Iff.rfl
  | reload ctl read => exact ⟨fun _ _ _ => trivial, fun _ _ => trivial⟩
  | _ => exact ⟨fun _ _ wrong => wrong, fun _ _ => trivial⟩

theorem Traced.isolated_iff {traced : Traced} (steady : traced.app.Steady config)
    (marked : traced.app.Marked) (event : Event) :
    traced.Isolated config fork event ↔ traced.Undisturbed config event := by
  rw [undisturbed_iff]
  constructor
  · intro isolated state leaves
    have live : traced.app.state ≠ .destroy := by
      rw [state]
      exact nofun
    obtain ⟨new, renewed⟩ := Option.isSome_iff_exists.mp ((marked live).mpr state)
    apply isolated.own state
    rcases @step_leaves config fork traced.app steady new state renewed event leaves with
      ⟨gone, -⟩ | ⟨mode, -⟩ | mode
    · rw [gone]
      exact nofun
    · exact fun wrong => nomatch (congrArg Prod.fst mode).symm.trans wrong
    · exact fun wrong => nomatch (congrArg Prod.fst mode).symm.trans wrong
  · intro own
    refine ⟨marked, ?_, ?_⟩
    · intro state left
      by_cases leaves : traced.app.Leaves config event
      · exact own state leaves
      · exact absurd (@step_remains config fork traced.app steady state event leaves).1 left
    · intro state stays same
      by_cases leaves : traced.app.Leaves config event
      · have live : traced.app.state ≠ .destroy := by
          rw [state]
          exact nofun
        obtain ⟨new, renewed⟩ := Option.isSome_iff_exists.mp ((marked live).mpr state)
        rcases @step_leaves config fork traced.app steady new state renewed event leaves with
          ⟨gone, -⟩ | ⟨mode, -⟩ | mode
        · exact nomatch gone.symm.trans stays
        · exact nomatch (congrArg Prod.fst mode).symm.trans stays
        · exact nomatch (congrArg Prod.fst mode).symm.trans stays
      · rcases (@step_remains config fork traced.app steady state event leaves).2 with
          mode | ⟨ctl, newer, named, -⟩
        · exact congrArg Prod.snd mode
        · exact absurd named (same ctl newer)

theorem traced_app (fork : Nat → Int) (conf : Conf) (ctl : Option Nat) (input : Nat → Event)
    (count : Nat) :
    (Machine.after (Traced.step config fork) input ⟨App.insert config fork conf ctl, none⟩
      count).app = Machine.after (App.step config fork) input (App.insert config fork conf ctl)
        count := by
  induction count with
  | zero => rfl
  | succ count ih => exact congrArg (App.step config fork (input count)) ih

/-- In every run, a callback respects a reload exactly when it does not disturb it: the worker forked
for the reload is the only one to register, to send an ERROR message or to time out, and no worker
hangs up that the application can spare. -/
theorem reload_isolated (config : Config) (fork : Nat → Int) (conf : Conf) (ctl : Option Nat)
    (input : Nat → Event) (count : Nat) :
    (Machine.after (Traced.step config fork) input ⟨App.insert config fork conf ctl, none⟩
        count).Isolated config fork (input count) ↔
      (Machine.after (Traced.step config fork) input ⟨App.insert config fork conf ctl, none⟩
        count).Undisturbed config (input count) := by
  have same := @traced_app config fork conf ctl input count
  apply Traced.isolated_iff
  · rw [same]
    exact steady_after fork conf ctl input count
  · rw [same]
    exact marked_after fork conf ctl input count

/-- A worker registers, the application is reloaded, and some worker reports an error. -/
def strayInput : Nat → Event
  | 0 => .connect 100 ⟨true, true, true⟩
  | 1 => .reload 7 (some ⟨1, 2, ⟨⟨[], noNul_nil⟩, none, []⟩⟩)
  | _ => .wkrError 999

theorem reload_disturbed :
    ¬ (Machine.after (Traced.step Config.init fun count => 100 + count) strayInput
      ⟨App.insert Config.init (fun count => 100 + count)
        ⟨1, 2, ⟨⟨[], List.not_mem_nil⟩, none, []⟩⟩ none, none⟩ 2).Isolated Config.init
          (fun count => 100 + count) (strayInput 2) := by
  intro isolated
  have own := isolated.own (by decide +kernel) (by decide +kernel)
  exact absurd own (by decide +kernel :
    ¬ (Machine.after (Traced.step Config.init fun count => 100 + count) strayInput
      ⟨App.insert Config.init (fun count => 100 + count)
        ⟨1, 2, ⟨⟨[], List.not_mem_nil⟩, none, []⟩⟩ none, none⟩ 2).started = some 999)

/-! ### The end of a reload -/

/-- A registration takes over the new configuration. -/
def Commits (event : Event) (app : App) : Prop :=
  app.state = .restart ∧ ∃ pid connection, event = .connect pid connection ∧
    app.Accepts pid connection

/-- The application is reloaded anew or removed. -/
def Renews (event : Event) : Prop :=
  (∃ ctl new, event = .reload ctl (some new)) ∨ ∃ ctl, event = .remove ctl

/-- A reload of a live application is still without its worker. -/
def Awaited (run : Nat → App) (input : Nat → Event) (count : Nat) : Prop :=
  ∃ first < count, (∃ ctl new, input first = .reload ctl (some new)) ∧
    (run first).state ≠ .destroy ∧
      ∀ later, first < later → later < count → ¬ Commits (input later) (run later)

/-- A reload was committed, and the application was not reloaded or removed since. -/
def Committed (run : Nat → App) (input : Nat → Event) (count : Nat) : Prop :=
  ∃ first < count, Commits (input first) (run first) ∧
    ∀ later, first < later → later < count → ¬ Renews (input later)

/-- The application is in RESTART or RESTARTING only while a reload is unfinished: its worker has not
registered, or there are fewer workers than are configured. -/
def EndsInService (run : Nat → App) (input : Nat → Event) (count : Nat) : Prop :=
  (run count).state = .restart ∨ (run count).state = .restarting →
    Awaited run input count ∨ (run count).total < (run count).conf.minWorker

section Run

variable {run : Nat → App} {input : Nat → Event}

theorem Awaited.later {count : Nat} (awaited : Awaited run input count)
    (stays : ¬ Commits (input count) (run count)) : Awaited run input (count + 1) := by
  obtain ⟨first, before, reload, live, none⟩ := awaited
  refine ⟨first, Nat.lt_succ_of_lt before, reload, live, ?_⟩
  intro later after less
  rcases Nat.lt_succ_iff_lt_or_eq.mp less with earlier | same
  · exact none later after earlier
  · rw [same]
    exact stays

theorem Committed.later {count : Nat} (committed : Committed run input count)
    (stays : ¬ Renews (input count)) : Committed run input (count + 1) := by
  obtain ⟨first, before, commits, none⟩ := committed
  refine ⟨first, Nat.lt_succ_of_lt before, commits, ?_⟩
  intro later after less
  rcases Nat.lt_succ_iff_lt_or_eq.mp less with earlier | same
  · exact none later after earlier
  · rw [same]
    exact stays

/-- Once a reload was committed, the one before is not awaited. -/
theorem Committed.not_awaited {count : Nat} (committed : Committed run input count) :
    ¬ Awaited run input count := by
  rintro ⟨reload, before, ⟨ctl, new, named⟩, -, none⟩
  obtain ⟨commit, less, commits, kept⟩ := committed
  rcases Nat.lt_trichotomy reload commit with earlier | same | later
  · exact none commit earlier less commits
  · obtain ⟨-, pid, connection, other, -⟩ := commits
    rw [← same, named] at other
    cases other
  · exact kept reload later before (.inl ⟨ctl, new, named⟩)

/-- A commit is the last callback, or was made before and nothing renewed the application. -/
theorem Committed.cases {count : Nat} (committed : Committed run input (count + 1)) :
    Commits (input count) (run count) ∨
      Committed run input count ∧ ¬ Renews (input count) := by
  obtain ⟨first, before, commits, none⟩ := committed
  rcases Nat.lt_succ_iff_lt_or_eq.mp before with earlier | same
  · right
    refine ⟨⟨first, earlier, commits, fun later after less => ?_⟩, ?_⟩
    · exact none later after (Nat.lt_succ_of_lt less)
    · exact none count earlier (Nat.lt_succ_self count)
  · rw [same] at commits
    exact .inl commits

end Run

theorem step_commits (steady : app.Steady config) (marked : app.Marked) {event : Event}
    (commits : Commits event app) : (app.step config fork event).state = .restarting := by
  obtain ⟨state, pid, connection, rfl, accepts⟩ := commits
  have live : app.state ≠ .destroy := by
    rw [state]
    exact nofun
  obtain ⟨new, renewed⟩ := Option.isSome_iff_exists.mp ((marked live).mpr state)
  unfold step
  rw [if_neg live]
  exact congrArg Prod.fst (@connect_commits config fork app steady pid connection accepts new state
    renewed)

theorem step_renews (live : app.state ≠ .destroy) {event : Event} (renews : Renews event) :
    (app.step config fork event).state = .restart ∨
      (app.step config fork event).state = .destroy := by
  unfold step
  rw [if_neg live]
  rcases renews with ⟨ctl, new, rfl⟩ | ⟨ctl, rfl⟩
  · have begun : (app.reloadCb config fork ctl (some new)).mode = (.restart, some new) := wkrAdd_mode
    exact .inl (congrArg Prod.fst begun)
  · exact .inr rfl

/-- What a callback adds to the history of an application. -/
structure Recalls (run : Nat → App) (input : Nat → Event) (count : Nat) : Prop where
  awaits : (run count).state = .restart → Awaited run input count
  commits : (run count).state = .restarting → Committed run input count
  restarting : Committed run input count → (run count).state = .restarting

namespace Recalls

variable {run : Nat → App} {input : Nat → Event} {count : Nat}

/-- Where the state is neither RESTART nor RESTARTING there is nothing to recall. -/
theorem of_other {state : AppState} (reached : (run (count + 1)).state = state)
    (restart : state ≠ .restart) (restarting : state ≠ .restarting)
    (none : ¬ Committed run input (count + 1)) : Recalls run input (count + 1) where
  awaits := fun wrong => absurd (reached.symm.trans wrong) restart
  commits := fun wrong => absurd (reached.symm.trans wrong) restarting
  restarting := fun wrong => absurd wrong none

theorem of_restart (reached : (run (count + 1)).state = .restart)
    (awaited : Awaited run input (count + 1)) : Recalls run input (count + 1) where
  awaits := fun _ => awaited
  commits := fun wrong => nomatch reached.symm.trans wrong
  restarting := fun committed => absurd awaited committed.not_awaited

theorem of_restarting (reached : (run (count + 1)).state = .restarting)
    (committed : Committed run input (count + 1)) : Recalls run input (count + 1) where
  awaits := fun wrong => nomatch reached.symm.trans wrong
  commits := fun _ => committed
  restarting := fun _ => reached

/-- An application that was not RESTARTING has committed no reload but by the last callback. -/
theorem not_committed (recalls : Recalls run input count)
    (stays : ¬ Commits (input count) (run count))
    (other : (run count).state ≠ .restarting ∨ Renews (input count)) :
    ¬ Committed run input (count + 1) := by
  intro committed
  rcases committed.cases with commits | ⟨before, kept⟩
  · exact stays commits
  · rcases other with differs | renews
    · exact differs (recalls.restarting before)
    · exact kept renews

/-- A reload that is read is awaited. -/
theorem reloads {ctl : Nat} {new : Conf} (live : (run count).state ≠ .destroy)
    (named : input count = .reload ctl (some new)) : Awaited run input (count + 1) := by
  refine ⟨count, Nat.lt_succ_self count, ⟨ctl, new, named⟩, live, ?_⟩
  intro later after less
  exact absurd (Nat.lt_succ_iff.mp less) (Nat.not_le.mpr after)

theorem succ (recalls : Recalls run input count) (steady : (run count).Steady config)
    (marked : (run count).Marked)
    (next : run (count + 1) = (run count).step config fork (input count)) :
    Recalls run input (count + 1) := by
  by_cases gone : (run count).state = .destroy
  · have reached : (run (count + 1)).state = .destroy := by
      rw [next]
      unfold App.step
      rw [if_pos gone]
      exact gone
    refine of_other reached nofun nofun (recalls.not_committed ?_ (.inl ?_))
    · exact fun commits => nomatch gone.symm.trans commits.1
    · rw [gone]
      exact nofun
  by_cases restart : (run count).state = .restart
  · obtain ⟨new, renewed⟩ := Option.isSome_iff_exists.mp ((marked gone).mpr restart)
    have differs : (run count).state ≠ .restarting := by
      rw [restart]
      exact nofun
    by_cases commits : Commits (input count) (run count)
    · have reached := @step_commits config fork _ steady marked _ commits
      rw [← next] at reached
      refine of_restarting reached ⟨count, Nat.lt_succ_self count, commits, ?_⟩
      intro later after less
      exact absurd (Nat.lt_succ_iff.mp less) (Nat.not_le.mpr after)
    have none := recalls.not_committed commits (.inl differs)
    by_cases leaves : (run count).Leaves config (input count)
    · rcases @step_leaves config fork _ steady new restart renewed _ leaves with
        ⟨reached, -⟩ | ⟨-, pid, connection, named⟩ | reached
      · rw [← next] at reached
        exact of_other reached nofun nofun none
      · rw [named] at leaves
        exact absurd ⟨restart, pid, connection, named, leaves⟩ commits
      · rw [← next] at reached
        exact of_other (congrArg Prod.fst reached) nofun nofun none
    · obtain ⟨reached, mode | ⟨ctl, newer, named, -⟩⟩ :=
        @step_remains config fork _ steady restart _ leaves
      · rw [← next] at reached
        exact of_restart reached ((recalls.awaits restart).later commits)
      · rw [← next] at reached
        exact of_restart reached (reloads gone named)
  · have commits : ¬ Commits (input count) (run count) := fun commits => restart commits.1
    rcases @step_serving config fork _ steady gone restart (input count) with
      mode | ⟨starts, mode⟩ | ⟨reached, why⟩ | ⟨ctl, newer, named, mode⟩
    · rw [← next] at mode
      have same : (run (count + 1)).state = (run count).state := congrArg Prod.fst mode
      by_cases restarting : (run count).state = .restarting
      · refine of_restarting (same.trans restarting)
          ((recalls.commits restarting).later fun renews => ?_)
        rcases @step_renews config fork _ gone _ renews with reached | reached
        · rw [← next] at reached
          exact restart (same.symm.trans reached)
        · rw [← next] at reached
          exact gone (same.symm.trans reached)
      · exact of_other same restart restarting (recalls.not_committed commits (.inl restarting))
    · rw [← next] at mode
      refine of_other (congrArg Prod.fst mode) nofun nofun
        (recalls.not_committed commits (.inl ?_))
      rw [starts]
      exact nofun
    · rw [← next] at reached
      refine of_other reached nofun nofun (recalls.not_committed commits ?_)
      rcases why with starts | ⟨ctl, named⟩
      · left
        rw [starts]
        exact nofun
      · exact .inr (.inr ⟨ctl, named⟩)
    · rw [← next] at mode
      exact of_restart (congrArg Prod.fst mode) (reloads gone named)

end Recalls

theorem recalls_after (fork : Nat → Int) (conf : Conf) (ctl : Option Nat) (input : Nat → Event)
    (count : Nat) :
    Recalls (Machine.after (App.step config fork) input (App.insert config fork conf ctl)) input
      count := by
  induction count with
  | zero =>
      have begins := congrArg Prod.fst (@insert_mode config fork conf ctl)
      refine ⟨fun wrong => ?_, fun wrong => ?_, ?_⟩
      · exact nomatch begins.symm.trans wrong
      · exact nomatch begins.symm.trans wrong
      · rintro ⟨first, before, -⟩
        exact absurd before (Nat.not_lt_zero first)
  | succ count ih =>
      exact ih.succ (steady_after fork conf ctl input count)
        (marked_after fork conf ctl input count) rfl

/-- In every state of a run a reload has ended in service if it has to, exactly when no reload was
committed since the application was last reloaded, or there are fewer workers than are
configured. -/
theorem reload_ends_iff (config : Config) (fork : Nat → Int) (conf : Conf) (ctl : Option Nat)
    (input : Nat → Event) (count : Nat) :
    EndsInService (Machine.after (App.step config fork) input (App.insert config fork conf ctl))
        input count ↔
      (Committed (Machine.after (App.step config fork) input (App.insert config fork conf ctl))
          input count →
        (Machine.after (App.step config fork) input (App.insert config fork conf ctl)
            count).total <
          (Machine.after (App.step config fork) input (App.insert config fork conf ctl)
            count).conf.minWorker) := by
  have recalls := @recalls_after config fork conf ctl input count
  constructor
  · intro ends committed
    exact (ends (.inr (recalls.restarting committed))).resolve_left committed.not_awaited
  · rintro few (restart | restarting)
    · exact .inl (recalls.awaits restart)
    · exact .inr (few (recalls.commits restarting))

/-- A worker registers, the application is reloaded, and the worker forked for the reload
registers. -/
def committingInput : Nat → Event
  | 0 => .connect 100 ⟨true, true, true⟩
  | 1 => .reload 7 (some ⟨1, 2, ⟨⟨[], noNul_nil⟩, none, []⟩⟩)
  | _ => .connect 101 ⟨true, true, true⟩

theorem reload_unended :
    ¬ EndsInService (Machine.after (App.step Config.init fun count => 100 + count) committingInput
      (App.insert Config.init (fun count => 100 + count)
        ⟨1, 2, ⟨⟨[], List.not_mem_nil⟩, none, []⟩⟩ none)) committingInput 3 := by
  intro ends
  rcases ends (.inr (by decide +kernel)) with ⟨first, before, ⟨ctl, new, named⟩, -, none⟩ | few
  · have second : first = 1 := by
      match first, before with
      | 0, _ => exact nomatch named
      | 1, _ => rfl
      | 2, _ => exact nomatch named
    subst second
    refine none 2 (by decide) (by decide) ⟨by decide +kernel, 101, _, rfl, rfl, ?_, ?_⟩
    · exact .inr (by decide +kernel)
    · decide +kernel
  · exact absurd few (by decide +kernel)

end App
