import Webroar.Admin.Control

/-! # One answer for each request

The control connections and the applications are a desk at which the applications hold the requests
that have to wait. As long as a connection has one request at a time and an application one
administrator who waits, each request gets one answer.
-/

namespace Control

variable {config : Config} {fork : Nat → Nat → Int} {control : Control}

/-- The application that has forked a worker for a request still waits for a worker. -/
def Waits (control : Control) (app : Option Nat) : Prop :=
  ∃ number known, app = some number ∧ control.apps number = some known ∧ known.Awaits

/-- A new application gets a worker. -/
def Starts (config : Config) (fork : Nat → Nat → Int) (control : Control) (read : Option Conf) :
    Prop :=
  ∀ conf, read = some conf → 0 < conf.minWorker ∧ App.Forked config (fork control.nextApp 0)

/-- A connection sends a request when it has the answer to the one before; a worker is forked for a
request that waits; an application for which an administrator waits is neither reloaded nor removed;
a connection ends only if no application will answer it, or the one it points to, and that one
answers nobody else; and no worker that hangs ends a reload for which an administrator waits. -/
def Tame (config : Config) (fork : Nat → Nat → Int) (event : ControlEvent) (control : Control) :
    Prop :=
  match event with
  | .add ctl name read => (control.ctls ctl).live = true → (control.ctls ctl).scgi = none ∧
      (control.exist name = none → control.Starts config fork read)
  | .reload ctl name read => (control.ctls ctl).live = true → (control.ctls ctl).scgi = none ∧
      (control.exist name = none → control.Starts config fork read) ∧
      ∀ number app, control.exist name = some number → control.apps number = some app →
        read.isSome = true → app.ctl = none ∧ App.Forked config (fork number app.forks)
  | .remove ctl name => (control.ctls ctl).live = true → (control.ctls ctl).scgi = none ∧
      ∀ number app, control.exist name = some number → control.apps number = some app →
        app.ctl = none
  | .disconnect ctl => (control.ctls ctl).live = true → ∀ number app,
      control.apps number = some app → app.state ≠ .destroy →
        (app.ctl = some ctl → (control.ctls ctl).app = some number) ∧
          ((control.ctls ctl).app = some number → app.ctl = none ∨ app.ctl = some ctl)
  | .app number event => ∀ app, control.apps number = some app → app.ctl ≠ none →
      app.state = .restart → ∀ worker, event = .timeout worker → ¬ app.HangsUp config worker
  | _ => True

/-! ### The desk -/

/-- Applications hold requests, connections ask them. -/
def desk (control : Control) : Desk Nat Nat where
  slot number := (control.apps number).bind App.slot
  live ctl := (control.ctls ctl).live
  current ctl := (control.ctls ctl).scgi
  told ctl := (control.ctls ctl).built
  asked := control.asked
  answers := control.answers

/-- What a component of the connections is after one of them changed. -/
theorem update_field {α : Type} (field : Ctl → α) (ctls : Nat → Ctl) (ctl : Nat) (value : Ctl) :
    (fun number => field (Function.update ctls ctl value number)) =
      Function.update (fun number => field (ctls number)) ctl (field value) :=
  Function.comp_update field ctls ctl value

theorem setCtl_desk (control : Control) (ctl : Nat) (value : Ctl) :
    (control.setCtl ctl value).desk = { control.desk with
      live := Function.update control.desk.live ctl value.live
      current := Function.update control.desk.current ctl value.scgi
      told := Function.update control.desk.told ctl value.built } := by
  unfold desk setCtl
  dsimp only
  rw [update_field Ctl.live, update_field Ctl.scgi, update_field Ctl.built]

theorem setApp_desk (control : Control) (number : Nat) (app : App) :
    (control.setApp number app).desk = control.desk.note number app.slot := by
  unfold desk setApp Desk.note
  dsimp only
  congr 1
  exact Function.comp_update (fun known : Option App => known.bind App.slot) control.apps number _

theorem respWrite_desk (control : Control) (ctl : Nat) :
    (control.respWrite ctl).desk = control.desk.answer ctl := by
  have set := control.setCtl_desk ctl { control.ctls ctl with built := true }
  have live : Function.update control.desk.live ctl (control.ctls ctl).live =
      control.desk.live := Function.update_eq_self ctl _
  have current : Function.update control.desk.current ctl (control.ctls ctl).scgi =
      control.desk.current := Function.update_eq_self ctl _
  rw [live, current] at set
  have answers := congrArg (fun desk : Desk Nat Nat => { desk with
    answers := control.answers ++
      [Desk.Answer.mk ctl (control.ctls ctl).live (control.ctls ctl).scgi] }) set
  exact answers

theorem validate_desk (control : Control) (ctl : Nat) (app : Option Nat) :
    (control.validate ctl app).desk = control.desk.ask ctl app := by
  have set := control.setCtl_desk ctl
    { control.ctls ctl with scgi := some control.asked.length, built := false }
  have live : Function.update control.desk.live ctl (control.ctls ctl).live =
      control.desk.live := Function.update_eq_self ctl _
  rw [live] at set
  exact congrArg (fun desk : Desk Nat Nat => { desk with
    asked := control.asked ++ [(ctl, app)] }) set

theorem note_slot {number : Nat} {app : App} (found : control.apps number = some app) :
    control.desk.note number app.slot = control.desk := by
  have slot : app.slot = control.desk.slot number := by
    unfold desk
    dsimp only
    rw [found]
    rfl
  unfold Desk.note
  rw [slot, Function.update_eq_self]

/-! ### What is kept -/

/-- Everything else that holds between two events. -/
structure Tended (config : Config) (control : Control) : Prop where
  known : ∀ number app, control.apps number = some app →
    number < control.nextApp ∧ app.Steady config ∧ app.Marked
  awaits : ∀ number app, control.apps number = some app → app.slot ≠ none → app.Awaits
  asking : ∀ (number : Nat) ctl app, control.asked[number]? = some (ctl, app) → ctl < control.nextCtl
  live : ∀ ctl, (control.ctls ctl).live = true → ctl < control.nextCtl

/-- Requests and answers are paired. -/
structure Paired (config : Config) (control : Control) : Prop where
  sound : control.desk.Sound
  tended : control.Tended config

namespace Tended

theorem setApp (tended : control.Tended config) {number : Nat} {app : App}
    (bound : number < control.nextApp) (steady : app.Steady config) (marked : app.Marked)
    (awaits : app.slot ≠ none → app.Awaits) : (control.setApp number app).Tended config := by
  refine ⟨?_, ?_, tended.asking, tended.live⟩
  · intro other found here
    unfold Control.setApp at here
    dsimp only at here
    by_cases same : other = number
    · subst same
      rw [Function.update_self] at here
      cases here
      exact ⟨bound, steady, marked⟩
    · rw [Function.update_of_ne same] at here
      exact tended.known other found here
  · intro other found here
    unfold Control.setApp at here
    dsimp only at here
    by_cases same : other = number
    · subst same
      rw [Function.update_self] at here
      cases here
      exact awaits
    · rw [Function.update_of_ne same] at here
      exact tended.awaits other found here

theorem setCtl (tended : control.Tended config) {ctl : Nat} {value : Ctl}
    (bound : value.live = true → ctl < control.nextCtl) :
    (control.setCtl ctl value).Tended config := by
  refine ⟨tended.known, tended.awaits, tended.asking, ?_⟩
  intro other live
  unfold Control.setCtl at live
  dsimp only at live
  by_cases same : other = ctl
  · subst same
    rw [Function.update_self] at live
    exact bound live
  · rw [Function.update_of_ne same] at live
    exact tended.live other live

theorem respWrite (tended : control.Tended config) (ctl : Nat) :
    (control.respWrite ctl).Tended config := by
  have set := @setCtl _ control tended ctl { control.ctls ctl with built := true }
    (tended.live ctl)
  exact ⟨set.known, set.awaits, set.asking, set.live⟩

theorem validate (tended : control.Tended config) {ctl : Nat}
    (live : (control.ctls ctl).live = true) (app : Option Nat) :
    (control.validate ctl app).Tended config := by
  have set := @setCtl _ control tended ctl
    { control.ctls ctl with scgi := some control.asked.length, built := false } (tended.live ctl)
  refine ⟨set.known, set.awaits, ?_, set.live⟩
  intro number other left asked
  rcases @Desk.asked_concat _ _ control.desk number (other, left) (ctl, app) asked with
    before | ⟨-, same⟩
  · exact tended.asking number other left before
  · cases same
    exact tended.live ctl live

end Tended

/-! ### Callbacks of the applications -/

section Callbacks

variable {number : Nat} {app : App} {event : Event}

theorem callback_quiet (found : control.apps number = some app)
    (quiet : (app.step config (fork number) event).replies = app.replies) :
    control.callback config fork number event =
      control.setApp number (app.step config (fork number) event) := by
  unfold callback
  rw [found]
  dsimp only
  rw [quiet, List.drop_length]
  rfl

theorem callback_told (found : control.apps number = some app) {ctl : Nat} {well : Bool}
    (told : (app.step config (fork number) event).replies = app.replies ++ [(ctl, well)]) :
    control.callback config fork number event =
      (control.setApp number (app.step config (fork number) event)).respWrite ctl := by
  unfold callback
  rw [found]
  dsimp only
  rw [told, List.drop_left]
  rfl

theorem setApp_self (found : control.apps number = some app) :
    control.setApp number app = control := by
  unfold setApp
  rw [← found, Function.update_eq_self]

/-- A callback that does not come from an administrator keeps the pairs. -/
theorem Paired.own (paired : control.Paired config) (own : event.own = true)
    (tame : Tame config fork (.app number event) control) :
    (control.callback config fork number event).Paired config := by
  cases found : control.apps number with
  | none =>
      have same : control.callback config fork number event = control := by
        unfold callback
        rw [found]
      rw [same]
      exact paired
  | some app =>
      obtain ⟨bound, steady, marked⟩ := paired.tended.known number app found
      have steadies := @App.Steady.step config (fork number) app steady event
      have marks := @App.Marked.step config (fork number) app marked steady event
      by_cases gone : app.state = .destroy
      · have same : app.step config (fork number) event = app := by
          unfold App.step
          exact if_pos gone
        rw [callback_quiet found (congrArg App.replies same), same, setApp_self found]
        exact paired
      · rcases @App.step_answers config (fork number) app steady marked event own
          (tame app found) with undisturbed | settled
        · have slot : (app.step config (fork number) event).slot = app.slot := by
            unfold App.slot
            rw [undisturbed.ctl, if_neg gone, if_neg fun later => gone (undisturbed.gone.mp later)]
          have awaits : (app.step config (fork number) event).slot ≠ none →
              (app.step config (fork number) event).Awaits := by
            intro some
            rw [slot] at some
            exact undisturbed.awaits (App.slot_some some).2
              (paired.tended.awaits number app found some)
          rw [callback_quiet found undisturbed.replies]
          refine ⟨?_, paired.tended.setApp bound steadies marks awaits⟩
          rw [setApp_desk, slot, note_slot found]
          exact paired.sound
        · have slot : (app.step config (fork number) event).slot = none := by
            unfold App.slot
            rw [settled.ctl, ite_self]
          have free : (app.step config (fork number) event).slot ≠ none →
              (app.step config (fork number) event).Awaits := fun some => absurd slot some
          have tended := paired.tended.setApp bound steadies marks free
          have settles := paired.sound.settle number
          have noted : control.desk.slot number = app.ctl := by
            unfold desk App.slot
            dsimp only
            rw [found]
            exact if_neg gone
          unfold Desk.settle at settles
          rw [noted] at settles
          obtain ⟨well, told⟩ := settled.replies
          cases waits : app.ctl with
          | none =>
              rw [waits] at told settles
              have quiet := told.trans (List.append_nil _)
              have empty : app.slot = none := by
                unfold App.slot
                rw [waits, ite_self]
              rw [callback_quiet found quiet]
              refine ⟨?_, tended⟩
              rw [setApp_desk, slot, ← empty, note_slot found]
              exact paired.sound
          | some ctl =>
              rw [waits] at told settles
              rw [callback_told found told]
              refine ⟨?_, tended.respWrite ctl⟩
              rw [respWrite_desk, setApp_desk, slot]
              exact settles

end Callbacks

/-! ### Requests -/

section Requests

variable {ctl number : Nat} {app : App} {name : String}

theorem exist_serves (found : control.exist name = some number) :
    ∃ app, control.apps number = some app ∧ app.state ≠ .destroy := by
  obtain ⟨known, member, same⟩ := Option.map_eq_some_iff.mp found
  have serves := List.find?_some member
  rw [Bool.and_eq_true, same] at serves
  obtain ⟨-, serves⟩ := serves
  unfold Control.serves at serves
  cases here : control.apps number with
  | none =>
      rw [here] at serves
      exact nomatch serves
  | some app =>
      rw [here] at serves
      exact ⟨app, rfl, of_decide_eq_true serves⟩

/-- A request that is answered at once. -/
theorem Paired.reply (paired : control.Paired config) (live : (control.ctls ctl).live = true)
    (silent : (control.ctls ctl).scgi = none) :
    ((control.validate ctl none).respWrite ctl).Paired config := by
  refine ⟨?_, (paired.tended.validate live none).respWrite ctl⟩
  rw [respWrite_desk, validate_desk]
  exact paired.sound.reply live silent none

/-- A request that an application answers at once. -/
theorem Paired.told (paired : control.Paired config) (live : (control.ctls ctl).live = true)
    (silent : (control.ctls ctl).scgi = none) {base : Control} {left : Option Nat}
    (asks : base.desk = control.desk.ask ctl left) (tended : base.Tended config)
    (found : base.apps number = some app) {event : Event} {well : Bool}
    (told : (app.step config (fork number) event).replies = app.replies ++ [(ctl, well)])
    (slot : (app.step config (fork number) event).slot = app.slot)
    (awaits : app.Awaits → (app.step config (fork number) event).slot ≠ none →
      (app.step config (fork number) event).Awaits) :
    (base.callback config fork number event).Paired config := by
  obtain ⟨bound, steady, marked⟩ := tended.known number app found
  have waits : (app.step config (fork number) event).slot ≠ none →
      (app.step config (fork number) event).Awaits := fun some =>
    awaits (tended.awaits number app found (slot ▸ some)) some
  rw [callback_told found told]
  refine ⟨?_, (tended.setApp bound (steady.step event) (marked.step steady event) waits).respWrite
    ctl⟩
  rw [respWrite_desk, setApp_desk, slot, note_slot found, asks]
  exact paired.sound.reply live silent left

/-- A change of the pointer to the application is nothing to the desk. -/
theorem setCtl_app_desk (control : Control) (ctl : Nat) (app : Option Nat) :
    (control.setCtl ctl { control.ctls ctl with app := app }).desk = control.desk := by
  have live : Function.update control.desk.live ctl (control.ctls ctl).live =
      control.desk.live := Function.update_eq_self ctl _
  have current : Function.update control.desk.current ctl (control.ctls ctl).scgi =
      control.desk.current := Function.update_eq_self ctl _
  have told : Function.update control.desk.told ctl (control.ctls ctl).built =
      control.desk.told := Function.update_eq_self ctl _
  rw [setCtl_desk]
  dsimp only
  rw [live, current, told]

/-- The number of the next application is free. -/
theorem Tended.next_free (tended : control.Tended config) :
    control.desk.slot control.nextApp = none := by
  unfold desk
  dsimp only
  cases found : control.apps control.nextApp with
  | none => rfl
  | some app => exact absurd (tended.known _ app found).1 (Nat.lt_irrefl _)

/-- The application that is inserted, whoever waits for it. -/
theorem Tended.insert (tended : control.Tended config) (conf : Conf) (ctl : Option Nat)
    (awaits : ctl ≠ none → (App.insert config (fork control.nextApp) conf ctl).Awaits)
    {names : List (String × Nat)} :
    Tended config { control.setApp control.nextApp
      (App.insert config (fork control.nextApp) conf ctl) with
        names := names, nextApp := control.nextApp + 1 } := by
  have steady : (App.insert config (fork control.nextApp) conf ctl).Steady config :=
    App.Steady.insert conf ctl
  have marked : (App.insert config (fork control.nextApp) conf ctl).Marked :=
    App.marked_of_mode (App.insert_mode conf ctl) ⟨nofun, nofun⟩
  have grown : Tended config { control with nextApp := control.nextApp + 1 } := {
    tended with
    known := by
      intro number app found
      obtain ⟨bound, rest⟩ := tended.known number app found
      exact ⟨bound.trans (Nat.lt_succ_self _), rest⟩ }
  have waits : (App.insert config (fork control.nextApp) conf ctl).slot ≠ none →
      (App.insert config (fork control.nextApp) conf ctl).Awaits := by
    rw [App.insert_slot]
    exact awaits
  have set := @setApp _ _ grown control.nextApp _ (Nat.lt_succ_self _) steady marked waits
  exact ⟨set.known, set.awaits, set.asking, set.live⟩

/-- An application that does not exist is inserted for a request, if its configuration can be
read. -/
theorem Paired.insertFor (paired : control.Paired config) (live : (control.ctls ctl).live = true)
    (silent : (control.ctls ctl).scgi = none) (read : Option Conf)
    (starts : control.Starts config fork read) :
    (control.insertFor config fork ctl name read).Paired config := by
  unfold Control.insertFor
  cases read with
  | none => exact paired.reply live silent
  | some conf =>
      obtain ⟨few, forked⟩ := starts conf rfl
      have tended := paired.tended.validate live (some control.nextApp)
      have desk := control.validate_desk ctl (some control.nextApp)
      have free := paired.tended.next_free
      have sound := paired.sound.entrust live silent free
      have bound : (control.validate ctl (some control.nextApp)).nextApp = control.nextApp := rfl
      have still : ((control.validate ctl (some control.nextApp)).ctls ctl).live = true := by
        unfold validate setCtl
        dsimp only
        rw [Function.update_self]
        exact live
      dsimp only
      generalize control.validate ctl (some control.nextApp) = base at *
      rw [← desk, ← bound] at sound
      rw [← bound] at forked
      have inserted := @Tended.insert config fork base tended conf (some ctl)
        (fun _ => (App.insert_waits conf (some ctl)).2.2 few forked)
        ((name, base.nextApp) :: base.names)
      have set := base.setApp_desk base.nextApp
        (App.insert config (fork base.nextApp) conf (some ctl))
      rw [App.insert_slot] at set
      unfold Control.insert
      dsimp only
      refine ⟨?_, ?_⟩
      · have same := setCtl_app_desk { base.setApp base.nextApp
          (App.insert config (fork base.nextApp) conf (some ctl)) with
            names := (name, base.nextApp) :: base.names
            nextApp := base.nextApp + 1 } ctl (some base.nextApp)
        rw [← set] at sound
        rw [same]
        exact sound
      · exact inserted.setCtl fun _ => tended.live ctl still

/-- The request of a connection is at the desk, whatever becomes of it. -/
theorem validate_found (found : control.apps number = some app) (left : Option Nat) :
    (control.validate ctl left).apps number = some app := found

theorem Paired.addCb (paired : control.Paired config) (live : (control.ctls ctl).live = true)
    (silent : (control.ctls ctl).scgi = none) (read : Option Conf)
    (starts : control.exist name = none → control.Starts config fork read) :
    (control.addCb config fork ctl name read).Paired config := by
  unfold Control.addCb
  cases here : control.exist name with
  | none => exact paired.insertFor live silent read (starts here)
  | some number =>
      obtain ⟨app, found, alive⟩ := exist_serves here
      have again : app.step config (fork number) (.addAgain ctl) = app.addAgain ctl := by
        unfold App.step
        exact if_neg alive
      have same := setCtl_app_desk (control.validate ctl none) ctl (some number)
      have tended := paired.tended.validate live none
      have still : ((control.validate ctl none).ctls ctl).live = true := by
        unfold validate setCtl
        dsimp only
        rw [Function.update_self]
        exact live
      refine @Paired.told config fork control ctl number app paired live silent _ none
        (same.trans (control.validate_desk ctl none))
        (tended.setCtl fun _ => tended.live ctl still) found _ false ?_ ?_ ?_
      · rw [again]
        rfl
      · rw [again]
        rfl
      · rw [again]
        exact fun awaits _ => awaits

theorem Paired.reloadCb (paired : control.Paired config) (live : (control.ctls ctl).live = true)
    (silent : (control.ctls ctl).scgi = none) (read : Option Conf)
    (starts : control.exist name = none → control.Starts config fork read)
    (free : ∀ number app, control.exist name = some number → control.apps number = some app →
      read.isSome = true → app.ctl = none ∧ App.Forked config (fork number app.forks)) :
    (control.reloadCb config fork ctl name read).Paired config := by
  unfold Control.reloadCb
  cases here : control.exist name with
  | none => exact paired.insertFor live silent read (starts here)
  | some number =>
      obtain ⟨app, found, alive⟩ := exist_serves here
      have reloads : app.step config (fork number) (.reload ctl read) =
          app.reloadCb config (fork number) ctl read := by
        unfold App.step
        exact if_neg alive
      cases read with
      | none =>
          refine @Paired.told config fork control ctl number app paired live silent _ none
            (control.validate_desk ctl none) (paired.tended.validate live none) found _ false
            ?_ ?_ ?_
          · rw [reloads]
            rfl
          · rw [reloads]
            rfl
          · rw [reloads]
            exact fun awaits _ => awaits
      | some new =>
          obtain ⟨unasked, forked⟩ := free number app here found rfl
          obtain ⟨slot, awaits, quiet⟩ := App.reloadCb_waits ctl new forked
          have tended := paired.tended.validate live (some number)
          have desk := control.validate_desk ctl (some number)
          have empty : control.desk.slot number = none := by
            unfold Control.desk App.slot
            dsimp only
            rw [found]
            exact (if_neg alive).trans unasked
          have sound := paired.sound.entrust live silent empty
          obtain ⟨bound, steady, marked⟩ := paired.tended.known number app found
          have steadies := @App.Steady.step config (fork number) app steady (.reload ctl (some new))
          have marks := @App.Marked.step config (fork number) app marked steady
            (.reload ctl (some new))
          rw [reloads] at steadies marks
          have told : (app.step config (fork number) (.reload ctl (some new))).replies =
              app.replies := by
            rw [reloads]
            exact quiet
          dsimp only [Option.isSome_some]
          rw [if_pos rfl, callback_quiet (validate_found found _) told, reloads]
          refine ⟨?_, tended.setApp bound steadies marks fun _ => awaits⟩
          rw [setApp_desk, slot, desk]
          exact sound

theorem Paired.removeCb (paired : control.Paired config) (live : (control.ctls ctl).live = true)
    (silent : (control.ctls ctl).scgi = none)
    (free : ∀ number app, control.exist name = some number → control.apps number = some app →
      app.ctl = none) : (control.removeCb config fork ctl name).Paired config := by
  unfold Control.removeCb
  cases here : control.exist name with
  | none => exact paired.reply live silent
  | some number =>
      obtain ⟨app, found, alive⟩ := exist_serves here
      have removes : app.step config (fork number) (.remove ctl) = app.removeReq config ctl := by
        unfold App.step
        exact if_neg alive
      have gone : (app.removeReq config ctl).slot = none := if_pos rfl
      have empty : app.slot = none := (if_neg alive).trans (free number app here found)
      refine @Paired.told config fork control ctl number app paired live silent _ none
        (control.validate_desk ctl none) (paired.tended.validate live none) found _ true ?_ ?_ ?_
      · rw [removes]
        rfl
      · rw [removes, gone, empty]
      · rw [removes, gone]
        exact fun _ some => absurd rfl some

/-- The end of a connection. -/
theorem Paired.free (paired : control.Paired config)
    (apart : ∀ number app, control.apps number = some app → app.state ≠ .destroy →
      (app.ctl = some ctl → (control.ctls ctl).app = some number) ∧
        ((control.ctls ctl).app = some number → app.ctl = none ∨ app.ctl = some ctl)) :
    (control.free ctl).Paired config := by
  have tended : (control.setCtl ctl { control.ctls ctl with live := false }).Tended config :=
    paired.tended.setCtl nofun
  have desk : (control.setCtl ctl { control.ctls ctl with live := false }).desk =
      control.desk.leave ctl control.desk.slot := by
    have current : Function.update control.desk.current ctl (control.ctls ctl).scgi =
        control.desk.current := Function.update_eq_self ctl _
    have told : Function.update control.desk.told ctl (control.ctls ctl).built =
        control.desk.told := Function.update_eq_self ctl _
    rw [setCtl_desk]
    dsimp only
    rw [current, told]
    rfl
  have points : ∀ holder, control.desk.slot holder = some ctl →
      (control.ctls ctl).app = some holder := by
    intro holder noted
    obtain ⟨app, found, slot⟩ := Option.bind_eq_some_iff.mp noted
    have some : app.slot ≠ none := fun none => nomatch none.symm.trans slot
    obtain ⟨alive, -⟩ := App.slot_some some
    exact (apart holder app found alive).1 ((if_neg alive).symm.trans slot)
  have stays : (∀ holder, control.desk.slot holder ≠ some ctl) →
      (control.setCtl ctl { control.ctls ctl with live := false }).Paired config := by
    intro unnoted
    refine ⟨?_, tended⟩
    rw [desk]
    apply paired.sound.leave
    intro holder other
    constructor
    · intro noted
      refine ⟨noted, ?_⟩
      rintro rfl
      exact unnoted holder noted
    · exact And.left
  have bounds : (control.setCtl ctl { control.ctls ctl with live := false }).nextApp =
      control.nextApp := rfl
  unfold Control.free
  dsimp only at stays tended desk bounds ⊢
  generalize control.setCtl ctl _ = freed at *
  cases own : (control.ctls ctl).app with
  | none => exact stays fun holder noted => nomatch own.symm.trans (points holder noted)
  | some number =>
      dsimp only
      cases found : control.apps number with
      | none =>
          apply stays
          intro holder noted
          cases own.symm.trans (points holder noted)
          unfold Control.desk at noted
          dsimp only at noted
          rw [found] at noted
          exact nomatch noted
      | some app =>
          have gone : (unlink app).slot = none := ite_self _
          obtain ⟨bound, steady, marked⟩ := paired.tended.known number app found
          have steadies : (unlink app).Steady config := ⟨steady.pool, steady.room, steady.lost⟩
          rw [← bounds] at bound
          refine ⟨?_, tended.setApp bound steadies marked fun some => absurd gone some⟩
          rw [setApp_desk, gone, desk]
          apply paired.sound.leave
          intro holder other
          by_cases same : holder = number
          · subst same
            change Function.update control.desk.slot holder none holder = some other ↔ _
            rw [Function.update_self]
            constructor
            · exact nofun
            · rintro ⟨noted, differs⟩
              obtain ⟨known, here, slot⟩ := Option.bind_eq_some_iff.mp noted
              cases found.symm.trans here
              have some : app.slot ≠ none := fun none => nomatch none.symm.trans slot
              obtain ⟨alive, -⟩ := App.slot_some some
              have kept : app.ctl = .some other := (if_neg alive).symm.trans slot
              rcases (apart holder app found alive).2 own with unasked | same
              · exact nomatch unasked.symm.trans kept
              · cases kept.symm.trans same
                exact absurd rfl differs
          · change Function.update control.desk.slot number none holder = some other ↔ _
            rw [Function.update_of_ne same]
            constructor
            · intro noted
              refine ⟨noted, ?_⟩
              rintro rfl
              cases own.symm.trans (points holder noted)
              exact same rfl
            · exact And.left

theorem Paired.accept (paired : control.Paired config) : control.accept.Paired config := by
  have grown : Tended config { control with nextCtl := control.nextCtl + 1 } := {
    paired.tended with
    asking := fun number ctl app asked =>
      (paired.tended.asking number ctl app asked).trans (Nat.lt_succ_self _)
    live := fun ctl live => (paired.tended.live ctl live).trans (Nat.lt_succ_self _) }
  have set := @Tended.setCtl _ _ grown control.nextCtl ⟨true, none, none, false⟩ fun _ =>
    Nat.lt_succ_self _
  have desk : control.accept.desk = control.desk.enter control.nextCtl :=
    control.setCtl_desk control.nextCtl ⟨true, none, none, false⟩
  refine ⟨?_, set.known, set.awaits, set.asking, set.live⟩
  rw [desk]
  apply paired.sound.enter
  intro number holder asked
  exact absurd (paired.tended.asking number control.nextCtl holder asked) (Nat.lt_irrefl _)

theorem Paired.written (paired : control.Paired config) (live : (control.ctls ctl).live = true)
    (built : (control.ctls ctl).built = true) : (control.written ctl).Paired config := by
  have desk : (control.written ctl).desk = control.desk.clear ctl := by
    have lives : Function.update control.desk.live ctl (control.ctls ctl).live =
        control.desk.live := Function.update_eq_self ctl _
    have set := control.setCtl_desk ctl { control.ctls ctl with scgi := none, built := false }
    rw [lives] at set
    exact set
  refine ⟨?_, paired.tended.setCtl fun _ => paired.tended.live ctl live⟩
  rw [desk]
  exact paired.sound.clear built

/-- An application that nobody waits for is inserted. -/
theorem Paired.boot (paired : control.Paired config) (conf : Conf) :
    (control.insert config fork name conf none).Paired config := by
  have inserted := @Tended.insert config fork control paired.tended conf none (absurd rfl)
    ((name, control.nextApp) :: control.names)
  refine ⟨?_, inserted⟩
  have set := control.setApp_desk control.nextApp
    (App.insert config (fork control.nextApp) conf none)
  have same : control.desk.note control.nextApp none = control.desk := by
    unfold Desk.note
    rw [← paired.tended.next_free, Function.update_eq_self]
  rw [App.insert_slot, same] at set
  have sound := paired.sound
  rw [← set] at sound
  exact sound

end Requests

/-! ### Runs -/

theorem Paired.step (paired : control.Paired config) {event : ControlEvent}
    (tame : Tame config fork event control) : (control.step config fork event).Paired config := by
  unfold Control.step
  cases event with
  | boot name conf =>
      dsimp only
      split
      · exact paired.boot conf
      · exact paired
  | accept => exact paired.accept
  | add ctl name read =>
      dsimp only
      split
      · next live =>
          obtain ⟨silent, starts⟩ := tame live
          exact paired.addCb live silent read starts
      · exact paired
  | reload ctl name read =>
      dsimp only
      split
      · next live =>
          obtain ⟨silent, starts, free⟩ := tame live
          exact paired.reloadCb live silent read starts free
      · exact paired
  | remove ctl name =>
      dsimp only
      split
      · next live =>
          obtain ⟨silent, free⟩ := tame live
          exact paired.removeCb live silent free
      · exact paired
  | written ctl =>
      dsimp only
      split
      · next due =>
          obtain ⟨live, built⟩ := Bool.and_eq_true_iff.mp due
          exact paired.written live built
      · exact paired
  | disconnect ctl =>
      dsimp only
      split
      · next live => exact paired.free (tame live)
      · exact paired
  | app number event =>
      dsimp only
      split
      · next own => exact paired.own own tame
      · exact paired

theorem Paired.begin : Control.begin.Paired config where
  sound := {
    live := fun _ member => nomatch member
    own := fun _ member => nomatch member
    once := List.nodup_nil
    current := fun _ _ current => nomatch current
    told := fun _ _ told => nomatch told
    held := fun _ _ noted => nomatch noted
    waits := fun _ _ _ asked => nomatch asked }
  tended := {
    known := fun _ _ found => nomatch found
    awaits := fun _ _ found => nomatch found
    asking := fun _ _ _ asked => nomatch asked
    live := fun _ live => nomatch live }

end Control
