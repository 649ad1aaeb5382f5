import Webroar.Configurator.Deployment
import Webroar.Library.Transition

/-! # What no two live applications share

A property of pairs of configurations holds of the live applications in all states of a run when
it holds at the start, and whatever is taken from the configuration file has it: an addition when
it is made, a reload when its first worker comes. The removals by name must find the configuration
of the application that goes. Base URIs and host names are two such properties.
-/

namespace Configurator

open Resolver (AppConf Uri Host staticName)

namespace Deployment

/-- A live application with its configuration. -/
structure Runs (state : Deployment) (app : Live) (entry : Entry) : Prop where
  live : app ∈ state.live
  listed : entry ∈ state.list
  own : entry.address = app.conf

/-- Every live application has a configuration of its own, every one of them is proper, and every
two of them go together. -/
structure Fine (Pair : AppConf → AppConf → Prop) (Proper : AppConf → Prop) (state : Deployment) :
    Prop where
  alone : (state.live.map Live.conf).Nodup
  present : ∀ app ∈ state.live, ∃ entry, state.Runs app entry
  proper : ∀ app entry, state.Runs app entry → Proper entry.conf
  pair : ∀ app entry other also, state.Runs app entry → state.Runs other also → app ≠ other →
    Pair entry.conf also.conf

/-- The list behind it: no two configurations at one address, and for each restarted application a
new one. -/
structure Sound (Pair : AppConf → AppConf → Prop) (Proper : AppConf → Prop) (state : Deployment) :
    Prop extends Fine Pair Proper state where
  distinct : (state.list.map Entry.address).Nodup
  below : ∀ entry ∈ state.list, entry.address < state.next
  ready : ∀ app entry, state.Runs app entry → app.restart = true → entry.new.isSome = true
  static : ∀ app entry, state.staticApp = some app → state.Runs app entry →
    entry.name = staticName

/-- A configuration may go live. -/
def Admissible (Pair : AppConf → AppConf → Prop) (Proper : AppConf → Prop) (state : Deployment)
    (except : Option Live) (conf : AppConf) : Prop :=
  Proper conf ∧ ∀ app entry, state.Runs app entry → some app ≠ except → Pair conf entry.conf

/-- A search of the list by name finds the configuration of the application that the search of the
server by name finds. -/
def Meant (state : Deployment) (name : List UInt8) : Prop :=
  ∀ app entry, state.Runs app entry →
    (state.list.find? fun entry => entry.name = name) = some entry →
    state.exist name = some (some app)

/-- The configuration found for a restarted application. -/
def renewed (state : Deployment) (name : List UInt8) (app : Live) (conf : AppConf) : Prop :=
  state.exist name = some (some app) ∧ app.restart = true ∧ ∃ entry new, state.Runs app entry ∧
    entry.new = some new ∧ conf = { new with name := entry.conf.name }

/-- What an event must not do: bring in a configuration that does not go together with the live
ones, or miss the configuration of the application it names. -/
def Permits (Pair : AppConf → AppConf → Prop) (Proper : AppConf → Prop) (root : Bool)
    (event : Event) (state : Deployment) : Prop :=
  match event with
  | .add name file => ∀ conf, readNew root state name file = some conf →
      Admissible Pair Proper state none conf
  | .remove name => state.Meant name
  | .reload name file =>
      (∀ conf, readNew root state name file = some conf →
        Admissible Pair Proper state none conf) ∧
      ∀ app, state.exist name = some (some app) → ∃ entry, state.Runs app entry ∧
        (state.list.find? fun entry => entry.name = name) = some entry
  | .restarted name => ∀ app conf, state.renewed name app conf →
      Admissible Pair Proper state (some app) conf
  | .abandoned _ => True

variable {Pair : AppConf → AppConf → Prop} {Proper : AppConf → Prop} {state : Deployment}
  {app other : Live} {entry also : Entry} {name : List UInt8}

/-! ### Searches -/

theorem Sound.entry_eq (sound : Sound Pair Proper state) (one : state.Runs app entry)
    (two : state.Runs app also) : entry = also :=
  List.inj_on_of_nodup_map sound.distinct one.listed two.listed (one.own.trans two.own.symm)

theorem Fine.live_eq (fine : Fine Pair Proper state) (one : app ∈ state.live)
    (two : other ∈ state.live) (same : app.conf = other.conf) : app = other :=
  List.inj_on_of_nodup_map fine.alone one two same

theorem Sound.node (sound : Sound Pair Proper state) (runs : state.Runs app entry) :
    Chain.node Entry.address state.list app.conf = some entry := by
  rw [← runs.own]
  exact Chain.node_of_mem sound.distinct runs.listed

/-- The search of some of the live applications ends, at the first one of the name. -/
theorem Sound.search_spec (sound : Sound Pair Proper state) (name : List UInt8)
    {apps : List Live} (live : ∀ app ∈ apps, app ∈ state.live) :
    ∃ found, search state.list name apps = some found ∧
      (∀ app, found = some app → app ∈ apps ∧ ∃ entry, state.Runs app entry ∧
        entry.name = name) ∧
      (found = none → ∀ app ∈ apps, ∀ entry, state.Runs app entry → entry.name ≠ name) := by
  induction apps with
  | nil =>
      exact ⟨none, rfl, nofun, fun _ _ absent => absurd absent List.not_mem_nil⟩
  | cons app rest ih =>
      obtain ⟨entry, runs⟩ := sound.present app (live app List.mem_cons_self)
      rw [search, sound.node runs]
      dsimp only
      by_cases named : entry.name = name
      · rw [if_pos named]
        refine ⟨some app, rfl, fun other same => ?_, nofun⟩
        obtain rfl := Option.some.inj same
        exact ⟨List.mem_cons_self, entry, runs, named⟩
      · rw [if_neg named]
        obtain ⟨found, search, hit, miss⟩ := ih fun other member =>
          live other (List.mem_cons_of_mem _ member)
        refine ⟨found, search, fun other same => ?_, fun empty other member also runs' => ?_⟩
        · obtain ⟨member, rest⟩ := hit other same
          exact ⟨List.mem_cons_of_mem _ member, rest⟩
        · rcases List.mem_cons.mp member with rfl | behind
          · rw [sound.entry_eq runs' runs]
            exact named
          · exact miss empty other behind also runs'

/-- The applications of a name are found. -/
theorem Sound.exist_spec (sound : Sound Pair Proper state) (name : List UInt8) :
    ∃ found, state.exist name = some found ∧
      (∀ app, found = some app → ∃ entry, state.Runs app entry ∧ entry.name = name) ∧
      (found = none → ∀ app entry, state.Runs app entry → entry.name ≠ name) := by
  obtain ⟨found, search, hit, miss⟩ := sound.search_spec name fun app member =>
    List.mem_append_left state.staticApp.toList member
  rw [exist, search]
  cases found with
  | some app =>
      refine ⟨some app, rfl, fun other same => ?_, nofun⟩
      obtain ⟨-, entry, runs, named⟩ := hit other same
      exact ⟨entry, runs, named⟩
  | none =>
      refine ⟨if name = staticName then state.staticApp else none, rfl, fun app same => ?_,
        fun empty app entry runs named => ?_⟩
      · split at same
        · next meant =>
            have member : app ∈ state.live :=
              List.mem_append_right _ (Option.mem_toList.mpr same)
            obtain ⟨entry, runs⟩ := sound.present app member
            exact ⟨entry, runs, (sound.static app entry same runs).trans meant.symm⟩
        · cases same
      · rcases List.mem_append.mp runs.live with member | last
        · exact miss rfl app member entry runs named
        · have static := Option.mem_toList.mp last
          rw [← named, sound.static app entry static runs, if_pos rfl, static] at empty
          cases empty

/-! ### Changes -/

/-- An application after the state of one was set. -/
def marked (app : Live) (restart : Bool) (other : Live) : Live :=
  if other = app then { app with restart } else other

theorem marked_conf (restart : Bool) : (marked app restart other).conf = other.conf := by
  unfold marked
  split
  · next same => rw [same]
  · rfl

theorem setRestart_live (restart : Bool) :
    (setRestart state app restart).live = state.live.map (marked app restart) := by
  rw [live, live, List.map_append]
  cases shape : state.staticApp with
  | none => simp only [setRestart, shape, Option.map_none, Option.toList_none, List.map_nil]; rfl
  | some static =>
      simp only [setRestart, shape, Option.map_some, Option.toList_some, List.map_cons,
        List.map_nil]
      rfl

/-- The entry at an address is changed, and the state of one application. -/
def change (state : Deployment) (address : Nat) (edit : Entry → Entry) (app : Live)
    (restart : Bool) : Deployment :=
  setRestart { state with list := setConf state.list address edit } app restart

/-- An entry after the one at an address was changed. -/
def edited (address : Nat) (edit : Entry → Entry) (entry : Entry) : Entry :=
  if entry.address = address then edit entry else entry

variable {address : Nat} {edit : Entry → Entry} {restart : Bool}

theorem edited_address (same : ∀ entry, (edit entry).address = entry.address) :
    (edited address edit entry).address = entry.address := by
  unfold edited
  split
  · exact same entry
  · rfl

theorem change_runs (same : ∀ entry, (edit entry).address = entry.address)
    (runs : (change state address edit app restart).Runs other also) :
    ∃ before entry, state.Runs before entry ∧ other = marked app restart before ∧
      also = edited address edit entry := by
  obtain ⟨live, listed, own⟩ := runs
  rw [change, setRestart_live] at live
  obtain ⟨before, member, rfl⟩ := List.mem_map.mp live
  obtain ⟨entry, inside, rfl⟩ := List.mem_map.mp listed
  rw [marked_conf] at own
  exact ⟨before, entry, ⟨member, inside, (edited_address same).symm.trans own⟩, rfl, rfl⟩

/-- A change keeps what is kept by the entry it is about. -/
theorem Sound.changed (sound : Sound Pair Proper state)
    (symm : ∀ first second, Pair first second → Pair second first)
    (same : ∀ entry, (edit entry).address = entry.address ∧ (edit entry).name = entry.name)
    (fits : ∀ other entry, state.Runs other entry → entry.address = address →
      Proper (edit entry).conf ∧ ∀ another also, state.Runs another also → another ≠ other →
        Pair (edit entry).conf also.conf)
    (ready : ∀ other entry, state.Runs other entry → (marked app restart other).restart = true →
      (edited address edit entry).new.isSome = true) :
    Sound Pair Proper (change state address edit app restart) := by
  have keeps : ∀ entry, (edit entry).address = entry.address := fun entry => (same entry).1
  have confs : (change state address edit app restart).live.map Live.conf =
      state.live.map Live.conf := by
    rw [Deployment.change, setRestart_live, List.map_map]
    exact List.map_congr_left fun other _ => marked_conf restart
  have addresses : (setConf state.list address edit).map Entry.address =
      state.list.map Entry.address := by
    rw [setConf, List.map_map]
    exact List.map_congr_left fun entry _ => edited_address keeps
  refine ⟨⟨?_, ?_, ?_, ?_⟩, ?_, ?_, ?_, ?_⟩
  · rw [confs]
    exact sound.alone
  · intro after live
    have live' := live
    rw [change, setRestart_live] at live'
    obtain ⟨before, member, rfl⟩ := List.mem_map.mp live'
    obtain ⟨entry, runs⟩ := sound.present before member
    refine ⟨edited address edit entry, live, List.mem_map_of_mem runs.listed, ?_⟩
    rw [edited_address keeps, marked_conf]
    exact runs.own
  · intro after also runs
    obtain ⟨before, entry, was, rfl, rfl⟩ := change_runs keeps runs
    unfold edited
    split
    · next here => exact (fits before entry was here).1
    · exact sound.proper before entry was
  · intro after also after' also' runs runs' differ
    obtain ⟨before, entry, was, rfl, rfl⟩ := change_runs keeps runs
    obtain ⟨before', entry', was', rfl, rfl⟩ := change_runs keeps runs'
    have differ : before ≠ before' := fun equal => differ (congrArg _ equal)
    unfold edited
    split
    · next here =>
        split
        · next there =>
            have equal := was.own.symm.trans (here.trans (there.symm.trans was'.own))
            exact absurd (sound.live_eq was.live was'.live equal) differ
        · exact (fits before entry was here).2 before' entry' was' differ.symm
    · split
      · next there => exact symm _ _ ((fits before' entry' was' there).2 before entry was differ)
      · exact sound.pair before entry before' entry' was was' differ
  · exact addresses ▸ sound.distinct
  · intro also listed
    obtain ⟨entry, inside, rfl⟩ := List.mem_map.mp listed
    exact (edited_address keeps).trans_lt (sound.below entry inside)
  · intro after also runs restarts
    obtain ⟨before, entry, was, rfl, rfl⟩ := change_runs keeps runs
    exact ready before entry was restarts
  · intro after also static runs
    obtain ⟨first, given, marks⟩ := Option.map_eq_some_iff.mp static
    obtain ⟨before, entry, was, rfl, rfl⟩ := change_runs keeps runs
    have equal : before = first := by
      have member : first ∈ state.live :=
        List.mem_append_right _ (Option.mem_toList.mpr given)
      refine sound.live_eq was.live member ?_
      have confs := congrArg Live.conf marks
      rw [marked_conf] at confs
      exact confs.symm.trans (marked_conf restart)
    rw [← equal] at given
    have named := sound.static before entry given was
    unfold edited
    split
    · exact (same entry).2.trans named
    · exact named

/-! ### Steps -/

/-- The live applications after one more was inserted. -/
theorem appInsert_live (state : Deployment) (entry : Entry) :
    (((appInsert state entry).live).Sublist
      (⟨entry.address, false⟩ :: state.live)) ∨
    ((appInsert state entry).live = state.apps ++ [⟨entry.address, false⟩]) := by
  unfold appInsert
  split
  · exact .inr rfl
  · exact .inl (.refl _)

theorem mem_appInsert {state : Deployment} {entry : Entry}
    (member : app ∈ (appInsert state entry).live) :
    app = ⟨entry.address, false⟩ ∨ app ∈ state.live := by
  rcases appInsert_live state entry with part | same
  · exact List.mem_cons.mp (part.mem member)
  · rw [same] at member
    rcases List.mem_append.mp member with old | new
    · exact .inr (List.mem_append_left _ old)
    · exact .inl (List.mem_singleton.mp new)

theorem appInsert_alone {state : Deployment} {entry : Entry}
    (alone : (state.live.map Live.conf).Nodup)
    (fresh : ∀ app ∈ state.live, app.conf ≠ entry.address) :
    ((appInsert state entry).live.map Live.conf).Nodup := by
  rcases appInsert_live state entry with part | same
  · refine List.Nodup.sublist (part.map _) (List.nodup_cons.mpr ⟨?_, alone⟩)
    intro member
    obtain ⟨app, live, same⟩ := List.mem_map.mp member
    exact fresh app live same
  · rw [same, List.map_append, List.nodup_append]
    refine ⟨alone.sublist ((List.sublist_append_left _ _).map _), List.nodup_singleton _, ?_⟩
    intro conf member other last equal
    obtain ⟨app, old, rfl⟩ := List.mem_map.mp member
    have own := fresh app (List.mem_append_left _ old)
    rw [List.mem_singleton.mp last] at equal
    exact own equal

theorem appInsert_list (state : Deployment) (entry : Entry) :
    (appInsert state entry).list = state.list ∧ (appInsert state entry).next = state.next := by
  unfold appInsert
  split
  · exact ⟨rfl, rfl⟩
  · exact ⟨rfl, rfl⟩

theorem appInsert_static {state : Deployment} {entry : Entry}
    (static : (appInsert state entry).staticApp = some app) :
    state.staticApp = some app ∨ (app = ⟨entry.address, false⟩ ∧ entry.name = staticName) := by
  unfold appInsert at static
  split at static
  · next named => exact .inr ⟨(Option.some.inj static).symm, named⟩
  · exact .inl static

/-- A new application goes live. -/
theorem Sound.started (sound : Sound Pair Proper state)
    (symm : ∀ first second, Pair first second → Pair second first) {root : Bool}
    {file : Option (List AppNode)}
    (permits : ∀ conf, readNew root state name file = some conf →
      Admissible Pair Proper state none conf) :
    Sound Pair Proper (start root state name file).1 := by
  unfold start
  cases read : readNew root state name file with
  | none => exact sound
  | some conf =>
      obtain ⟨proper, pairs⟩ := permits conf read
      dsimp only
      obtain ⟨list, next⟩ := appInsert_list
        { state with list := state.entryOf conf :: state.list, next := state.next + 1 }
        (state.entryOf conf)
      have fresh : ∀ app ∈ state.live, app.conf ≠ state.next := by
        intro app live same
        obtain ⟨entry, runs⟩ := sound.present app live
        have below := sound.below entry runs.listed
        rw [runs.own, same] at below
        exact Nat.lt_irrefl _ below
      -- a live application with its configuration is the new one, or was live before
      have cases : ∀ app entry, (appInsert
          { state with list := state.entryOf conf :: state.list, next := state.next + 1 }
          (state.entryOf conf)).Runs app entry →
            (app = ⟨state.next, false⟩ ∧ entry = state.entryOf conf) ∨ state.Runs app entry := by
        intro app entry runs
        have listed := runs.listed
        rw [list] at listed
        rcases mem_appInsert runs.live with rfl | old
        · rcases List.mem_cons.mp listed with rfl | behind
          · exact .inl ⟨rfl, rfl⟩
          · exact absurd runs.own (Nat.ne_of_lt (sound.below entry behind))
        · rcases List.mem_cons.mp listed with rfl | behind
          · exact absurd runs.own.symm (fresh app old)
          · exact .inr ⟨old, behind, runs.own⟩
      refine ⟨⟨appInsert_alone sound.alone fresh, ?_, ?_, ?_⟩, ?_, ?_, ?_, ?_⟩
      · intro app live
        rcases mem_appInsert live with rfl | old
        · exact ⟨state.entryOf conf, live, list ▸ List.mem_cons_self, rfl⟩
        · obtain ⟨entry, runs⟩ := sound.present app old
          exact ⟨entry, live, list ▸ List.mem_cons_of_mem _ runs.listed, runs.own⟩
      · intro app entry runs
        rcases cases app entry runs with ⟨rfl, rfl⟩ | was
        · exact proper
        · exact sound.proper app entry was
      · intro app entry other also runs runs' differ
        rcases cases app entry runs with ⟨rfl, rfl⟩ | was
        · rcases cases other also runs' with ⟨rfl, rfl⟩ | was'
          · exact absurd rfl differ
          · exact pairs other also was' nofun
        · rcases cases other also runs' with ⟨rfl, rfl⟩ | was'
          · exact symm _ _ (pairs app entry was nofun)
          · exact sound.pair app entry other also was was' differ
      · rw [list, List.map_cons, List.nodup_cons]
        refine ⟨fun member => ?_, sound.distinct⟩
        obtain ⟨entry, listed, same⟩ := List.mem_map.mp member
        exact Nat.ne_of_lt (sound.below entry listed) same
      · intro entry member
        rw [list] at member
        rw [next]
        rcases List.mem_cons.mp member with rfl | behind
        · exact Nat.lt_succ_self _
        · exact (sound.below entry behind).trans (Nat.lt_succ_self _)
      · intro app entry runs restarts
        rcases cases app entry runs with ⟨rfl, rfl⟩ | was
        · cases restarts
        · exact sound.ready app entry was restarts
      · intro app entry static runs
        rcases appInsert_static static with old | ⟨rfl, named⟩
        · rcases cases app entry runs with ⟨rfl, rfl⟩ | was
          · have live : (⟨state.next, false⟩ : Live) ∈ state.live :=
              List.mem_append_right _ (Option.mem_toList.mpr old)
            exact absurd rfl (fresh _ live)
          · exact sound.static app entry old was
        · rcases cases _ entry runs with ⟨-, rfl⟩ | was
          · exact named
          · exact absurd rfl (fresh _ was.live)

/-- Fewer applications and configurations, each application still with its own. -/
theorem Sound.fewer (sound : Sound Pair Proper state) {left : Deployment}
    (live : left.live.Sublist state.live) (list : left.list.Sublist state.list)
    (next : left.next = state.next)
    (static : ∀ app, left.staticApp = some app → state.staticApp = some app)
    (present : ∀ app ∈ left.live, ∀ entry, state.Runs app entry → entry ∈ left.list) :
    Sound Pair Proper left := by
  have was : ∀ app entry, left.Runs app entry → state.Runs app entry := fun app entry runs =>
    ⟨live.mem runs.live, list.mem runs.listed, runs.own⟩
  refine ⟨⟨sound.alone.sublist (live.map _), ?_, ?_, ?_⟩, ?_, ?_, ?_, ?_⟩
  · intro app member
    obtain ⟨entry, runs⟩ := sound.present app (live.mem member)
    exact ⟨entry, member, present app member entry runs, runs.own⟩
  · exact fun app entry runs => sound.proper app entry (was app entry runs)
  · intro app entry other also runs runs' differ
    exact sound.pair app entry other also (was app entry runs) (was other also runs') differ
  · exact sound.distinct.sublist (list.map _)
  · intro entry member
    rw [next]
    exact sound.below entry (list.mem member)
  · exact fun app entry runs => sound.ready app entry (was app entry runs)
  · exact fun app entry own runs => sound.static app entry (static app own) (was app entry runs)

theorem find_of_removed (listed : entry ∈ state.list) (gone : entry ∉ confRemove state.list name) :
    (state.list.find? fun entry => entry.name = name) = some entry :=
  Chain.find_of_removed listed gone

theorem Sound.removed (sound : Sound Pair Proper state) (meant : state.Meant name) :
    ∃ after outcome, state.remove name = some (after, outcome) ∧ Sound Pair Proper after := by
  obtain ⟨found, searched, hit, -⟩ := sound.search_spec name fun app member =>
    List.mem_append_left state.staticApp.toList member
  have exist : state.exist name =
      some (found.or (if name = staticName then state.staticApp else none)) := by
    rw [Deployment.exist, searched]
    rfl
  have part : (confRemove state.list name).Sublist state.list :=
    Chain.remove_sublist state.list name
  have apart := List.nodup_append.mp (List.Nodup.of_map _ sound.alone)
  rw [remove, searched]
  cases found with
  | some app =>
      refine ⟨_, _, rfl, sound.fewer (List.Sublist.append_right List.erase_sublist _) part rfl
        (fun _ same => same) fun other live entry runs => ?_⟩
      by_contra gone
      have found := meant other entry runs (find_of_removed runs.listed gone)
      rw [exist, Option.some_or] at found
      obtain rfl := Option.some.inj (Option.some.inj found)
      rcases List.mem_append.mp live with old | last
      · exact List.Nodup.not_mem_erase apart.1 old
      · exact apart.2.2 _ (hit _ rfl).1 _ last rfl
  | none =>
      dsimp only
      split
      · next static =>
          refine ⟨_, _, rfl, sound.fewer ?_ part rfl nofun fun other live entry runs => ?_⟩
          · exact List.Sublist.append_left (List.nil_sublist _) _
          · by_contra gone
            have found := meant other entry runs (find_of_removed runs.listed gone)
            rw [exist, Option.none_or, if_pos static] at found
            have own := Option.mem_toList.mpr (Option.some.inj found)
            have live : other ∈ state.apps := by
              rcases List.mem_append.mp live with old | last
              · exact old
              · cases last
            exact apart.2.2 other live other own rfl
      · exact ⟨state, .refused, rfl, sound⟩

/-- The application named by a reload waits for a worker with the new configuration. -/
theorem Sound.reloaded (sound : Sound Pair Proper state)
    (symm : ∀ first second, Pair first second → Pair second first) {root : Bool}
    {file : Option (List AppNode)} (permits : Permits Pair Proper root (.reload name file) state) :
    ∃ after outcome, state.reloadCb root name file = some (after, outcome) ∧
      Sound Pair Proper after := by
  obtain ⟨found, exist, -, -⟩ := sound.exist_spec name
  rw [reloadCb, exist]
  cases found with
  | none => exact ⟨_, _, rfl, sound.started symm permits.1⟩
  | some app =>
      obtain ⟨entry, runs, first⟩ := permits.2 app exist
      rw [first]
      cases accept : confAccept root state.list name file with
      | none => exact ⟨state, .refused, rfl, sound⟩
      | some conf =>
          dsimp only
          have kept : Sound Pair Proper
              (change state entry.address (fun entry => { entry with new := some conf }) app
                true) := by
            have same : ∀ also : Entry, ({ also with new := some conf } : Entry).address =
                also.address ∧ ({ also with new := some conf } : Entry).name = also.name :=
              fun _ => ⟨rfl, rfl⟩
            apply sound.changed symm same
            · intro other also was _
              exact ⟨sound.proper other also was, fun another more runs' differ =>
                sound.pair other also another more was runs' differ.symm⟩
            · intro other also was restarts
              unfold edited
              split
              · rfl
              · next elsewhere =>
                  have old : other.restart = true := by
                    unfold marked at restarts
                    split at restarts
                    · next same =>
                        rw [same] at was
                        rw [sound.entry_eq was runs] at elsewhere
                        exact absurd rfl elsewhere
                    · exact restarts
                  exact sound.ready other also was old
          have own : (change state entry.address (fun entry => { entry with new := some conf }) app
              true).Runs (marked app true app) { entry with new := some conf } := by
            refine ⟨?_, ?_, ?_⟩
            · rw [change, setRestart_live]
              exact List.mem_map_of_mem runs.live
            · refine List.mem_map.mpr ⟨entry, runs.listed, ?_⟩
              rw [if_pos rfl]
            · rw [marked_conf]
              exact runs.own
          have node := kept.node own
          rw [marked_conf] at node
          have node : Chain.node Entry.address (setConf state.list entry.address
            fun entry => { entry with new := some conf }) app.conf =
              some { entry with new := some conf } := node
          rw [node, Option.bind_some]
          exact ⟨_, _, rfl, kept⟩

/-- Setting the state of the application back, with its entry changed and no longer a new one. -/
theorem Sound.settled (sound : Sound Pair Proper state)
    (symm : ∀ first second, Pair first second → Pair second first)
    (runs : state.Runs app entry) {edit : Entry → Entry}
    (same : ∀ entry, (edit entry).address = entry.address ∧ (edit entry).name = entry.name)
    (fits : Admissible Pair Proper state (some app) (edit entry).conf) :
    Sound Pair Proper (change state app.conf edit app false) := by
  have meant : ∀ other also, state.Runs other also → also.address = app.conf → other = app :=
    fun other also was here => sound.live_eq was.live runs.live (was.own.symm.trans here)
  apply sound.changed symm same
  · intro other also was here
    obtain rfl := meant other also was here
    rw [sound.entry_eq was runs]
    exact ⟨fits.1, fun another more runs' differ =>
      fits.2 another more runs' fun equal => differ (Option.some.inj equal)⟩
  · intro other also was restarts
    unfold marked at restarts
    split at restarts
    · cases restarts
    · next differ =>
        unfold edited
        split
        · next here => exact absurd (meant other also was here) differ
        · exact sound.ready other also was restarts

theorem Sound.restarted (sound : Sound Pair Proper state)
    (symm : ∀ first second, Pair first second → Pair second first)
    (permits : ∀ app conf, state.renewed name app conf →
      Admissible Pair Proper state (some app) conf) :
    ∃ after outcome, state.restarted name = some (after, outcome) ∧ Sound Pair Proper after := by
  obtain ⟨found, exist, hit, -⟩ := sound.exist_spec name
  rw [Deployment.restarted, exist]
  cases found with
  | none => exact ⟨state, .refused, rfl, sound⟩
  | some app =>
      dsimp only
      split
      · next restarts =>
          obtain ⟨entry, runs, -⟩ := hit app rfl
          obtain ⟨new, given⟩ := Option.isSome_iff_exists.mp (sound.ready app entry runs restarts)
          rw [sound.node runs, Option.bind_some, given]
          exact ⟨_, _, rfl, sound.settled symm runs (fun _ => ⟨rfl, rfl⟩)
            (permits app _ ⟨exist, restarts, entry, new, runs, given, rfl⟩)⟩
      · exact ⟨state, .refused, rfl, sound⟩

theorem Sound.abandoned (sound : Sound Pair Proper state)
    (symm : ∀ first second, Pair first second → Pair second first) (conf : Nat) :
    ∃ after outcome, state.abandoned conf = some (after, outcome) ∧ Sound Pair Proper after := by
  unfold Deployment.abandoned
  cases found : state.live.find? fun app => app.conf = conf with
  | none => exact ⟨state, .refused, rfl, sound⟩
  | some app =>
      dsimp only
      split
      · have here := List.find?_some found
        rw [decide_eq_true_eq] at here
        subst here
        obtain ⟨entry, runs⟩ := sound.present app (List.mem_of_find?_eq_some found)
        rw [sound.node runs]
        exact ⟨_, _, rfl, sound.settled symm runs (fun _ => ⟨rfl, rfl⟩)
          ⟨sound.proper app entry runs, fun other also was differ =>
            sound.pair app entry other also runs was fun equal => differ (congrArg _ equal.symm)⟩⟩
      · exact ⟨state, .refused, rfl, sound⟩

/-- An event that is permitted leaves what the live applications must not share as it was. -/
theorem Sound.stepped (sound : Sound Pair Proper state)
    (symm : ∀ first second, Pair first second → Pair second first) {root : Bool} {event : Event}
    (permits : Permits Pair Proper root event state) :
    ∃ after outcome, state.step root event = some (after, outcome) ∧ Sound Pair Proper after := by
  cases event with
  | add name file =>
      obtain ⟨found, exist, -, -⟩ := sound.exist_spec name
      rw [step, addCb, exist]
      cases found with
      | none => exact ⟨_, _, rfl, sound.started symm permits⟩
      | some app => exact ⟨state, .refused, rfl, sound⟩
  | remove name => exact sound.removed permits
  | reload name file => exact sound.reloaded symm permits
  | restarted name => exact sound.restarted symm permits
  | abandoned conf => exact sound.abandoned symm conf

/-- In a run of permitted events no event touches what was freed, and no two live applications
share what they must not. -/
theorem Sound.run {start : Deployment} (sound : Sound Pair Proper start)
    (symm : ∀ first second, Pair first second → Pair second first) (root : Bool)
    {events : Nat → Event}
    (permits : ∀ count state, Machine.after (Machine.attempt (perform root)) events (some start)
      count = some state → Permits Pair Proper root (events count) state) (count : Nat) :
    ∃ state, Machine.after (Machine.attempt (perform root)) events (some start) count =
      some state ∧ Sound Pair Proper state := by
  refine Machine.attempt_safe (Sound Pair Proper) (Permits Pair Proper root) sound ?_ permits count
  intro event state kept permitted
  obtain ⟨after, outcome, stepped, still⟩ := kept.stepped symm permitted
  refine ⟨after, ?_, still⟩
  rw [perform, stepped]
  rfl

end Deployment

end Configurator
