import Webroar.Analyzer.Conservation

/-! # The message analyzer

The analyzer reads messages, adds each one to the samples of its application and of its URL, and
writes the samples whose windows are over. What is in the tables and in memory adds up to what the
messages count, in both models.
-/

namespace Analyzer

/-- What is outside of the analyzer, and the length of a window. -/
structure Setting where
  db : Database
  samplingRate : Int

/-- `MessageAnalyzer`, and the table of the applications. -/
structure MessageAnalyzer (τ : Type) where
  table : Hash Nat String
  apps : Hash String Nat
  applicationSamples : AppTimeSample.Store τ
  urlSamples : UrlTimeSample.Store τ

/-- What happens to the analyzer. The time is looked at anew for each sample. -/
inductive Event (τ : Type) where
  | read (item : Item τ)
  | processStaleSamples (appNow : Nat → Int) (urlNow : Nat × String → Int)
  | appCreated (appId : Nat) (name : String)

namespace MessageAnalyzer

variable {τ : Type}

/-- `reload_apps`. -/
def reloadApps (analyzer : MessageAnalyzer τ) : MessageAnalyzer τ :=
  { analyzer with
    apps := analyzer.table.entries.foldl (fun apps app => apps.set app.2 app.1) .empty
    applicationSamples :=
      { analyzer.applicationSamples with
        samples := analyzer.table.map fun appId _ => analyzer.applicationSamples.sample? appId }
    urlSamples :=
      { analyzer.urlSamples with
        samples := analyzer.urlSamples.samples.filter fun key => key.1 ∈ analyzer.table.keys } }

/-- An analyzer that has read nothing, before there are rows. -/
def blank (table : Hash Nat String) : MessageAnalyzer τ :=
  { table, apps := .empty, applicationSamples := ⟨.empty, []⟩, urlSamples := ⟨.empty, []⟩ }

/-- The analyzer after `load_apps`. -/
def start (table : Hash Nat String) : MessageAnalyzer τ := (blank table).reloadApps

/-- The applications are read again unless this one is known. -/
def loaded (analyzer : MessageAnalyzer τ) (appName : String) : MessageAnalyzer τ :=
  if (analyzer.apps.get appName).isSome then analyzer else analyzer.reloadApps

variable [AddCommMonoid τ]

/-- A message is added to the samples of its application and of its URL. -/
def addToSamples (setting : Setting) (analyzer : MessageAnalyzer τ) (appId : Nat)
    (message : UrlMetric τ) : MessageAnalyzer τ :=
  { analyzer with
    applicationSamples := AppTimeSample.addToSample setting.db setting.samplingRate
      analyzer.applicationSamples appId message.totals message.wallTime
    urlSamples := UrlTimeSample.addToSample setting.db setting.samplingRate analyzer.urlSamples
      (appId, message.url) message.totals message.dbTimeBreakup message.wallTime }

/-- A turn of the loop of `process_messages`, and whether it goes on. -/
def processItem (setting : Setting) (analyzer : MessageAnalyzer τ) :
    Item τ → MessageAnalyzer τ × Bool
  | .other => (analyzer, true)
  | .urlMetric message =>
      match (analyzer.loaded message.appName).apps.get message.appName with
      | none => (analyzer.loaded message.appName, false)
      | some appId =>
          ((analyzer.loaded message.appName).addToSamples setting appId message, true)

/-- `process_messages`, and what it leaves in the queue. -/
def processMessages (setting : Setting) (analyzer : MessageAnalyzer τ) :
    List (Item τ) → MessageAnalyzer τ × List (Item τ)
  | [] => (analyzer, [])
  | item :: rest =>
      match analyzer.processItem setting item with
      | (next, true) => next.processMessages setting rest
      | (next, false) => (next, rest)

/-- `process_stale_samples`. -/
def processStaleSamples (setting : Setting) (analyzer : MessageAnalyzer τ) (appNow : Nat → Int)
    (urlNow : Nat × String → Int) : MessageAnalyzer τ :=
  { analyzer with
    applicationSamples := AppTimeSample.writeStaleSamples setting.samplingRate appNow
      analyzer.applicationSamples
    urlSamples := UrlTimeSample.writeStaleSamples setting.samplingRate urlNow analyzer.urlSamples }

/-- `write_all_samples`. -/
def writeAllSamples (setting : Setting) (analyzer : MessageAnalyzer τ) : MessageAnalyzer τ :=
  { analyzer with
    applicationSamples := AppTimeSample.writeAllSamples setting.samplingRate
      analyzer.applicationSamples
    urlSamples := UrlTimeSample.writeAllSamples setting.samplingRate analyzer.urlSamples }

/-- An application is added to the table. -/
def create (analyzer : MessageAnalyzer τ) (appId : Nat) (name : String) : MessageAnalyzer τ :=
  if (analyzer.table.get appId).isSome then analyzer
  else { analyzer with table := analyzer.table.set appId name }

/-- What an event does. -/
def step (setting : Setting) (analyzer : MessageAnalyzer τ) : Event τ → MessageAnalyzer τ
  | .read item => (analyzer.processItem setting item).1
  | .processStaleSamples appNow urlNow => analyzer.processStaleSamples setting appNow urlNow
  | .appCreated appId name => analyzer.create appId name

/-- The events one after the other. -/
def run (setting : Setting) (analyzer : MessageAnalyzer τ) (events : List (Event τ)) :
    MessageAnalyzer τ :=
  events.foldl (step setting) analyzer

/-- The message that an event processes, if its application is known, with the id of that. -/
def handled (analyzer : MessageAnalyzer τ) : Event τ → Option (Nat × UrlMetric τ)
  | .read (.urlMetric message) =>
      ((analyzer.loaded message.appName).apps.get message.appName).map (·, message)
  | .read .other => none
  | .processStaleSamples _ _ => none
  | .appCreated _ _ => none

/-- The messages that are processed in a run. -/
def processed (setting : Setting) (analyzer : MessageAnalyzer τ) :
    List (Event τ) → List (Nat × UrlMetric τ)
  | [] => []
  | event :: events =>
      (analyzer.handled event).toList ++ (analyzer.step setting event).processed setting events

/-- What messages count for an application. -/
def appSum (messages : List (Nat × UrlMetric τ)) (appId : Nat) : Totals τ :=
  (messages.map fun message => if message.1 = appId then message.2.totals else 0).sum

/-- What messages count for some of the URLs, in all and for each method. -/
def urlSum (messages : List (Nat × UrlMetric τ)) (own : Nat × String → Bool) :
    Totals τ × (String → τ) :=
  (messages.map fun message =>
    if own (message.1, message.2.url) then (message.2.totals, message.2.breakup) else 0).sum

/-- The queue is read item by item, up to the first one whose application is not known. -/
theorem processMessages_eq_run (setting : Setting) (analyzer : MessageAnalyzer τ)
    (items : List (Item τ)) :
    ∃ taken, items = taken ++ (analyzer.processMessages setting items).2 ∧
      (analyzer.processMessages setting items).1 = analyzer.run setting (taken.map .read) := by
  induction items generalizing analyzer with
  | nil => exact ⟨[], rfl, rfl⟩
  | cons item rest ih =>
      rw [processMessages]
      split
      case h_1 next went =>
        obtain ⟨taken, items, result⟩ := ih next
        refine ⟨item :: taken, by rw [List.cons_append, ← items], ?_⟩
        have first : analyzer.step setting (.read item) = next := congrArg Prod.fst went
        rw [result, List.map_cons, run, run, List.foldl_cons, first]
      case h_2 next went =>
        refine ⟨[item], rfl, ?_⟩
        have first : analyzer.step setting (.read item) = next := congrArg Prod.fst went
        rw [List.map_singleton, run, List.foldl_cons, first, List.foldl_nil]

/-! ### Applications are not lost -/

/-- Whatever is kept in memory belongs to an application of the table. -/
structure Known (analyzer : MessageAnalyzer τ) : Prop where
  apps : ∀ name appId, analyzer.apps.get name = some appId → appId ∈ analyzer.table.keys
  applications : ∀ appId ∈ analyzer.applicationSamples.samples.keys, appId ∈ analyzer.table.keys
  urls : ∀ key ∈ analyzer.urlSamples.samples.keys, key.1 ∈ analyzer.table.keys

/-- Each id under a name is one of the list. -/
theorem mem_of_apps {entries : List (Nat × String)} {apps : Hash String Nat} {ids : List Nat}
    (before : ∀ name appId, apps.get name = some appId → appId ∈ ids)
    (listed : ∀ entry ∈ entries, entry.1 ∈ ids) (name : String) (appId : Nat)
    (found : (entries.foldl (fun apps app => apps.set app.2 app.1) apps).get name = some appId) :
    appId ∈ ids := by
  induction entries generalizing apps with
  | nil => exact before name appId found
  | cons entry rest ih =>
      refine ih ?_ (fun other member => listed other (List.mem_cons_of_mem _ member)) found
      intro other id present
      rw [Hash.get_set] at present
      by_cases same : entry.2 = other
      · rw [if_pos same] at present
        injection present with present
        rw [← present]
        exact listed entry (List.mem_cons_self ..)
      · rw [if_neg same] at present
        exact before other id present

omit [AddCommMonoid τ] in
theorem known_reloadApps (analyzer : MessageAnalyzer τ) : analyzer.reloadApps.Known := by
  refine ⟨?_, ?_, ?_⟩
  · intro name appId found
    have none : ∀ name appId, (Hash.empty : Hash String Nat).get name = some appId →
        appId ∈ analyzer.reloadApps.table.keys := nofun
    refine mem_of_apps none ?_ name appId found
    intro entry member
    exact List.mem_map_of_mem member
  · intro appId member
    exact Hash.mem_keys_map.mp member
  · intro key member
    exact of_decide_eq_true (Hash.mem_keys_filter.mp member).1

/-- As no application is lost, neither is a sample of one. -/
theorem Known.booked {analyzer : MessageAnalyzer τ} (known : analyzer.Known) :
    (∀ appId, AppTimeSample.booked analyzer.reloadApps.applicationSamples appId =
      AppTimeSample.booked analyzer.applicationSamples appId) ∧
    ∀ own, UrlTimeSample.booked analyzer.reloadApps.urlSamples own =
      UrlTimeSample.booked analyzer.urlSamples own := by
  constructor
  · intro appId
    have sum := Hash.sum_eq_of_subset (f := Ledger.weighSample (AppTimeSample.weigh appId))
      analyzer.table.nodup known.applications
    have samples : analyzer.reloadApps.applicationSamples.samples.sum
        (Ledger.weighSample (AppTimeSample.weigh appId)) =
        analyzer.applicationSamples.samples.sum
          (Ledger.weighSample (AppTimeSample.weigh appId)) := by
      rw [← sum]
      simp only [reloadApps, Hash.sum, Hash.map, Hash.keys, List.map_map]
      congr 1
      apply List.map_congr_left
      intro app _
      simp only [Function.comp_apply, Ledger.sample?]
      cases analyzer.applicationSamples.samples.get app.1 with
      | none => rfl
      | some sample => rfl
    exact congrArg _ samples
  · intro own
    have same : analyzer.urlSamples.samples.filter (fun key => key.1 ∈ analyzer.table.keys) =
        analyzer.urlSamples.samples := by
      apply Hash.filter_eq_self
      intro key member
      exact decide_eq_true (known.urls key member)
    simp only [reloadApps, same]

/-- The same holds wherever the applications are read only if they have to be. -/
theorem Known.loaded {analyzer : MessageAnalyzer τ} (known : analyzer.Known) (appName : String) :
    (analyzer.loaded appName).Known ∧
    (∀ appId, AppTimeSample.booked (analyzer.loaded appName).applicationSamples appId =
      AppTimeSample.booked analyzer.applicationSamples appId) ∧
    ∀ own, UrlTimeSample.booked (analyzer.loaded appName).urlSamples own =
      UrlTimeSample.booked analyzer.urlSamples own := by
  unfold MessageAnalyzer.loaded
  split
  · exact ⟨known, fun _ => rfl, fun _ => rfl⟩
  · exact ⟨known_reloadApps analyzer, known.booked⟩

theorem Known.addToSamples {analyzer : MessageAnalyzer τ} (known : analyzer.Known)
    (setting : Setting) {appId : Nat} (member : appId ∈ analyzer.table.keys)
    (message : UrlMetric τ) : (analyzer.addToSamples setting appId message).Known := by
  refine ⟨known.apps, ?_, ?_⟩
  · intro other present
    obtain same | before := AppTimeSample.mem_keys_addToSample present
    · rw [same]
      exact member
    · exact known.applications other before
  · intro key present
    obtain same | before := UrlTimeSample.mem_keys_addToSample present
    · rw [same]
      exact member
    · exact known.urls key before

omit [AddCommMonoid τ] in
theorem Known.create {analyzer : MessageAnalyzer τ} (known : analyzer.Known) (appId : Nat)
    (name : String) : (analyzer.create appId name).Known := by
  unfold MessageAnalyzer.create
  split
  · exact known
  · exact ⟨fun name' appId' found => Hash.mem_keys_set.mpr (.inr (known.apps name' appId' found)),
      fun appId' member => Hash.mem_keys_set.mpr (.inr (known.applications appId' member)),
      fun key member => Hash.mem_keys_set.mpr (.inr (known.urls key member))⟩

/-- A message of an unknown application is not processed. -/
theorem step_unknown (setting : Setting) {analyzer : MessageAnalyzer τ} {message : UrlMetric τ}
    (unknown : (analyzer.loaded message.appName).apps.get message.appName = none) :
    analyzer.step setting (.read (.urlMetric message)) = analyzer.loaded message.appName ∧
      analyzer.handled (.read (.urlMetric message)) = none := by
  simp only [step, processItem, handled, unknown, Option.map_none, and_self]

theorem step_known (setting : Setting) {analyzer : MessageAnalyzer τ} {message : UrlMetric τ}
    {appId : Nat}
    (known : (analyzer.loaded message.appName).apps.get message.appName = some appId) :
    analyzer.step setting (.read (.urlMetric message)) =
        (analyzer.loaded message.appName).addToSamples setting appId message ∧
      analyzer.handled (.read (.urlMetric message)) = some (appId, message) := by
  simp only [step, processItem, handled, known, Option.map_some, and_self]

/-- An event keeps what there is, and the message that it processes is counted once. -/
theorem Known.step {analyzer : MessageAnalyzer τ} (known : analyzer.Known) (setting : Setting)
    (event : Event τ) :
    (analyzer.step setting event).Known ∧
    (∀ appId, AppTimeSample.booked (analyzer.step setting event).applicationSamples appId =
      AppTimeSample.booked analyzer.applicationSamples appId +
        appSum (analyzer.handled event).toList appId) ∧
    ∀ own, UrlTimeSample.booked (analyzer.step setting event).urlSamples own =
      UrlTimeSample.booked analyzer.urlSamples own +
        urlSum (analyzer.handled event).toList own := by
  cases event with
  | read item =>
      cases item with
      | other => exact ⟨known, fun _ => (add_zero _).symm, fun _ => (add_zero _).symm⟩
      | urlMetric message =>
          obtain ⟨kept, apps, urls⟩ := known.loaded message.appName
          cases found : (analyzer.loaded message.appName).apps.get message.appName with
          | none =>
              obtain ⟨next, nothing⟩ := step_unknown setting found
              rw [next, nothing]
              refine ⟨kept, fun appId => ?_, fun own => ?_⟩
              · exact (apps appId).trans (add_zero _).symm
              · exact (urls own).trans (add_zero _).symm
          | some id =>
              obtain ⟨next, counted⟩ := step_known setting found
              have member := kept.apps _ _ found
              rw [next, counted]
              refine ⟨kept.addToSamples setting member message, fun appId => ?_, fun own => ?_⟩
              · have added := AppTimeSample.booked_addToSample setting.db setting.samplingRate
                  (analyzer.loaded message.appName).applicationSamples id message.totals
                  message.wallTime appId
                rw [apps appId] at added
                refine added.trans (congrArg _ ?_)
                exact (add_zero _).symm
              · have added := UrlTimeSample.booked_addToSample setting.db setting.samplingRate
                  (analyzer.loaded message.appName).urlSamples (id, message.url) message.totals
                  message.dbTimeBreakup message.wallTime own
                have times : UrlTimeSample.times message.dbTimeBreakup = message.breakup := by
                  funext name
                  exact (message.breakup_eq name).symm
                rw [urls own, times] at added
                refine added.trans (congrArg _ ?_)
                exact (add_zero _).symm
  | processStaleSamples appNow urlNow =>
      refine ⟨⟨known.apps, ?_, ?_⟩, fun appId => ?_, fun own => ?_⟩
      · intro appId member
        exact known.applications appId (Hash.mem_keys_map.mp member)
      · intro key member
        exact known.urls key (Hash.mem_keys_map.mp member)
      · exact (AppTimeSample.booked_writeStaleSamples _ _ _ appId).trans (add_zero _).symm
      · exact (UrlTimeSample.booked_writeStaleSamples _ _ _ own).trans (add_zero _).symm
  | appCreated appId name =>
      have same : (analyzer.create appId name).applicationSamples =
          analyzer.applicationSamples ∧
          (analyzer.create appId name).urlSamples = analyzer.urlSamples := by
        unfold MessageAnalyzer.create
        split
        · exact ⟨rfl, rfl⟩
        · exact ⟨rfl, rfl⟩
      refine ⟨known.create appId name, fun other => ?_, fun own => ?_⟩
      · exact (congrArg (AppTimeSample.booked · other) same.1).trans (add_zero _).symm
      · exact (congrArg (UrlTimeSample.booked · own) same.2).trans (add_zero _).symm

/-- The messages that are processed in a run are counted once each. -/
theorem Known.run {analyzer : MessageAnalyzer τ} (known : analyzer.Known) (setting : Setting)
    (events : List (Event τ)) :
    (∀ appId, AppTimeSample.booked (analyzer.run setting events).applicationSamples appId =
      AppTimeSample.booked analyzer.applicationSamples appId +
        appSum (analyzer.processed setting events) appId) ∧
    ∀ own, UrlTimeSample.booked (analyzer.run setting events).urlSamples own =
      UrlTimeSample.booked analyzer.urlSamples own +
        urlSum (analyzer.processed setting events) own := by
  induction events generalizing analyzer with
  | nil => exact ⟨fun _ => (add_zero _).symm, fun _ => (add_zero _).symm⟩
  | cons event events later =>
      obtain ⟨next, apps, urls⟩ := known.step setting event
      obtain ⟨appsLater, urlsLater⟩ := later next
      constructor
      · intro appId
        refine (appsLater appId).trans ?_
        rw [apps appId, processed, add_assoc]
        congr 1
        simp only [appSum, List.map_append, List.sum_append]
      · intro own
        refine (urlsLater own).trans ?_
        rw [urls own, processed, add_assoc]
        congr 1
        simp only [urlSum, List.map_append, List.sum_append]

end MessageAnalyzer

end Analyzer
