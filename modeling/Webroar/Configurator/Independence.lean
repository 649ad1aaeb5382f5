import Webroar.Configurator.Numbers

/-! # Which numbers and flags come out as configured

What the readers do to the numbers is followed field by field, and what they do to the flags
beside it. Both come out right exactly when no number runs over another one for good and SSL, if it
is switched on, can be used.
-/

namespace Configurator

variable {docs : Documents} {values : Param → Option Nat} {memory : Memory}

/-- All numbers of a memory. -/
def numbers (memory : Memory) : Param → Nat := fun param => param.get memory

/-! ### Numbers -/

theorem numbers_setNumber (plain : Plain docs.text Param.zero values) (param : Param) :
    numbers (setNumber docs memory param) =
      match values param with
      | none => numbers memory
      | some value => Fields.put Param.runsOver (numbers memory) param value := by
  rw [setNumber, plain.text]
  cases given : values param with
  | none => rfl
  | some value =>
      have small := plain.small param value given
      have zero : value = 0 → param.zero = true := fun none => plain.zero param (none ▸ given)
      funext other
      rw [Option.map_some, wrSetNumericValue_decimal small zero]
      exact Fields.load_store Param.laid small memory param other

theorem numbers_foldl (plain : Plain docs.text Param.zero values) (order : List Param) :
    numbers (order.foldl (setNumber docs) memory) =
      Fields.putAll Param.runsOver values order (numbers memory) := by
  induction order generalizing memory with
  | nil => rfl
  | cons param rest ih =>
      rw [List.foldl_cons, ih, numbers_setNumber plain]
      cases given : values param with
      | none => simp only [Fields.putAll, given]
      | some value => simp only [Fields.putAll, given]

theorem flag_apart (param : Param) :
    (param.offset + param.size ≤ Layout.flag ∨ Layout.flag + 2 ≤ param.offset) ∧
      (Layout.flag + 2 ≤ param.offset ∨ param.offset + 8 ≤ Layout.flag) ∧
      (param.offset + param.size ≤ Layout.logLevel ∨ Layout.logLevel + 4 ≤ param.offset) := by
  have checked : ∀ param ∈ Param.all,
      (param.offset + param.size ≤ Layout.flag ∨ Layout.flag + 2 ≤ param.offset) ∧
        (Layout.flag + 2 ≤ param.offset ∨ param.offset + 8 ≤ Layout.flag) ∧
        (param.offset + param.size ≤ Layout.logLevel ∨ Layout.logLevel + 4 ≤ param.offset) := by
    decide +kernel
  exact checked param (Param.mem_all param)

theorem numbers_setFlag (flag : Nat) : numbers (setFlag memory flag) = numbers memory := by
  funext param
  exact Memory.load_store_apart (flag_apart param).1

theorem numbers_logLevel (level : Nat) :
    numbers (memory.store Layout.logLevel 4 level) = numbers memory := by
  funext param
  exact Memory.load_store_apart (flag_apart param).2.2

theorem numbers_switch (flag : Nat) (off : Bool) :
    numbers (switch memory flag off) = numbers memory := by
  cases off with
  | false => exact numbers_setFlag _
  | true => exact (numbers_setFlag _).trans (numbers_setFlag _)

theorem numbers_sslFailed : numbers (sslFailed memory) = numbers memory := numbers_setFlag _

theorem numbers_sslFile (path : String) :
    numbers (sslFile docs path memory) = numbers memory := by
  unfold sslFile
  split
  · exact numbers_sslFailed
  · split
    · rfl
    · exact numbers_sslFailed

theorem numbers_enable (flag : Nat) (on : Bool) :
    numbers (enable memory flag on) = numbers memory := by
  cases on with
  | false => rfl
  | true => exact numbers_setFlag _

theorem numbers_flagsSet : numbers (flagsSet docs memory) = numbers memory := by
  have level : numbers (logLevelSet docs memory) = numbers memory := by
    unfold logLevelSet
    split
    · rfl
    · exact numbers_logLevel _
  rw [flagsSet, numbers_enable, numbers_enable, level]

/-! ### Flags -/

theorem getFlag_setFlag (flag : Nat) : getFlag (setFlag memory flag) = flag % 65536 := by
  have whole := @Memory.load_store_inside memory Layout.flag 2 2 flag 0 (Nat.le_refl 2)
  rw [Nat.pow_zero, Nat.div_one] at whole
  exact whole

theorem getFlag_setNumber (param : Param) :
    getFlag (setNumber docs memory param) = getFlag memory := by
  have stored : ∀ value, getFlag (memory.store param.offset 8 value) = getFlag memory :=
    fun value => Memory.load_store_apart (flag_apart param).2.1
  unfold setNumber wrSetNumericValue
  split
  · rfl
  · dsimp only
    split
    · exact stored _
    · split
      · exact stored 0
      · rfl

theorem getFlag_foldl (order : List Param) :
    getFlag (order.foldl (setNumber docs) memory) = getFlag memory := by
  induction order generalizing memory with
  | nil => rfl
  | cons param rest ih => rw [List.foldl_cons, ih, getFlag_setNumber]

theorem getFlag_logLevelSet : getFlag (logLevelSet docs memory) = getFlag memory := by
  unfold logLevelSet
  split
  · rfl
  · exact Memory.load_store_apart (by decide)

theorem getFlag_enable (flag : Nat) (on : Bool) :
    getFlag (enable memory flag on) =
      (if on then getFlag memory ||| flag else getFlag memory) % 65536 := by
  cases on with
  | false => exact (Nat.mod_eq_of_lt (Memory.load_lt memory Layout.flag 2)).symm
  | true => exact getFlag_setFlag _

theorem getFlag_switch (flag : Nat) (off : Bool) :
    getFlag (switch memory flag off) =
      (if off then (getFlag memory ||| flag) % 65536 - flag else getFlag memory ||| flag) %
        65536 := by
  cases off with
  | false => exact getFlag_setFlag _
  | true =>
      refine (getFlag_setFlag _).trans ?_
      rw [getFlag_setFlag]
      rfl

/-- Does a file named under a key exist? -/
def Documents.fileOk (docs : Documents) (path : String) : Bool :=
  ((docs.config path).bind yamlValidateString).any docs.stat

theorem getFlag_sslFile (path : String) :
    getFlag (sslFile docs path memory) = if docs.fileOk path then getFlag memory else 0 := by
  have failed : getFlag (sslFailed memory) = 0 := by
    rw [sslFailed, getFlag_setFlag, Nat.and_zero]
  unfold sslFile Documents.fileOk
  split
  · next none =>
      rw [none]
      exact failed
  · next str some =>
      rw [some, Option.any_some]
      cases docs.stat str with
      | true => rfl
      | false => exact failed

/-- Is SSL switched on? -/
def Documents.ssl (docs : Documents) : Bool :=
  reads docs.config "Server Specification/SSL Specification/ssl_support" "enabled"

/-- Are the certificate and the key there? -/
def Documents.sslOk (docs : Documents) : Bool :=
  docs.fileOk "Server Specification/SSL Specification/certificate_file" &&
    docs.fileOk "Server Specification/SSL Specification/key_file"

/-- The flags that are configured, but for SSL. -/
def Documents.flags (docs : Documents) : Nat :=
  udsSupport ||| keepAlive |||
    (if reads docs.internal "webroar/admin_panel" "off" then 0 else adminPanelFlag) |||
    (if reads docs.internal "webroar/analyzer" "off" then 0 else analyzerFlag) |||
    if reads docs.config "Server Specification/access_log" "enabled" then accessLog else 0

/-! ### The readers as a whole -/

/-- The keys that are always looked up, in this order. -/
def generalOrder : List Param :=
  [.msgQueueSize, .maxReqRatio, .minReqRatio, .highLoad, .lowLoad, .maxHosts] ++
    ([.maxBodySize, .max, .pending, .addTrials, .addWait, .addTimeout, .killTimeout, .idleTime,
      .pingTimeout, .pingTrials] ++ [.port, .minWorkers, .maxWorkers])

/-- The keys that are looked up: the port for SSL, too, if SSL is switched on. -/
def Documents.order (docs : Documents) : List Param :=
  generalOrder ++ if docs.ssl then [.sslPort] else []

theorem numbers_init (garbage : Memory) : numbers (configInit garbage) = Param.default := by
  have apart : ∀ first ∈ Param.all, ∀ second ∈ Param.all, first ≠ second →
      first.offset + first.size ≤ second.offset ∨ second.offset + second.size ≤ first.offset := by
    decide +kernel
  have small : ∀ param ∈ Param.all, param.default < 256 ^ param.size := by
    decide +kernel
  funext param
  have stored := Fields.load_foldl_store
    (fun first second => apart first (Param.mem_all first) second (Param.mem_all second))
    (fun param => small param (Param.mem_all param)) Param.all garbage param
  rw [if_pos (Param.mem_all param)] at stored
  rw [configInit, numbers_setFlag]
  exact stored

theorem confNumbers_eq {garbage config : Memory} (read : confNumbers docs garbage = some config) :
    config = sslSet docs (flagsSet docs ([.port, .minWorkers, .maxWorkers].foldl (setNumber docs)
      (wrInternalConfRead docs (configInit garbage)))) := by
  unfold confNumbers wrConfigServerSet at read
  dsimp only at read
  split at read
  · cases read
  · split at read
    · cases read
    · split at read
      · cases read
      · split at read
        · cases read
        · exact (Option.some.inj read).symm

/-- The numbers before SSL is looked at. -/
theorem numbers_before (plain : Plain docs.text Param.zero values) (garbage : Memory) :
    numbers (flagsSet docs ([.port, .minWorkers, .maxWorkers].foldl (setNumber docs)
        (wrInternalConfRead docs (configInit garbage)))) =
      Fields.putAll Param.runsOver values generalOrder Param.default := by
  rw [numbers_flagsSet, numbers_foldl plain, wrInternalConfRead, wrWorkerConfRead,
    numbers_foldl plain, wrServerConfRead, numbers_switch, numbers_switch, wrApplicationConfRead,
    numbers_foldl plain, numbers_init, generalOrder, Fields.putAll_append, Fields.putAll_append]

theorem flags_before (garbage : Memory) :
    getFlag (flagsSet docs ([.port, .minWorkers, .maxWorkers].foldl (setNumber docs)
        (wrInternalConfRead docs (configInit garbage)))) =
      docs.flags ||| if docs.ssl then sslSupport else 0 := by
  have start : getFlag (configInit garbage) = 12 := getFlag_setFlag _
  rw [flagsSet, getFlag_enable, getFlag_enable, getFlag_logLevelSet, getFlag_foldl,
    wrInternalConfRead, wrWorkerConfRead, getFlag_foldl, wrServerConfRead, getFlag_switch,
    getFlag_switch, wrApplicationConfRead, getFlag_foldl, start, Documents.flags, Documents.ssl]
  -- four switches
  cases reads docs.internal "webroar/admin_panel" "off" <;>
    cases reads docs.internal "webroar/analyzer" "off" <;>
    cases reads docs.config "Server Specification/access_log" "enabled" <;>
    cases reads docs.config "Server Specification/SSL Specification/ssl_support" "enabled" <;>
    rfl

/-- Some flags are always on. -/
theorem Documents.flags_spec (docs : Documents) :
    docs.flags ≠ 0 ∧ docs.flags &&& sslSupport = 0 ∧
      (docs.flags ||| sslSupport) &&& sslSupport ≠ 0 := by
  rw [flags]
  cases reads docs.internal "webroar/admin_panel" "off" <;>
    cases reads docs.internal "webroar/analyzer" "off" <;>
    cases reads docs.config "Server Specification/access_log" "enabled" <;>
    decide

/-- Nothing runs over the port for SSL or over the greatest number of workers. -/
theorem Param.clear (first : Param) :
    first.runsOver .sslPort = false ∧ first.runsOver .maxWorkers = false := by
  cases first with
  | _ => decide +kernel

theorem sslSet_off (off : getFlag memory &&& sslSupport = 0) : sslSet docs memory = memory :=
  if_neg (not_not_intro off)

theorem numbers_sslSet (plain : Plain docs.text Param.zero values)
    (on : getFlag memory &&& sslSupport ≠ 0) :
    numbers (sslSet docs memory) =
      Fields.putAll Param.runsOver values [.sslPort] (numbers memory) := by
  have listed := @numbers_foldl docs values
    (sslFile docs "Server Specification/SSL Specification/key_file"
      (sslFile docs "Server Specification/SSL Specification/certificate_file" memory)) plain
    [.sslPort]
  rw [numbers_sslFile, numbers_sslFile] at listed
  rw [sslSet, if_pos on]
  dsimp only
  split
  · exact numbers_sslFailed.trans listed
  · exact listed

theorem getFlag_sslSet (plain : Plain docs.text Param.zero values)
    (on : getFlag memory &&& sslSupport ≠ 0) (small : numbers memory .sslPort < 65536) :
    getFlag (sslSet docs memory) = if docs.sslOk then getFlag memory else 0 := by
  have port : ∀ before, numbers before = numbers memory →
      ¬ 65536 < Param.sslPort.get (setNumber docs before .sslPort) := by
    intro before same
    have set := congrFun (@numbers_setNumber docs values before plain .sslPort) .sslPort
    cases given : values .sslPort with
    | none =>
        rw [given, same] at set
        exact (lt_of_eq_of_lt set small).not_gt
    | some value =>
        rw [given] at set
        have less := plain.small _ value given
        have own : Param.sslPort.get (setNumber docs before .sslPort) = value := set
        omega
  rw [sslSet, if_pos on]
  dsimp only
  rw [if_neg (port _ ((numbers_sslFile _).trans (numbers_sslFile _))), getFlag_setNumber,
    getFlag_sslFile, getFlag_sslFile, Documents.sslOk]
  cases docs.fileOk "Server Specification/SSL Specification/certificate_file" <;>
    cases docs.fileOk "Server Specification/SSL Specification/key_file" <;> rfl

/-- What the files leave in the numbers and the flags. -/
theorem confNumbers_spec (plain : Plain docs.text Param.zero values) {garbage config : Memory}
    (read : confNumbers docs garbage = some config) :
    numbers config = Fields.putAll Param.runsOver values docs.order Param.default ∧
      getFlag config = if docs.ssl then if docs.sslOk then docs.flags ||| sslSupport else 0
        else docs.flags := by
  have shape := confNumbers_eq read
  have before := @numbers_before docs values plain garbage
  have flags := @flags_before docs garbage
  obtain ⟨-, off, on⟩ := docs.flags_spec
  generalize flagsSet docs ([.port, .minWorkers, .maxWorkers].foldl (setNumber docs)
    (wrInternalConfRead docs (configInit garbage))) = memory at shape before flags
  rw [shape, Documents.order]
  cases ssl : docs.ssl with
  | false =>
      rw [ssl] at flags
      have flags : getFlag memory = docs.flags := flags.trans (Nat.or_zero _)
      rw [sslSet_off (flags ▸ off), before, flags, if_neg Bool.false_ne_true, List.append_nil]
      exact ⟨rfl, rfl⟩
  | true =>
      rw [ssl] at flags
      have flags : getFlag memory = docs.flags ||| sslSupport := flags
      have port : numbers memory .sslPort = 443 := by
        rw [before, Fields.putAll_clear (by decide) fun first _ => (Param.clear first).1,
          if_neg (by decide)]
        rfl
      have able : getFlag memory &&& sslSupport ≠ 0 := flags ▸ on
      rw [numbers_sslSet plain able, getFlag_sslSet plain able (by rw [port]; decide), before,
        flags, if_pos rfl, Fields.putAll_append]
      exact ⟨rfl, rfl⟩

/-! ### Independence -/

/-- The numbers that are configured for an application. -/
structure AppNumbers where
  text : AppParam → Option (List UInt8)
  values : AppParam → Option Nat
  plain : Plain text (fun _ => false) values

/-- Which number of an application loses its value when another one is set? -/
def AppParam.runsOver : AppParam → AppParam → Bool :=
  Fields.covers AppParam.offset (fun _ => 2) 8 2

theorem AppParam.laid : Fields.Laid AppParam.offset (fun _ => 2) 8 2 := by
  intro first second
  cases first with
  | minWorker => cases second with
    | _ => decide
  | maxWorker => cases second with
    | _ => decide

/-- All numbers of an application. -/
def appNumbers (memory : Memory) : AppParam → Nat := fun param => param.get memory

theorem appNumbers_set (memory : Memory) {text : AppParam → Option (List UInt8)}
    {own : AppParam → Option Nat} (plain : Plain text (fun _ => false) own) (param : AppParam) :
    appNumbers (wrSetNumericValue memory (text param) param.offset false) =
      match own param with
      | none => appNumbers memory
      | some value => Fields.put AppParam.runsOver (appNumbers memory) param value := by
  rw [plain.text]
  cases given : own param with
  | none => rfl
  | some value =>
      have small := plain.small param value given
      have positive : value = 0 → false = true := fun none => plain.zero param (none ▸ given)
      funext other
      rw [Option.map_some, wrSetNumericValue_decimal small positive]
      exact Fields.load_store AppParam.laid small memory param other

/-- What the block of an application leaves in its numbers. -/
theorem appNumbersSet_spec (config : Memory) (app : AppNumbers) (garbage : Memory) :
    appNumbers (appNumbersSet config app.text garbage).1 =
      Fields.putAll AppParam.runsOver app.values [.minWorker, .maxWorker]
        fun param => param.general.get config := by
  have start : appNumbers ((garbage.store AppParam.minWorker.offset 2
        (Param.minWorkers.get config)).store AppParam.maxWorker.offset 2
        (Param.maxWorkers.get config)) = fun param => param.general.get config := by
    funext param
    have small := Memory.load_lt config
    cases param with
    | minWorker =>
        exact (Memory.load_store_apart (by decide)).trans
          (Memory.load_store_self (small _ 2) (Nat.le_refl 2))
    | maxWorker => exact Memory.load_store_self (small _ 2) (Nat.le_refl 2)
  rw [appNumbersSet]
  dsimp only
  rw [appNumbers_set _ app.plain, appNumbers_set _ app.plain, start]
  cases few : app.values .minWorker with
  | none => cases many : app.values .maxWorker with
    | _ => simp only [Fields.putAll, few, many]
  | some _ => cases many : app.values .maxWorker with
    | _ => simp only [Fields.putAll, few, many]

/-- Every number is the one under its own key, or else the one there was before, and a failure of
SSL leaves the other flags alone. -/
structure Independent (docs : Documents) (values : Param → Option Nat) (config : Memory)
    (apps : List (AppNumbers × Memory)) : Prop where
  server : ∀ param : Param, param.get config = (values param).getD param.default
  flags : getFlag config = docs.flags ||| if docs.ssl && docs.sslOk then sslSupport else 0
  apps : ∀ app ∈ apps, ∀ param : AppParam,
    param.get (appNumbersSet config app.1.text app.2).1 =
      (app.1.values param).getD (param.general.get config)

/-- Every number that runs over others does so before these are set, the port for SSL is given only
where SSL is on, and where it is on it can be used. -/
structure Harmless (docs : Documents) (values : Param → Option Nat)
    (apps : List (AppNumbers × Memory)) : Prop where
  server : Fields.Covered Param.runsOver values docs.order
  port : docs.ssl = true ∨ (values .sslPort).getD 443 = 443
  ssl : docs.ssl = true → docs.sslOk = true
  apps : ∀ app ∈ apps, (app.1.values .minWorker).isSome = true →
    (app.1.values .maxWorker).isSome = true

theorem Documents.order_nodup (docs : Documents) : docs.order.Nodup := by
  rw [order]
  cases docs.ssl with
  | _ => decide

theorem Documents.mem_order (docs : Documents) (param : Param) :
    param ∈ docs.order ↔ docs.ssl = true ∨ param ≠ .sslPort := by
  rw [order]
  cases docs.ssl with
  | _ => cases param with
    | _ => decide

/-- No key is looked up before one that runs over it and that may be set to zero. -/
theorem Documents.order_early (docs : Documents)
    (plain : Plain docs.text Param.zero values) :
    docs.order.Pairwise fun second first => first.runsOver second = true →
      values second ≠ some 0 := by
  have checked : docs.order.Pairwise fun second first => first.runsOver second = true →
      second.zero = false := by
    rw [order]
    cases docs.ssl with
    | _ => decide +kernel
  apply checked.imp
  intro second first early runs zero
  have allowed := plain.zero second zero
  rw [early runs] at allowed
  cases allowed

theorem Param.filled (first second : Param) (_runs : first.runsOver second = true) :
    second.default ≠ 0 := by
  cases second with
  | _ => decide

theorem Param.runsOver_self (param : Param) : param.runsOver param = false := by
  rw [runsOver, Fields.covers, decide_eq_false (not_not_intro rfl), Bool.false_and, Bool.false_and]

/-- The numbers that are looked up come out right just when none runs over another for good. -/
theorem server_iff (plain : Plain docs.text Param.zero values) {garbage config : Memory}
    (read : confNumbers docs garbage = some config) :
    (∀ param : Param, param.get config = (values param).getD param.default) ↔
      Fields.Covered Param.runsOver values docs.order ∧
        (docs.ssl = true ∨ (values .sslPort).getD 443 = 443) := by
  have spec := (confNumbers_spec plain read).1
  have looked := Fields.putAll_iff docs.order_nodup Param.runsOver_self
    Param.filled (docs.order_early plain)
  rw [← spec] at looked
  -- the port for SSL is the only key that may not be looked up
  have listed : ∀ param, (if param ∈ docs.order then values param else none).getD param.default =
      (values param).getD param.default ↔
        (docs.ssl = true ∨ param ≠ .sslPort ∨ (values .sslPort).getD 443 = 443) := by
    intro param
    by_cases member : param ∈ docs.order
    · rw [if_pos member]
      have known := (docs.mem_order param).mp member
      exact iff_of_true rfl (known.imp_right Or.inl)
    · rw [if_neg member]
      rw [docs.mem_order, not_or, not_not] at member
      obtain ⟨off, rfl⟩ := member
      refine ⟨fun same => Or.inr (Or.inr same.symm), fun reason => ?_⟩
      rcases reason with on | other | same
      · exact absurd on off
      · exact absurd rfl other
      · exact same.symm
  constructor
  · intro own
    have port : docs.ssl = true ∨ (values .sslPort).getD 443 = 443 := by
      by_cases on : docs.ssl = true
      · exact Or.inl on
      · have unread : Param.sslPort ∉ docs.order := fun member =>
          ((docs.mem_order _).mp member).elim on fun other => other rfl
        have kept := congrFun spec .sslPort
        rw [Fields.putAll_clear docs.order_nodup fun first _ => (Param.clear first).1,
          if_neg unread] at kept
        exact Or.inr ((own .sslPort).symm.trans kept)
    refine ⟨looked.mp fun param => (own param).trans ?_, port⟩
    refine ((listed param).mpr ?_).symm
    exact port.imp_right Or.inr
  · rintro ⟨covered, port⟩ param
    exact (looked.mpr covered param).trans ((listed param).mpr (port.imp_right Or.inr))

/-- The flags come out right just when SSL, where it is on, can be used. -/
theorem flags_iff (plain : Plain docs.text Param.zero values) {garbage config : Memory}
    (read : confNumbers docs garbage = some config) :
    getFlag config = (docs.flags ||| if docs.ssl && docs.sslOk then sslSupport else 0) ↔
      (docs.ssl = true → docs.sslOk = true) := by
  rw [(confNumbers_spec plain read).2]
  cases docs.ssl with
  | false => exact iff_of_true (Nat.or_zero _).symm Bool.noConfusion
  | true =>
      cases docs.sslOk with
      | true => exact iff_of_true rfl fun _ => rfl
      | false =>
          refine ⟨fun lost => ?_, fun able => nomatch able rfl⟩
          have lost : 0 = docs.flags ||| 0 := lost
          rw [Nat.or_zero] at lost
          exact absurd lost.symm docs.flags_spec.1

/-- The numbers of an application come out right just when the least number of workers does not
come without the greatest. -/
theorem app_iff {config : Memory} (some : Param.maxWorkers.get config ≠ 0) (app : AppNumbers)
    (garbage : Memory) :
    (∀ param : AppParam, param.get (appNumbersSet config app.text garbage).1 =
      (app.values param).getD (param.general.get config)) ↔
    ((app.values .minWorker).isSome = true → (app.values .maxWorker).isSome = true) := by
  have order : ([.minWorker, .maxWorker] : List AppParam).Nodup := by decide
  have listed : ∀ param : AppParam, param ∈ ([.minWorker, .maxWorker] : List AppParam) := by
    intro param
    cases param with
    | _ => decide
  have looked := @Fields.putAll_iff AppParam _ AppParam.runsOver app.values
    [.minWorker, .maxWorker] (fun param => param.general.get config) order
    (by intro param; cases param with | _ => decide)
    (by
      intro first second runs
      cases second with
      | minWorker => cases first with
        | _ => exact absurd runs (by decide)
      | maxWorker => exact some)
    (by
      apply List.Pairwise.cons
      · intro first _ runs
        exact absurd runs (by cases first with | _ => decide)
      · exact List.pairwise_singleton _ _)
  rw [← appNumbersSet_spec config app garbage] at looked
  simp only [listed, if_true] at looked
  refine looked.trans ?_
  rw [Fields.covered_cons, Fields.covered_cons]
  constructor
  · rintro ⟨covered, -⟩ given
    exact (covered given .maxWorker (by decide)).2
  · intro both
    refine ⟨fun given other runs => ?_, fun _ other runs => ?_, Fields.covered_nil⟩
    · cases other with
      | minWorker => exact absurd runs (by decide)
      | maxWorker => exact ⟨List.mem_cons_self, both given⟩
    · exact absurd runs (by cases other with | _ => decide)

/-- When are the numbers and flags of the configuration independent of each other? -/
theorem numbers_independent (plain : Plain docs.text Param.zero values) {garbage config : Memory}
    (read : confNumbers docs garbage = some config) (apps : List (AppNumbers × Memory)) :
    Independent docs values config apps ↔ Harmless docs values apps := by
  have server := server_iff plain read
  have flags := flags_iff plain read
  have general : Param.maxWorkers.get config ≠ 0 := by
    have kept := congrFun (confNumbers_spec plain read).1 .maxWorkers
    rw [Fields.putAll_clear docs.order_nodup fun first _ => (Param.clear first).2] at kept
    intro zero
    rw [numbers, zero] at kept
    split at kept
    · cases given : values .maxWorkers with
      | none =>
          rw [given] at kept
          exact absurd kept (by decide)
      | some value =>
          rw [given, Option.getD_some] at kept
          exact absurd (plain.zero .maxWorkers (kept ▸ given)) (by decide)
    · exact absurd kept (by decide)
  constructor
  · intro independent
    obtain ⟨covered, port⟩ := server.mp independent.server
    exact {
      server := covered
      port := port
      ssl := flags.mp independent.flags
      apps := fun app listed => (app_iff general app.1 app.2).mp (independent.apps app listed) }
  · intro harmless
    exact {
      server := server.mpr ⟨harmless.server, harmless.port⟩
      flags := flags.mpr harmless.ssl
      apps := fun app listed => (app_iff general app.1 app.2).mpr (harmless.apps app listed) }

/-- A limit for the size of a body, and SSL on a port of its own. -/
def sampleDocuments : Documents where
  internal := fun key =>
    if key = "Worker/maximum_request_body_size" then some (Decimal.ofNat 1024) else none
  config := fun key =>
    if key = "Server Specification/SSL Specification/ssl_support" then some (ascii "enabled")
    else if key = "Server Specification/SSL Specification/certificate_file" then
      some (ascii "/cert")
    else if key = "Server Specification/SSL Specification/key_file" then some (ascii "/key")
    else if key = "Server Specification/SSL Specification/ssl_port" then some (Decimal.ofNat 4443)
    else none
  stat := fun path => path = ascii "/cert" || path = ascii "/key"

def sampleValues : Param → Option Nat
  | .maxBodySize => some 1024
  | .sslPort => some 4443
  | _ => none

/-- An application with two to five workers. -/
def sampleApp : AppNumbers where
  text
    | .minWorker => some (Decimal.ofNat 2)
    | .maxWorker => some (Decimal.ofNat 5)
  values
    | .minWorker => some 2
    | .maxWorker => some 5
  plain := {
    text := fun param => by cases param with | _ => rfl
    small := fun param value given => by
      cases param with
      | _ =>
          obtain rfl := Option.some.inj given
          decide
    zero := fun param given => by
      cases param with
      | _ => exact absurd (Option.some.inj given) (by decide) }

theorem numbers_independent_sample : ∃ config,
    confNumbers sampleDocuments (fun _ => 0) = some config ∧
      Independent sampleDocuments sampleValues config [(sampleApp, fun _ => 255)] ∧
      Param.sslPort.get config = 4443 ∧ getFlag config = 62 := by
  have text : ∀ param, sampleDocuments.text param = (sampleValues param).map Decimal.ofNat := by
    intro param
    cases param with
    | _ => decide +kernel
  have plain : Plain sampleDocuments.text Param.zero sampleValues := {
    text := text
    small := fun param value given => by
      cases param with
      | maxBodySize | sslPort =>
          obtain rfl := Option.some.inj given
          decide
      | _ => cases given
    zero := fun param given => by
      cases param with
      | maxBodySize | sslPort => exact absurd (Option.some.inj given) (by decide)
      | _ => cases given }
  have covered : Fields.Covered Param.runsOver sampleValues sampleDocuments.order := by
    intro before field after cut given other runs
    cases field with
    | maxBodySize | sslPort => exact absurd runs (by cases other with | _ => decide +kernel)
    | _ => cases given
  have harmless : Harmless sampleDocuments sampleValues [(sampleApp, fun _ => 255)] := {
    server := covered
    port := Or.inl (by decide +kernel)
    ssl := fun _ => by decide +kernel
    apps := fun app listed => by
      obtain rfl := List.mem_singleton.mp listed
      exact id }
  have run : (confNumbers sampleDocuments fun _ => 0).map
      (fun config => (Param.sslPort.get config, getFlag config)) = some (4443, 62) := by
    decide +kernel
  obtain ⟨config, read, out⟩ := Option.map_eq_some_iff.mp run
  obtain ⟨port, flags⟩ := Prod.mk.inj out
  exact ⟨config, read, (numbers_independent plain read _).mpr harmless, port, flags⟩

/-- Only the greatest number of workers is configured. -/
def onlyMax : Documents where
  internal := fun key =>
    if key = "Worker/maximum_workers" then some (Decimal.ofNat 30) else none
  config := fun _ => none
  stat := fun _ => false

def onlyMaxValues : Param → Option Nat
  | .max => some 30
  | _ => none

/-- With the greatest number of workers alone, none may be pending. -/
theorem not_numbers_independent :
    ¬ ∀ (docs : Documents) (values : Param → Option Nat), Plain docs.text Param.zero values →
      ∀ garbage config : Memory, confNumbers docs garbage = some config →
        ∀ apps, Independent docs values config apps := by
  intro claimed
  have text : ∀ param, onlyMax.text param = (onlyMaxValues param).map Decimal.ofNat := by
    intro param
    cases param with
    | _ => decide +kernel
  have plain : Plain onlyMax.text Param.zero onlyMaxValues := {
    text := text
    small := fun param value given => by
      cases param with
      | max =>
          obtain rfl := Option.some.inj given
          decide
      | _ => cases given
    zero := fun param given => by
      cases param with
      | max => exact absurd (Option.some.inj given) (by decide)
      | _ => cases given }
  have run : (confNumbers onlyMax fun _ => 0).map (Param.pending.get ·) = some 0 := by
    decide +kernel
  obtain ⟨config, read, lost⟩ := Option.map_eq_some_iff.mp run
  have kept := (claimed onlyMax onlyMaxValues plain _ config read []).server .pending
  exact absurd (lost.symm.trans kept) (by decide)

end Configurator
