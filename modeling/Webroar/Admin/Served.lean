import Mathlib
import Webroar.Admin.HostNames

/-! # What the admin panel writes and the server reads

An entry of the admin panel is refused, or not read as it was written, for the values that the panel
does not validate as the server does. Here is what has to hold of the values, beside the
validations, for the server to accept the entry.
-/

open Chars (utf8)
open Configurator (Surroundings ServerSettings AppBlock AppParam Param cString strtok hostName Pass
  isLabelByte validString yamlValidateString wrConfigApplicationSet)
open Resolver (Uri)

namespace ApplicationSpecification

/-- The server takes a text that was written as a value. -/
def Readable (text : List Char) : Prop := (yamlValidateString (cString (utf8 text)).1).isSome = true

instance (text : List Char) : Decidable (Readable text) := inferInstanceAs (Decidable (_ = true))

/-- The host names that the server finds in a node. -/
def hosts (block : AppBlock) : List (List UInt8) :=
  strtok (((block.value "host_names").map (·.1)).getD []) 32

/-- A number of workers; for a zero it is the server's own. -/
def number (config : Memory) (spec : ApplicationSpecification) : AppParam → Nat
  | .minWorker =>
      if toI spec.minWorker = 0 then Param.minWorkers.get config else (toI spec.minWorker).toNat
  | .maxWorker =>
      if toI spec.maxWorker = 0 then Param.maxWorkers.get config else (toI spec.maxWorker).toNat

/-- The server accepts a node, takes its environment, and all its host names pass. -/
structure Served (around : Surroundings) (server : ServerSettings) (garbage : Memory)
    (block : AppBlock) : Prop where
  accepted : (wrConfigApplicationSet around server garbage block).settings.isSome = true
  environment : (block.get "environment").isSome = true
  hosts : Pass around.stack 0 (hosts block)

/-- What the panel does not validate: no text is a comment or blank for the server, the name has less
than 30 bytes, there is something to analyse, the user exists in lower case, there is either a base
URI or host names, labels are short and begin with the right byte, a wildcard is not all there is of
a host name, host names beside a base URI pass, and the numbers of workers suit the server's own. -/
structure Fits (around : Surroundings) (server : ServerSettings) (spec : ApplicationSpecification) :
    Prop where
  name : ∃ name ∈ spec.name,
    Readable name ∧ (cString (utf8 name)).1.length < Configurator.maxLenAppName
  path : ∃ path ∈ spec.path, Readable path
  analytics : ∃ analytics ∈ spec.analytics, Readable (downcase analytics)
  user : ∃ user ∈ spec.runAsUser, Readable (downcase user) ∧
    (downcase user = user ∨ around.getpwnam (cString (utf8 (downcase user))).1 = true)
  environment : ∃ environment ∈ spec.environment, Readable (downcase environment)
  either : (∃ uri ∈ spec.baseuri, Readable (strip uri)) ↔
    (hosts spec.block).take (Param.maxHosts.get server.config) = []
  labels : ∀ host ∈ hosts spec.block, ∀ label ∈ strtok (hostName host) 46,
    label.length ≤ 63 ∧ label.head?.any isLabelByte = true
  wildcards : ∀ host ∈ (hosts spec.block).take (Param.maxHosts.get server.config),
    host.getLast? = some 42 → 2 < host.length
  beside : (∃ resolver ∈ spec.resolver, isBaseuri resolver = true) →
    Pass around.stack 0 (hosts spec.block)
  order : spec.number server.config .minWorker ≤ spec.number server.config .maxWorker
  workers : spec.number server.config .maxWorker ≤ Param.max.get server.config

/-! ### The entry -/

theorem lookup_option {α : Type} (key other : String) (value : Option α) (f : α → Scalar) :
    ((value.map fun text => (key, f text)).toList).lookup other =
      if other = key then value.map f else none := by
  cases value with
  | none => simp
  | some text =>
      rw [Option.map_some, Option.toList_some, List.lookup]
      by_cases same : other = key
      · rw [if_pos same, beq_iff_eq.mpr same]
        rfl
      · rw [if_neg same, beq_false_of_ne same]
        rfl

variable (spec : ApplicationSpecification)

/-- What the server finds under each key. -/
theorem block_value :
    spec.block.value "name" = some (Scalar.ofOption spec.name).read ∧
    spec.block.value "path" = some (Scalar.ofOption spec.path).read ∧
    spec.block.value "run_as_user" =
      spec.runAsUser.map (fun user => cString (utf8 (downcase user))) ∧
    spec.block.value "type" = spec.type1.map (fun type => cString (utf8 (downcase type))) ∧
    spec.block.value "analytics" =
      spec.analytics.map (fun analytics => cString (utf8 (downcase analytics))) ∧
    spec.block.value "environment" =
      spec.environment.map (fun environment => cString (utf8 (downcase environment))) ∧
    spec.block.value "min_worker" = some (cString (Decimal.ofInt (toI spec.minWorker))) ∧
    spec.block.value "max_worker" = some (cString (Decimal.ofInt (toI spec.maxWorker))) ∧
    spec.block.value "baseuri" = spec.baseuri.map (fun uri => cString (utf8 (strip uri))) ∧
    spec.block.value "host_names" = spec.hostNames.map (fun names => cString (utf8 names)) := by
  simp only [block, objToHash, List.lookup_append, lookup_option]
  refine ⟨?_, ?_, ?_, ?_, ?_, ?_, ?_, ?_, ?_, ?_⟩
  all_goals simp [List.lookup, Scalar.read, Function.comp_def]

/-! ### What the validations leave -/

/-- What the validations say about the entry. -/
structure Validated (spec : ApplicationSpecification) : Prop where
  name : ∃ name, spec.name = some name
  path : ∃ path, spec.path = some path ∧ '\x00' ∉ path
  user : ∃ user, spec.runAsUser = some user
  type : ∃ type, spec.type1 = some type ∧
    (downcase type = "rails".toList ∨ downcase type = "rack".toList)
  environment : ∃ environment, spec.environment = some environment
  least : 0 ≤ toI spec.minWorker
  order : toI spec.minWorker ≤ toI spec.maxWorker
  most : toI spec.maxWorker ≤ 20
  shapes : (∃ resolver ∈ spec.resolver, isBaseuri resolver = true) ∨
    ∀ host ∈ hosts spec.block, ∃ name, host = utf8 name ∧ Shape name

theorem exists_of_presence {field : String} {value : Option (List Char)}
    (fine : presence field value = []) : ∃ text, value = some text := by
  cases value with
  | none => cases fine
  | some text => exact ⟨text, rfl⟩

/-- A number of workers that is validated. -/
theorem bounds_of_workers {field : String} {number : Option Number}
    (fine : workers field number = []) : 0 ≤ toI number ∧ toI number ≤ 20 := by
  unfold workers at fine
  obtain ⟨-, fine⟩ := List.append_eq_nil_iff.mp fine
  cases number with
  | none => cases fine
  | some number =>
      split_ifs at fine with inside
      obtain ⟨least, most⟩ := of_decide_eq_true inside
      have positive : (0 : Int) < number.value.den := Int.natCast_pos.mpr number.value.den_pos
      have top : number.value.num ≤ 20 * number.value.den := by
        have compared := (Rat.le_iff _ _).mp most
        have twenty : (20 : ℚ).num = 20 ∧ (20 : ℚ).den = 1 := ⟨rfl, rfl⟩
        rw [twenty.1, twenty.2] at compared
        omega
      have bottom : 0 ≤ number.value.num := Rat.num_nonneg.mpr least
      have ended := Int.tdiv_le_of_le_mul positive top
      rw [if_pos bottom, Int.add_zero] at ended
      exact ⟨Int.tdiv_nonneg bottom positive.le, ended⟩

/-- The resolver overwrites one attribute; if that is not the base URI, the host names are fine. -/
theorem resolve_spec {spec saved : ApplicationSpecification} {resolver : List Char}
    {names : List (List Char)} (found : resolve spec resolver = some ([], names, saved)) :
    (isBaseuri resolver = true ∧ saved = { spec with baseuri := some resolver }) ∨
      (saved = { spec with hostNames := some resolver } ∧
        ∀ token ∈ split ' ' resolver, token ≠ [] → Shape token) := by
  unfold resolve at found
  split_ifs at found with uri
  · exact Or.inl ⟨uri, (congrArg (·.2.2) (Option.some.inj found)).symm⟩
  · obtain ⟨⟨errors, others⟩, checked, same⟩ := Option.map_eq_some_iff.mp found
    obtain ⟨rfl, -⟩ := Prod.mk.inj same
    exact Or.inr ⟨(congrArg (·.2.2) same).symm, shape_of_checkTokens checked⟩

/-- What is validated of the path. -/
theorem path_of_pathErrors {stat : List UInt8 → Bool} {spec : ApplicationSpecification}
    (found : pathErrors stat spec = some []) {path type : List Char}
    (placed : spec.path = some path) (typed : spec.type1 = some type)
    (known : downcase type = "rails".toList ∨ downcase type = "rack".toList) :
    '\x00' ∉ path := by
  have absent : ∀ (name : List Char) (errors : Bool → List Wrong),
      (fileExists stat (join path name)).map errors = some [] → '\x00' ∉ path := by
    intro name errors found inside
    obtain ⟨exists', there, -⟩ := Option.map_eq_some_iff.mp found
    unfold fileExists at there
    rw [if_pos] at there
    · cases there
    · exact List.mem_append_left _ (List.mem_append_left _ inside)
  simp only [pathErrors, placed, typed] at found
  split_ifs at found with rails rack
  · exact absent _ _ found
  · exact absent _ _ found
  · exact absurd known (not_or.mpr ⟨rails, rack⟩)

/-- What is validated of the numbers and of the type. -/
theorem settings_spec {spec : ApplicationSpecification} (fine : settingErrors spec = [])
    {type : List Char} (typed : spec.type1 = some type) :
    toI spec.minWorker ≤ toI spec.maxWorker ∧
      (downcase type = "rails".toList ∨ downcase type = "rack".toList) := by
  simp only [settingErrors, List.append_eq_nil_iff, typed, Option.any_some] at fine
  obtain ⟨⟨order, -⟩, known⟩ := fine
  split_ifs at order with less
  split_ifs at known with unknown
  refine ⟨Int.not_lt.mp less, ?_⟩
  by_contra neither
  exact unknown (decide_eq_true (not_or.mp neither))

/-- The attributes that are validated. -/
theorem validated_of_validate {stat : List UInt8 → Bool} {info : List AppInfo}
    {spec saved : ApplicationSpecification}
    (valid : validate stat info spec = some ([], saved)) :
    Validated saved ∧ saved.path = spec.path ∧ saved.runAsUser = spec.runAsUser := by
  obtain ⟨⟨errors, after⟩, ensured, same⟩ := Option.map_eq_some_iff.mp valid
  obtain ⟨none, rfl⟩ := Prod.mk.inj same
  obtain ⟨single, rfl⟩ := List.append_eq_nil_iff.mp none
  unfold ensureValidations at ensured
  split at ensured
  · next place errors after placeFound resolved =>
      have parts := Option.some.inj ensured
      obtain ⟨rest, rfl⟩ := List.append_eq_nil_iff.mp (congrArg Prod.fst parts)
      obtain ⟨setting, rfl⟩ := List.append_eq_nil_iff.mp rest
      obtain rfl : after = _ := congrArg Prod.snd parts
      simp only [attributeErrors, List.append_eq_nil_iff] at single
      obtain ⟨⟨⟨⟨⟨⟨⟨⟨⟨⟨⟨name, -⟩, -⟩, resolver⟩, path⟩, user⟩, -⟩, type⟩, environment⟩, -⟩,
        least⟩, most⟩ := single
      obtain ⟨path, placed⟩ := exists_of_presence path
      obtain ⟨type, typed⟩ := exists_of_presence type
      obtain ⟨resolver, given⟩ := exists_of_presence resolver
      obtain ⟨order, known⟩ := settings_spec setting typed
      have terminated := path_of_pathErrors placeFound placed typed known
      simp only [resolverErrors, given] at resolved
      obtain ⟨⟨found, names, again⟩, looked, same⟩ := Option.map_eq_some_iff.mp resolved
      obtain ⟨none, rfl⟩ := Prod.mk.inj same
      simp only [List.append_eq_nil_iff] at none
      obtain ⟨⟨⟨rfl, -⟩, -⟩, -⟩ := none
      rcases resolve_spec looked with ⟨uri, rfl⟩ | ⟨rfl, shapes⟩
      · exact ⟨⟨exists_of_presence name, ⟨path, placed, terminated⟩, exists_of_presence user,
          ⟨type, typed, known⟩, exists_of_presence environment, (bounds_of_workers least).1, order,
          (bounds_of_workers most).2, Or.inl ⟨resolver, given, uri⟩⟩, rfl, rfl⟩
      · refine ⟨⟨exists_of_presence name, ⟨path, placed, terminated⟩, exists_of_presence user,
          ⟨type, typed, known⟩, exists_of_presence environment, (bounds_of_workers least).1, order,
          (bounds_of_workers most).2, Or.inr ?_⟩, rfl, rfl⟩
        obtain ⟨-, -, -, -, -, -, -, -, -, written⟩ :=
          block_value { spec with hostNames := some resolver }
        unfold hosts
        rw [written]
        exact shape_of_read shapes
  · cases ensured

/-! ### What the server looks up -/

variable {block : AppBlock} {key : String} {value : Option (List Char)} {f : List Char → List Char}

/-- A text under a key has a property when it is written there, readable, and has the property. -/
theorem exists_get (found : block.value key = value.map fun text => cString (utf8 (f text)))
    (right : List UInt8 → Prop) :
    (∃ uri, block.get key = some uri ∧ right uri.1.1) ↔
      ∃ text ∈ value, Readable (f text) ∧ right (cString (utf8 (f text))).1 := by
  rw [AppBlock.get, found]
  cases value with
  | none => exact iff_of_false nofun nofun
  | some text =>
      simp only [Option.map_some, Option.bind_some, Option.mem_def, Option.some.injEq,
        exists_eq_left', Readable]
      unfold validString
      split
      · next read =>
          rw [read]
          exact iff_of_false nofun fun both => Bool.false_ne_true both.1
      · next read =>
          have taken : (yamlValidateString (cString (utf8 (f text))).1).isSome = true := by
            rw [read]
            rfl
          constructor
          · rintro ⟨_, ⟨⟩, holds⟩
            exact ⟨taken, holds⟩
          · exact fun both => ⟨_, rfl, both.2⟩

/-- A text under a key is there when it is written and readable. -/
theorem isSome_get (found : block.value key = value.map fun text => cString (utf8 (f text))) :
    (block.get key).isSome = true ↔ ∃ text ∈ value, Readable (f text) := by
  rw [Option.isSome_iff_exists]
  have both := exists_get found fun _ => True
  simpa only [and_true] using both

/-- The labels of host names that pass are right. -/
theorem labels_of_pass {stack : Nat → List UInt8} {names : List (List UInt8)}
    (pass : Pass stack 0 names) {host : List UInt8} (listed : host ∈ names) :
    ∀ label ∈ strtok (hostName host) 46, label.length ≤ 63 ∧ label.all isLabelByte = true := by
  obtain ⟨pos, found⟩ := List.getElem?_of_mem listed
  exact (Configurator.passes_iff.mp (pass pos host found)).2.2.2.2

/-- A part that is not empty is a token. -/
theorem mem_strtok {text : List UInt8} {b separator : UInt8} (member : b ∈ text)
    (other : b ≠ separator) : ∃ token ∈ strtok text separator, b ∈ token := by
  obtain ⟨part, listed, inside⟩ := Chars.mem_splitOn_of_mem member other
  exact ⟨part, List.mem_filter.mpr ⟨listed, decide_eq_true (List.ne_nil_of_mem inside)⟩, inside⟩

/-- There is no comment in host names that pass. -/
theorem not_mem_of_pass {stack : Nat → List UInt8} {text : List UInt8}
    (pass : Pass stack 0 (strtok text 32)) : (35 : UInt8) ∉ text := by
  intro member
  obtain ⟨host, listed, inside⟩ := mem_strtok member (by decide : (35 : UInt8) ≠ 32)
  have kept : (35 : UInt8) ∈ hostName host := by
    unfold hostName
    split_ifs with tilde
    · obtain ⟨rest, rfl⟩ := List.head?_eq_some_iff.mp tilde
      exact (List.mem_cons.mp inside).resolve_left (by decide)
    · exact inside
  obtain ⟨label, among, there⟩ := mem_strtok kept (by decide : (35 : UInt8) ≠ 46)
  have right := List.all_eq_true.mp (labels_of_pass pass listed label among).2 35 there
  exact absurd right (by decide)

/-- The host names of a node that pass are those that the server takes. -/
theorem strtok_get {stack : Nat → List UInt8} (pass : Pass stack 0 (hosts block)) :
    strtok (((block.get "host_names").map (·.1.1)).getD []) 32 = hosts block := by
  unfold hosts AppBlock.get at *
  cases written : block.value "host_names" with
  | none => rfl
  | some str =>
      rw [written] at pass
      simp only [Option.bind_some, Option.map_some, Option.getD_some] at pass ⊢
      unfold validString
      split
      · next read =>
          unfold yamlValidateString at read
          split_ifs at read with bad
          have blank : str.1.all (· = 32) = true := by
            refine ((Bool.or_eq_true _ _).mp bad).resolve_left fun comment => ?_
            exact not_mem_of_pass pass (List.contains_iff_mem.mp comment)
          refine (List.filter_eq_nil_iff.mpr fun part listed => ?_).symm
          obtain ⟨infixes, absent⟩ := Chars.part_of_mem_splitOn listed
          rw [decide_eq_true_eq, not_not]
          refine List.eq_nil_iff_forall_not_mem.mpr fun b member => absent ?_
          have same := List.all_eq_true.mp blank b (infixes.subset member)
          exact of_decide_eq_true same ▸ member
      · rfl

/-! ### The numbers of workers -/

/-- A number of workers as it is written. -/
def written (spec : ApplicationSpecification) : AppParam → Int
  | .minWorker => toI spec.minWorker
  | .maxWorker => toI spec.maxWorker

theorem read_ofNat (value : Nat) : (cString (Decimal.ofInt value)).1 = Decimal.ofNat value := by
  have digits : ∀ b ∈ Decimal.ofNat value, decide (b ≠ 0) = true := by
    intro b member
    refine decide_eq_true ?_
    rintro rfl
    exact absurd (Decimal.isDigit_of_mem_ofNat member) (by decide)
  exact List.takeWhile_eq_self_iff.mpr digits

variable {around : Surroundings} {server : ServerSettings} {garbage : Memory} {spec}

/-- The numbers of a validated entry fit when they suit the server's own. -/
theorem Validated.numbersFit_iff (valid : Validated spec) :
    Configurator.NumbersFit server garbage spec.block ↔
      spec.number server.config .minWorker ≤ spec.number server.config .maxWorker ∧
        spec.number server.config .maxWorker ≤ Param.max.get server.config := by
  obtain ⟨-, -, -, -, -, -, least, most, -, -⟩ := block_value spec
  have natural : ∀ param, ((written spec param).toNat : Int) = written spec param := by
    intro param
    refine Int.toNat_of_nonneg ?_
    cases param with
    | minWorker => exact valid.least
    | maxWorker => exact Int.le_trans valid.least valid.order
  have texts : (fun param : AppParam => (spec.block.value param.key).map (·.1)) =
      fun param => some (Decimal.ofNat (written spec param).toNat) := by
    funext param
    have read := read_ofNat (written spec param).toNat
    rw [natural] at read
    cases param with
    | minWorker => rw [AppParam.key, least, Option.map_some, ← read]; rfl
    | maxWorker => rw [AppParam.key, most, Option.map_some, ← read]; rfl
  have small : ∀ param, (written spec param).toNat < 65536 := by
    intro param
    have order := valid.order
    have bound := valid.most
    have top : written spec param ≤ 20 := by
      cases param with
      | minWorker => exact Int.le_trans order bound
      | maxWorker => exact bound
    omega
  have both : (written spec .maxWorker).toNat = 0 → (written spec .minWorker).toNat = 0 := by
    have order : written spec .minWorker ≤ written spec .maxWorker := valid.order
    omega
  have own : ∀ param : AppParam, param.get (Configurator.appNumbersSet server.config
      (fun param => some (Decimal.ofNat (written spec param).toNat)) garbage).1 =
        spec.number server.config param := by
    intro param
    rw [Configurator.appNumbersSet_ofNat server.config small both garbage param]
    have whole := natural param
    have zero : (written spec param).toNat = 0 ↔ written spec param = 0 := by omega
    simp only [zero]
    cases param with
    | minWorker => rfl
    | maxWorker => rfl
  unfold Configurator.NumbersFit
  rw [texts]
  dsimp only
  rw [own, own]
  constructor
  · exact fun ⟨_, most, order⟩ => ⟨order, most⟩
  · exact fun ⟨order, most⟩ => ⟨Nat.le_trans order most, most, order⟩

/-! ### When the server accepts an entry -/

/-- Host names of a validated entry pass when their labels are right, or they are right altogether
beside a base URI. -/
theorem Validated.pass_iff (valid : Validated spec) : Pass around.stack 0 (hosts spec.block) ↔
    (∀ host ∈ hosts spec.block, ∀ label ∈ strtok (hostName host) 46,
      label.length ≤ 63 ∧ label.head?.any isLabelByte = true) ∧
    ((∃ resolver ∈ spec.resolver, isBaseuri resolver = true) →
      Pass around.stack 0 (hosts spec.block)) := by
  constructor
  · refine fun pass => ⟨fun host listed label among => ?_, fun _ => pass⟩
    obtain ⟨short, all⟩ := labels_of_pass pass listed label among
    have some : label ≠ [] := of_decide_eq_true (List.mem_filter.mp among).2
    obtain ⟨b, rest, rfl⟩ := List.exists_cons_of_ne_nil some
    exact ⟨short, (Bool.and_eq_true_iff.mp all).1⟩
  · rintro ⟨labels, beside⟩
    rcases valid.shapes with uri | shapes
    · exact beside uri
    · intro pos host found
      have listed := List.mem_of_getElem? found
      obtain ⟨name, rfl, shape⟩ := shapes host listed
      exact (shape.passes_iff _).mpr (labels _ listed)

/-- Host names that pass are all stored unless one is a wildcard and hardly anything else. -/
theorem stored_iff (pass : Pass around.stack 0 (hosts spec.block)) {limit : Nat} {uri : Bool} :
    (∃ found errors, Configurator.wrAppHostNameSet around.stack limit
        (((spec.block.get "host_names").map (·.1.1)).getD []) = some (found, errors) ∧
      (uri = true ↔ found = [])) ↔
    (∀ host ∈ (hosts spec.block).take limit, host.getLast? = some 42 → 2 < host.length) ∧
      (uri = true ↔ (hosts spec.block).take limit = []) := by
  have front : Pass around.stack 0 ((hosts spec.block).take limit) := by
    intro pos host found
    refine pass pos host ?_
    rw [List.getElem?_take] at found
    split_ifs at found
    exact found
  have stored : (∀ host ∈ (hosts spec.block).take limit,
        (Configurator.storedHost host).isSome = true) ↔
      ∀ host ∈ (hosts spec.block).take limit, host.getLast? = some 42 → 2 < host.length :=
    forall₂_congr fun host _ => Configurator.storedHost_isSome_iff
  rw [Configurator.wrAppHostNameSet, strtok_get pass,
    Configurator.hostNamesSet_of_pass front, ← stored]
  generalize (hosts spec.block).take limit = names
  split_ifs with all
  · have empty : names.filterMap Configurator.storedHost = [] ↔ names = [] := by
      cases names with
      | nil => exact iff_of_true rfl rfl
      | cons host rest =>
          obtain ⟨first, found⟩ := Option.isSome_iff_exists.mp (all host List.mem_cons_self)
          rw [List.filterMap_cons, found]
          exact iff_of_false (List.cons_ne_nil _ _) (List.cons_ne_nil _ _)
    constructor
    · rintro ⟨_, _, ⟨⟩, either⟩
      exact ⟨all, either.trans empty⟩
    · exact fun ⟨_, either⟩ => ⟨_, _, rfl, either.trans empty.symm⟩
  · exact iff_of_false (by rintro ⟨_, _, ⟨⟩, -⟩) fun both => all both.1

theorem read_of_not_mem {text : List Char} (absent : '\x00' ∉ text) :
    (cString (utf8 text)).1 = utf8 text := by
  refine List.takeWhile_eq_self_iff.mpr fun b member => decide_eq_true ?_
  rintro rfl
  have zero : (0 : UInt8) = Chars.byte '\x00' := by decide
  exact absent ((Chars.mem_utf8 (by decide)).mp (zero ▸ member))

/-- A validated entry is accepted when its texts are readable, and fit otherwise. -/
theorem Validated.accepted_iff (valid : Validated spec)
    (placed : ∀ path ∈ spec.path, around.stat (utf8 path) = true)
    (pass : Pass around.stack 0 (hosts spec.block)) :
    (wrConfigApplicationSet around server garbage spec.block).settings.isSome = true ↔
      (∃ name ∈ spec.name,
        Readable name ∧ (cString (utf8 name)).1.length < Configurator.maxLenAppName) ∧
      (∃ path ∈ spec.path, Readable path) ∧
      (∃ analytics ∈ spec.analytics, Readable (downcase analytics)) ∧
      (∃ user ∈ spec.runAsUser, Readable (downcase user) ∧
        around.getpwnam (cString (utf8 (downcase user))).1 = true) ∧
      ((∀ host ∈ (hosts spec.block).take (Param.maxHosts.get server.config),
          host.getLast? = some 42 → 2 < host.length) ∧
        ((∃ uri ∈ spec.baseuri, Readable (strip uri)) ↔
          (hosts spec.block).take (Param.maxHosts.get server.config) = [])) ∧
      spec.number server.config .minWorker ≤ spec.number server.config .maxWorker ∧
      spec.number server.config .maxWorker ≤ Param.max.get server.config := by
  obtain ⟨name, named⟩ := valid.name
  obtain ⟨path, located, terminated⟩ := valid.path
  obtain ⟨type, typed, known⟩ := valid.type
  obtain ⟨nameValue, pathValue, userValue, typeValue, analyticsValue, -, -, -, uriValue, -⟩ :=
    block_value spec
  have nameValue : spec.block.value "name" = spec.name.map fun text => cString (utf8 (id text)) := by
    rw [nameValue, named]
    rfl
  have pathValue : spec.block.value "path" = spec.path.map fun text => cString (utf8 (id text)) := by
    rw [pathValue, located]
    rfl
  have forPath : (∃ path ∈ spec.path, Readable (id path) ∧
      around.stat (cString (utf8 (id path))).1 = true) ↔ ∃ path ∈ spec.path, Readable path := by
    refine exists_congr fun other => and_congr_right fun same => ?_
    cases located.symm.trans same
    rw [id, read_of_not_mem terminated, placed path located, eq_self, and_true]
  have forType : (spec.block.get "type").isSome = true := by
    refine (isSome_get typeValue).mpr ⟨type, typed, ?_⟩
    unfold Readable
    rcases known with rails | rack
    · rw [rails]
      decide +kernel
    · rw [rack]
      decide +kernel
  rw [Configurator.accepted_iff, valid.numbersFit_iff, stored_iff pass,
    exists_get nameValue fun bytes => bytes.length < Configurator.maxLenAppName,
    exists_get pathValue fun bytes => around.stat bytes = true, forPath, isSome_get analyticsValue,
    exists_get userValue fun bytes => around.getpwnam bytes = true, isSome_get uriValue]
  constructor
  · exact fun ⟨name, ⟨path, _, analytics⟩, user, hosts, numbers⟩ =>
      ⟨name, path, analytics, user, hosts, numbers⟩
  · exact fun ⟨name, path, analytics, user, hosts, numbers⟩ =>
      ⟨name, ⟨path, forType, analytics⟩, user, hosts, numbers⟩

/-- A specification that passes its validations, with a path and a user that exist, is served just
when it fits in what is not validated. -/
theorem served_iff (around : Surroundings) (server : ServerSettings) (garbage : Memory)
    (info : List AppInfo) {spec saved : ApplicationSpecification}
    (valid : validate around.stat info spec = some ([], saved))
    (placed : ∀ path ∈ spec.path, around.stat (utf8 path) = true)
    (known : ∀ user ∈ spec.runAsUser, around.getpwnam (cString (utf8 user)).1 = true) :
    Served around server garbage saved.block ↔ Fits around server saved := by
  obtain ⟨validated, samePath, sameUser⟩ := validated_of_validate valid
  rw [← samePath] at placed
  rw [← sameUser] at known
  obtain ⟨-, -, -, -, -, environmentValue, -, -, -, -⟩ := block_value saved
  have environment := isSome_get environmentValue
  constructor
  · rintro ⟨accepted, taken, pass⟩
    obtain ⟨name, path, analytics, ⟨user, owner, readable, found⟩, ⟨wildcards, either⟩, order,
      workers⟩ := (validated.accepted_iff placed pass).mp accepted
    obtain ⟨labels, beside⟩ := validated.pass_iff.mp pass
    exact ⟨name, path, analytics, ⟨user, owner, readable, Or.inr found⟩, environment.mp taken,
      either, labels, wildcards, beside, order, workers⟩
  · intro fits
    have pass := validated.pass_iff.mpr ⟨fits.labels, fits.beside⟩
    refine ⟨(validated.accepted_iff placed pass).mpr ?_, environment.mpr fits.environment, pass⟩
    obtain ⟨user, owner, readable, found⟩ := fits.user
    refine ⟨fits.name, fits.path, fits.analytics, ⟨user, owner, readable, ?_⟩,
      ⟨fits.wildcards, fits.either⟩, fits.order, fits.workers⟩
    rcases found with lower | found
    · rw [lower]
      exact known user owner
    · exact found

/-- A form for an application. -/
def shop (resolver : String) : ApplicationSpecification where
  appId := none
  name := some "shop".toList
  hostNames := none
  baseuri := none
  resolver := some resolver.toList
  path := some "/srv/shop".toList
  runAsUser := some "Deploy".toList
  type1 := some "Rails".toList
  analytics := some "Disabled".toList
  environment := some "Production".toList
  minWorker := some ⟨true, 1⟩
  maxWorker := some ⟨true, 2⟩

/-- A system with every file and every user. -/
def everywhere : Surroundings := ⟨fun _ => true, fun _ => true, fun _ => [], fun _ => 0⟩

/-- The server as it is configured without any number. -/
def defaults : ServerSettings := ⟨Configurator.configInit fun _ => 0, cString (ascii "production")⟩

theorem served_iff_sample :
    Served everywhere defaults (fun _ => 0)
      { shop "~*.shop.com www.shop.com" with
        hostNames := some "~*.shop.com www.shop.com".toList }.block := by
  have fits : Fits everywhere defaults { shop "~*.shop.com www.shop.com" with
      hostNames := some "~*.shop.com www.shop.com".toList } :=
    { name := ⟨_, rfl, by decide +kernel⟩
      path := ⟨_, rfl, by decide +kernel⟩
      analytics := ⟨_, rfl, by decide +kernel⟩
      user := ⟨_, rfl, by decide +kernel, Or.inr rfl⟩
      environment := ⟨_, rfl, by decide +kernel⟩
      either := iff_of_false nofun (by decide +kernel)
      labels := by decide +kernel
      wildcards := by decide +kernel
      beside := by
        rintro ⟨_, ⟨⟩, uri⟩
        exact absurd uri (by decide +kernel)
      order := by decide +kernel
      workers := by decide +kernel }
  exact (served_iff everywhere defaults _ []
    (by decide +kernel : validate everywhere.stat [] (shop "~*.shop.com www.shop.com") = _)
    (fun _ _ => rfl) (fun _ _ => rfl)).mpr fits

/-- The panel does not look at the first character of the last label. -/
theorem not_served : ¬ ∀ (around : Surroundings) (server : ServerSettings) (garbage : Memory)
    (info : List AppInfo) (spec saved : ApplicationSpecification),
    validate around.stat info spec = some ([], saved) →
    (∀ path ∈ spec.path, around.stat (utf8 path) = true) →
    (∀ user ∈ spec.runAsUser, around.getpwnam (cString (utf8 user)).1 = true) →
    Served around server garbage saved.block := by
  intro all
  have served := all everywhere defaults (fun _ => 0) [] (shop "www.shop._com")
    { shop "www.shop._com" with hostNames := some "www.shop._com".toList } (by decide +kernel)
    (fun _ _ => rfl) (fun _ _ => rfl)
  have passes := served.hosts 0 (ascii "www.shop._com") (by decide +kernel)
  have refused : (Configurator.wrValidateAppHostName (everywhere.stack (0 + 0))
      (hostName (ascii "www.shop._com"))).isSome = true := by decide +kernel
  rw [passes] at refused
  cases refused

end ApplicationSpecification
