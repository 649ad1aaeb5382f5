import Webroar.Configurator.Independence
import Webroar.Configurator.Settings

/-! # When an application is accepted

The checks of the server, each as a condition on the node: the host names that pass, those that are
stored, and all that has to be right with a node for it to be accepted.
-/

namespace Configurator

open Resolver (Host Uri)

/-! ### Host names -/

/-- The labels of a host name pass just when they are few, short, and of the right bytes. -/
theorem labelsError_eq_none_iff {hostName : List UInt8} {downLevel : Nat}
    {labels : List (List UInt8)} (level : downLevel ≤ 128) :
    labelsError hostName downLevel labels = none ↔ downLevel + labels.length ≤ 128 ∧
      ∀ label ∈ labels, label.length ≤ 63 ∧ label.all isLabelByte = true := by
  induction labels generalizing downLevel with
  | nil => exact iff_of_true rfl ⟨level, nofun⟩
  | cons label rest ih =>
      rw [List.forall_mem_cons, List.length_cons]
      unfold labelsError
      by_cases long : 63 < label.length ∨ 127 < downLevel
      · rw [if_pos (by simpa using long)]
        refine iff_of_false (Option.some_ne_none _) ?_
        rintro ⟨deep, ⟨short, -⟩, -⟩
        omega
      · rw [if_neg (by simpa using long)]
        obtain ⟨short, shallow⟩ := not_or.mp long
        have later := @ih (downLevel + 1) (by omega)
        have count : downLevel + 1 + rest.length = downLevel + (rest.length + 1) := by omega
        rw [count] at later
        by_cases wildcard : label = ascii "*"
        · rw [if_pos wildcard, later, wildcard]
          have fine : (ascii "*").length ≤ 63 ∧ (ascii "*").all isLabelByte = true := by decide
          exact ⟨fun ⟨deep, all⟩ => ⟨deep, fine, all⟩, fun ⟨deep, _, all⟩ => ⟨deep, all⟩⟩
        · rw [if_neg wildcard]
          cases wrong : label.find? (!isLabelByte ·) with
          | none =>
              have fine : label.all isLabelByte = true := by
                refine List.all_eq_true.mpr fun c member => ?_
                have right := List.find?_eq_none.mp wrong c member
                simpa using right
              dsimp only
              rw [later]
              exact ⟨fun ⟨deep, all⟩ => ⟨deep, ⟨Nat.le_of_not_lt short, fine⟩, all⟩,
                fun ⟨deep, _, all⟩ => ⟨deep, all⟩⟩
          | some c =>
              refine iff_of_false (Option.some_ne_none _) ?_
              rintro ⟨-, ⟨-, all⟩, -⟩
              have bad := List.find?_some wrong
              have good := List.all_eq_true.mp all c (List.mem_of_find?_eq_some wrong)
              simp [good] at bad

theorem strstr_eq_none {text needle : List UInt8} (absent : ¬ needle <:+: text) :
    strstr text needle = none := by
  induction text with
  | nil =>
      unfold strstr
      refine if_neg ?_
      rintro rfl
      exact absent (List.infix_refl _)
  | cons b text ih =>
      have front : ¬ needle.isPrefixOf (b :: text) = true := fun found =>
        absent (List.isPrefixOf_iff_prefix.mp found).isInfix
      have later := ih fun found => absent (found.trans (List.suffix_cons b text).isInfix)
      unfold strstr
      rw [if_neg front, later]
      rfl

/-- Behind a wildcard there is nothing when it can only be the last. -/
theorem length_dropWhile_le {α : Type} [DecidableEq α] {text : List α} {x : α}
    (last : ∀ pos, text[pos]? = some x → pos + 1 = text.length) :
    (text.dropWhile (· ≠ x)).length ≤ 1 := by
  induction text with
  | nil => exact Nat.zero_le _
  | cons y text ih =>
      rw [List.dropWhile_cons]
      split_ifs with other
      · refine ih fun pos found => ?_
        have ended := last (pos + 1) found
        rw [List.length_cons] at ended
        omega
      · have same : y = x := by simpa using other
        have ended := last 0 (by rw [same]; rfl)
        exact Nat.le_of_eq ended.symm

/-- A host name passes when it is short, has no two dots in a row and no wildcard but at an end, and
its labels pass. -/
theorem passes_iff {stack hostName : List UInt8} :
    wrValidateAppHostName stack hostName = none ↔ hostName.length ≤ 253 ∧
      strstr hostName (ascii "..") = none ∧
      ((if hostName = [] then stack else hostName.drop 1).dropWhile (· ≠ 42)).length ≤ 1 ∧
      (strtok hostName 46).length ≤ 126 ∧
      ∀ label ∈ strtok hostName 46, label.length ≤ 63 ∧ label.all isLabelByte = true := by
  have labels := @labelsError_eq_none_iff hostName 2 (strtok hostName 46) (by decide)
  have few : 2 + (strtok hostName 46).length ≤ 128 ↔ (strtok hostName 46).length ≤ 126 := by omega
  rw [few] at labels
  unfold wrValidateAppHostName
  dsimp only
  generalize (if hostName = [] then stack else hostName.drop 1) = behind
  split_ifs with long dots inside
  · exact iff_of_false not_false fun right => Nat.not_le_of_lt long right.1
  · refine iff_of_false not_false fun right => ?_
    rw [right.2.1] at dots
    cases dots
  · exact iff_of_false not_false fun right => Nat.not_le_of_lt inside right.2.2.1
  · rw [labels]
    exact ⟨fun right => ⟨Nat.le_of_not_lt long, Option.not_isSome_iff_eq_none.mp dots,
      Nat.le_of_not_lt inside, right⟩, fun right => right.2.2.2⟩

/-- The length of a host name becomes negative when it is a wildcard behind at most one byte. -/
theorem storedHost_isSome_iff {host : List UInt8} :
    (storedHost host).isSome = true ↔ (host.getLast? = some 42 → 2 < host.length) := by
  unfold storedHost
  by_cases wildcard : host.getLast? = some 42
  · rw [if_pos wildcard, if_pos wildcard]
    split_ifs with second short short
    · exact iff_of_false Bool.false_ne_true fun long => by have := long wildcard; omega
    · exact iff_of_true rfl fun _ => by omega
    · refine iff_of_false Bool.false_ne_true fun long => ?_
      have := long wildcard
      omega
    · refine iff_of_true rfl fun _ => ?_
      -- a last byte that is not the second one has two before it
      by_contra two
      have length : host.length = 2 := by omega
      have last : host.getLast? = host[1]? := by
        rw [List.getLast?_eq_getElem?, length]
      exact second (last ▸ wildcard)
  · rw [if_neg wildcard, if_neg wildcard]
    refine iff_of_true ?_ fun last => absurd last wildcard
    split_ifs
    · rfl
    · rfl
    · rfl

/-- A host name without the tilde in front. -/
def hostName (host : List UInt8) : List UInt8 := if host.head? = some 126 then host.drop 1 else host

/-- All host names from one on pass. -/
def Pass (stack : Nat → List UInt8) (counter : Nat) (hosts : List (List UInt8)) : Prop :=
  ∀ index host, hosts[index]? = some host →
    wrValidateAppHostName (stack (counter + index)) (hostName host) = none

theorem pass_cons {stack : Nat → List UInt8} {counter : Nat} {host : List UInt8}
    {rest : List (List UInt8)} : Pass stack counter (host :: rest) ↔
      wrValidateAppHostName (stack counter) (hostName host) = none ∧
        Pass stack (counter + 1) rest := by
  constructor
  · intro pass
    refine ⟨pass 0 host rfl, fun index other found => ?_⟩
    have passes := pass (index + 1) other found
    rw [← Nat.add_assoc, Nat.add_right_comm] at passes
    exact passes
  · rintro ⟨first, later⟩ index other found
    cases index with
    | zero =>
        cases found
        exact first
    | succ index =>
        have passes := later index other found
        rw [Nat.add_right_comm, Nat.add_assoc] at passes
        exact passes

/-- Host names that pass are stored, all of them. -/
theorem hostNamesSet_of_pass {stack : Nat → List UInt8} {hosts : List (List UInt8)} {counter : Nat}
    (pass : Pass stack counter hosts) :
    hostNamesSet stack counter hosts =
      if ∀ host ∈ hosts, (storedHost host).isSome = true then
        some (hosts.filterMap storedHost, [])
      else none := by
  induction hosts generalizing counter with
  | nil => rw [if_pos (by exact nofun)]; rfl
  | cons host rest ih =>
      obtain ⟨passes, pass⟩ := pass_cons.mp pass
      unfold hostNamesSet
      unfold hostName at passes
      simp only [passes, ih pass]
      cases stored : storedHost host with
      | none =>
          have lost : ¬ ∀ other ∈ host :: rest, (storedHost other).isSome = true := by
            intro all
            have some := all host List.mem_cons_self
            rw [stored] at some
            cases some
          rw [if_neg lost]
      | some first =>
          by_cases all : ∀ host ∈ rest, (storedHost host).isSome = true
          · rw [if_pos all, if_pos (List.forall_mem_cons.mpr ⟨by rw [stored]; rfl, all⟩),
              List.filterMap_cons, stored]
          · rw [if_neg all, if_neg fun both => all (List.forall_mem_cons.mp both).2]

/-! ### The node -/

/-- The numbers of workers are in order and not greater than the server's greatest. -/
def NumbersFit (server : ServerSettings) (garbage : Memory) (block : AppBlock) : Prop :=
  let numbers := (appNumbersSet server.config (fun param => (block.value param.key).map (·.1))
    garbage).1
  AppParam.minWorker.get numbers ≤ Param.max.get server.config ∧
    AppParam.maxWorker.get numbers ≤ Param.max.get server.config ∧
    AppParam.minWorker.get numbers ≤ AppParam.maxWorker.get numbers

theorem required_eq_nil_iff {value : Option Uri} {missing : List UInt8}
    {wrong : List UInt8 → Option (List UInt8)} :
    required value missing wrong = [] ↔ ∃ str, value = some str ∧ wrong str.1.1 = none := by
  cases value with
  | none => exact iff_of_false (List.cons_ne_nil _ _) nofun
  | some str =>
      rw [required, Option.toList_eq_nil_iff]
      constructor
      · exact fun right => ⟨str, rfl, right⟩
      · rintro ⟨_, ⟨⟩, right⟩
        exact right

theorem workerErrors_eq_nil_iff {config numbers : Memory} {name : List UInt8} {param : AppParam} :
    workerErrors config numbers name param = [] ↔
      param.get numbers ≤ Param.max.get config := by
  unfold workerErrors
  split_ifs with many
  · exact iff_of_false not_false (Nat.not_le_of_lt many)
  · exact iff_of_true rfl (Nat.le_of_not_lt many)

variable {around : Surroundings} {server : ServerSettings} {garbage : Memory} {block : AppBlock}

theorem placeErrors_eq_nil_iff {name : List UInt8} : placeErrors around name block = [] ↔
    (∃ path, block.get "path" = some path ∧ around.stat path.1.1 = true) ∧
      (block.get "type").isSome = true ∧ (block.get "analytics").isSome = true := by
  unfold placeErrors
  rw [List.append_eq_nil_iff, List.append_eq_nil_iff, required_eq_nil_iff, required_eq_nil_iff,
    required_eq_nil_iff]
  simp [Option.isSome_iff_exists, and_assoc]

theorem ownerErrors_eq_nil_iff {name : List UInt8} {hosts : List Host} :
    ownerErrors around name block hosts = [] ↔
      (∃ user, block.get "run_as_user" = some user ∧ around.getpwnam user.1.1 = true) ∧
        ((block.get "baseuri").isSome = true ↔ hosts = []) := by
  unfold ownerErrors
  rw [List.append_eq_nil_iff, List.append_eq_nil_iff, required_eq_nil_iff]
  cases block.get "baseuri" with
  | none => cases hosts <;> simp
  | some uri => cases hosts <;> simp

/-- A number is stored in the same bytes of any memory. -/
theorem wrSetNumericValue_congr {first second : Memory} {str : Option (List UInt8)}
    {offset : Nat} {flag : Bool} {i : Nat} (same : first i = second i) :
    wrSetNumericValue first str offset flag i = wrSetNumericValue second str offset flag i := by
  have stored : ∀ value, first.store offset 8 value i = second.store offset 8 value i := by
    intro value
    unfold Memory.store
    rw [same]
  unfold wrSetNumericValue
  cases str.bind yamlValidateString with
  | none => exact same
  | some text =>
      dsimp only
      split
      · exact stored _
      · split
        · exact stored _
        · exact same

/-- The numbers of workers do not depend on what the memory held before. -/
theorem appNumbersSet_get (config : Memory) (text : AppParam → Option (List UInt8))
    (first second : Memory) (param : AppParam) :
    param.get (appNumbersSet config text first).1 =
      param.get (appNumbersSet config text second).1 := by
  have begun : ∀ i, 48 ≤ i → i < 52 →
      ((first.store AppParam.minWorker.offset 2 (Param.minWorkers.get config)).store
          AppParam.maxWorker.offset 2 (Param.maxWorkers.get config)) i =
        ((second.store AppParam.minWorker.offset 2 (Param.minWorkers.get config)).store
          AppParam.maxWorker.offset 2 (Param.maxWorkers.get config)) i := by
    intro i above below
    have offsets : AppParam.minWorker.offset = 48 ∧ AppParam.maxWorker.offset = 50 := by decide
    unfold Memory.store
    rw [offsets.1, offsets.2]
    by_cases late : 50 ≤ i
    · rw [if_pos ⟨late, below⟩, if_pos ⟨late, below⟩]
    · have early : 48 ≤ i ∧ i < 48 + 2 := ⟨above, by omega⟩
      have later : ¬ (50 ≤ i ∧ i < 50 + 2) := fun both => late both.1
      simp only [if_neg later, if_pos early]
  apply Memory.load_congr
  intro i above below
  have inside : 48 ≤ i ∧ i < 52 := by
    have offsets : AppParam.minWorker.offset = 48 ∧ AppParam.maxWorker.offset = 50 := by decide
    cases param with
    | minWorker => omega
    | maxWorker => omega
  exact wrSetNumericValue_congr (wrSetNumericValue_congr (begun i inside.1 inside.2))

theorem applicationNumbers_get (config garbage : Memory) (block : AppBlock) (param : AppParam) :
    param.get (applicationNumbers config garbage block) =
      param.get (appNumbersSet config (fun param => (block.value param.key).map (·.1))
        garbage).1 :=
  appNumbersSet_get config _ _ _ param

/-- With all that must be there only the order of the numbers is left to check. -/
theorem applicationEnd_isSome_iff {name : Uri} {hosts : List Host} {numbers : Memory}
    (placed : (block.get "path").isSome = true) (typed : (block.get "type").isSome = true)
    (analysed : (block.get "analytics").isSome = true)
    (owned : (block.get "run_as_user").isSome = true) :
    (applicationEnd around server name hosts numbers block).settings.isSome = true ↔
      AppParam.minWorker.get numbers ≤ AppParam.maxWorker.get numbers := by
  obtain ⟨path, placed⟩ := Option.isSome_iff_exists.mp placed
  obtain ⟨type, typed⟩ := Option.isSome_iff_exists.mp typed
  obtain ⟨analytics, analysed⟩ := Option.isSome_iff_exists.mp analysed
  obtain ⟨user, owned⟩ := Option.isSome_iff_exists.mp owned
  unfold applicationEnd wrAppConfReqSet
  simp only [placed, typed, analysed, owned]
  split_ifs with order
  · rw [refuse_settings]
    exact iff_of_false Bool.false_ne_true (Nat.not_le_of_lt order)
  · exact iff_of_true rfl (Nat.le_of_not_lt order)

/-- A node is accepted when its name is short, everything it must have is there, it has either a
base URI or host names, and its numbers fit. -/
theorem accepted_iff : (wrConfigApplicationSet around server garbage block).settings.isSome = true ↔
    (∃ name, block.get "name" = some name ∧ name.1.1.length < maxLenAppName) ∧
    ((∃ path, block.get "path" = some path ∧ around.stat path.1.1 = true) ∧
      (block.get "type").isSome = true ∧ (block.get "analytics").isSome = true) ∧
    (∃ user, block.get "run_as_user" = some user ∧ around.getpwnam user.1.1 = true) ∧
    (∃ hosts errors, wrAppHostNameSet around.stack (Param.maxHosts.get server.config)
        (((block.get "host_names").map (·.1.1)).getD []) = some (hosts, errors) ∧
      ((block.get "baseuri").isSome = true ↔ hosts = [])) ∧
    NumbersFit server garbage block := by
  unfold wrConfigApplicationSet NumbersFit
  cases named : block.get "name" with
  | none => exact iff_of_false Bool.false_ne_true nofun
  | some name =>
      dsimp only
      by_cases short : name.1.1.length < maxLenAppName
      · have called : ∃ known, some name = some known ∧ known.1.1.length < maxLenAppName :=
          ⟨name, rfl, short⟩
        rw [if_pos short]
        cases set : wrAppHostNameSet around.stack (Param.maxHosts.get server.config)
            (((block.get "host_names").map (·.1.1)).getD []) with
        | none =>
            refine iff_of_false Bool.false_ne_true ?_
            rintro ⟨-, -, -, ⟨hosts, errors, found, -⟩, -⟩
            cases found
        | some result =>
            obtain ⟨hosts, hostErrors⟩ := result
            dsimp only
            simp only [← applicationNumbers_get]
            generalize applicationNumbers server.config garbage block = numbers
            have errors : (placeErrors around name.1.1 block ++
                (ownerErrors around name.1.1 block hosts ++
                  workerErrors server.config numbers name.1.1 .minWorker ++
                  workerErrors server.config numbers name.1.1 .maxWorker) = []) ↔
                ((∃ path, block.get "path" = some path ∧ around.stat path.1.1 = true) ∧
                  (block.get "type").isSome = true ∧ (block.get "analytics").isSome = true) ∧
                (((∃ user, block.get "run_as_user" = some user ∧
                    around.getpwnam user.1.1 = true) ∧
                  ((block.get "baseuri").isSome = true ↔ hosts = [])) ∧
                AppParam.minWorker.get numbers ≤ Param.max.get server.config) ∧
                AppParam.maxWorker.get numbers ≤ Param.max.get server.config := by
              rw [List.append_eq_nil_iff, List.append_eq_nil_iff, List.append_eq_nil_iff,
                placeErrors_eq_nil_iff, ownerErrors_eq_nil_iff, workerErrors_eq_nil_iff,
                workerErrors_eq_nil_iff]
            have hostsFit : (∃ hosts' errors, some (hosts, hostErrors) = some (hosts', errors) ∧
                ((block.get "baseuri").isSome = true ↔ hosts' = [])) ↔
                ((block.get "baseuri").isSome = true ↔ hosts = []) := by
              constructor
              · rintro ⟨_, _, ⟨⟩, either⟩
                exact either
              · exact fun either => ⟨hosts, hostErrors, rfl, either⟩
            rw [hostsFit]
            by_cases fine : placeErrors around name.1.1 block ++
                (ownerErrors around name.1.1 block hosts ++
                  workerErrors server.config numbers name.1.1 .minWorker ++
                  workerErrors server.config numbers name.1.1 .maxWorker) = []
            · rw [if_neg (not_not.mpr fine)]
              obtain ⟨place, ⟨⟨owner, either⟩, few⟩, many⟩ := errors.mp fine
              rw [applicationEnd_isSome_iff (Option.isSome_iff_exists.mpr (place.1.imp fun _ => And.left))
                place.2.1 place.2.2 (Option.isSome_iff_exists.mpr (owner.imp fun _ => And.left))]
              exact ⟨fun order => ⟨called, place, owner, either, few, many, order⟩,
                fun right => right.2.2.2.2.2.2⟩
            · rw [if_pos fine, refuse_settings]
              refine iff_of_false Bool.false_ne_true ?_
              rintro ⟨-, place, owner, either, few, many, -⟩
              exact fine (errors.mpr ⟨place, ⟨⟨owner, either⟩, few⟩, many⟩)
      · rw [if_neg short]
        refine iff_of_false ?_ ?_
        · split_ifs
          · exact Bool.false_ne_true
          · exact Bool.false_ne_true
        · rintro ⟨⟨known, same, shorter⟩, -⟩
          cases same
          exact short shorter

/-! ### Numbers that are always written -/

/-- A zero is like no number at all. -/
theorem wrSetNumericValue_zero (memory : Memory) (offset : Nat) :
    wrSetNumericValue memory (some (Decimal.ofNat 0)) offset false = memory := rfl

/-- Numbers, of which a zero counts as none. -/
def AppNumbers.positive (number : AppParam → Nat) (small : ∀ param, number param < 65536) :
    AppNumbers where
  text param := if number param = 0 then none else some (Decimal.ofNat (number param))
  values param := if number param = 0 then none else some (number param)
  plain := by
    refine ⟨fun param => ?_, fun param value given => ?_, fun param zero => ?_⟩
    · split_ifs
      · rfl
      · rfl
    · split_ifs at given
      exact Option.some.inj given ▸ small param
    · split_ifs at zero with none
      exact absurd (Option.some.inj zero) none

/-- The numbers of workers, when there are texts for both: the server's own in place of a zero. The
least is zero if the greatest is. -/
theorem appNumbersSet_ofNat (config : Memory) {number : AppParam → Nat}
    (small : ∀ param, number param < 65536)
    (both : number .maxWorker = 0 → number .minWorker = 0) (garbage : Memory) (param : AppParam) :
    param.get (appNumbersSet config (fun param => some (Decimal.ofNat (number param)))
        garbage).1 =
      if number param = 0 then param.general.get config else number param := by
  have text : ∀ (memory : Memory) (param : AppParam),
      wrSetNumericValue memory (some (Decimal.ofNat (number param))) param.offset false =
        wrSetNumericValue memory ((AppNumbers.positive number small).text param) param.offset
          false := by
    intro memory param
    simp only [AppNumbers.positive]
    split_ifs with none
    · rw [none]
      rfl
    · rfl
  have same : (appNumbersSet config (fun param => some (Decimal.ofNat (number param)))
      garbage).1 = (appNumbersSet config (AppNumbers.positive number small).text garbage).1 := by
    simp only [appNumbersSet, text]
  have spec := congrFun (appNumbersSet_spec config (AppNumbers.positive number small) garbage) param
  rw [same]
  refine spec.trans ?_
  have runs : AppParam.runsOver .minWorker .maxWorker = true ∧
      AppParam.runsOver .maxWorker .minWorker = false := by decide
  simp only [Fields.putAll, AppNumbers.positive]
  by_cases most : number .maxWorker = 0
  · have least := both most
    simp only [most, least, if_pos]
    cases param with
    | minWorker => rw [if_pos least]
    | maxWorker => rw [if_pos most]
  · by_cases least : number .minWorker = 0
    · simp only [least, most, if_pos, if_false, Fields.put]
      cases param with
      | minWorker => simp [least, runs.2]
      | maxWorker => simp [most]
    · simp only [least, most, if_false, Fields.put]
      cases param with
      | minWorker => simp [least, runs.2]
      | maxWorker => simp [most]

end Configurator
