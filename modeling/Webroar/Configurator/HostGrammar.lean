import Mathlib
import Webroar.Configurator.Acceptance
import Webroar.Library.Chars

/-! # Host names that are stored as they were meant

The user guide says what a host name is: labels with dots between them, behind a tilde if there is a
wildcard, which may stand at the start and at the end. The server checks the labels in one function
and takes the wildcards off in another, and the caller does not look at the result of either.
-/

namespace Configurator

open Resolver (Host HostType Uri)

/-! ### The grammar -/

/-- A letter, a digit or a hyphen. -/
def isLdhByte (c : UInt8) : Bool := isLabelByte c && c ≠ 42

/-- The wildcards before and behind the text of a host name. -/
def marks : HostType → List UInt8 × List UInt8
  | .static => ([], [])
  | .wildcardInStart => ([42], [])
  | .wildcardInEnd => ([], [42])
  | .wildcardInStartEnd => ([42], [42])

/-- A host name with its wildcards, but without the tilde. -/
def marked (host : Host) : List UInt8 := (marks host.type).1 ++ host.name.1 ++ (marks host.type).2

/-- A host name of the configuration means a host: only one without wildcards may do without the
tilde, between the wildcards there are labels and dots, and no label is empty or long. -/
structure Denotes (name : List UInt8) (host : Host) : Prop where
  spelled : name = 126 :: marked host ∨ host.type = .static ∧ name = host.name.1
  plain : ∀ c ∈ host.name.1, isLdhByte c = true ∨ c = 46
  labels : ∀ label ∈ (marked host).splitOn 46, 1 ≤ label.length ∧ label.length ≤ 63
  length : (marked host).length ≤ 253

variable {name : List UInt8} {host : Host}

theorem isLabelByte_of_isLdhByte {c : UInt8} (ldh : isLdhByte c = true) : isLabelByte c = true := by
  unfold isLdhByte at ldh
  simp only [Bool.and_eq_true] at ldh
  exact ldh.1

theorem mem_marks {type : HostType} {c : UInt8} :
    (c ∈ (marks type).1 → c = 42) ∧ (c ∈ (marks type).2 → c = 42) := by
  cases type <;> simp [marks]

/-- There is no wildcard and no tilde between the wildcards. -/
theorem Denotes.not_mem (denotes : Denotes name host) :
    (42 : UInt8) ∉ host.name.1 ∧ (126 : UInt8) ∉ host.name.1 := by
  constructor
  · intro member
    rcases denotes.plain _ member with ldh | dot
    · cases ldh
    · cases dot
  · intro member
    rcases denotes.plain _ member with ldh | dot
    · cases ldh
    · cases dot

theorem Denotes.marked_ne_nil (denotes : Denotes name host) : marked host ≠ [] := by
  intro none
  have empty := denotes.labels [] (by rw [none, List.splitOn_nil]; exact List.mem_singleton_self _)
  cases Nat.not_lt_of_le empty.1 Nat.zero_lt_one

/-- Without the tilde only the marked text is left. -/
theorem Denotes.hostName (denotes : Denotes name host) : hostName name = marked host := by
  rcases denotes.spelled with spelled | ⟨static, spelled⟩
  · rw [spelled]
    rfl
  · have bare : marked host = host.name.1 := by
      rw [marked, static]
      exact List.append_nil _
    have other : name.head? ≠ some 126 := by
      intro tilde
      rw [spelled] at tilde
      exact denotes.not_mem.2 (List.mem_of_mem_head? tilde)
    rw [Configurator.hostName, if_neg other, bare, spelled]

/-! ### A host name of the grammar passes -/

/-- A wildcard stands at the start or at the end. -/
theorem Denotes.wildcard (denotes : Denotes name host) {pos : Nat}
    (found : (marked host)[pos]? = some 42) : pos = 0 ∨ pos + 1 = (marked host).length := by
  have few : (marks host.type).1.length ≤ 1 ∧ (marks host.type).2.length ≤ 1 := by
    cases host.type <;> decide
  have length : (marked host).length =
      (marks host.type).1.length + host.name.1.length + (marks host.type).2.length := by
    rw [marked, List.length_append, List.length_append]
  have inside := (List.getElem?_eq_some_iff.mp found).1
  rw [marked, List.append_assoc] at found
  by_cases front : pos < (marks host.type).1.length
  · exact Or.inl (by omega)
  · rw [List.getElem?_append_right (Nat.le_of_not_lt front)] at found
    by_cases middle : pos - (marks host.type).1.length < host.name.1.length
    · rw [List.getElem?_append_left middle] at found
      exact absurd (List.mem_of_getElem? found) denotes.not_mem.1
    · exact Or.inr (by omega)

theorem Denotes.isLabelByte (denotes : Denotes name host) {c : UInt8} (member : c ∈ marked host) :
    isLabelByte c = true ∨ c = 46 := by
  rw [marked, List.mem_append, List.mem_append] at member
  rcases member with (front | middle) | back
  · exact Or.inl (mem_marks.1 front ▸ rfl)
  · exact (denotes.plain c middle).imp_left isLabelByte_of_isLdhByte
  · exact Or.inl (mem_marks.2 back ▸ rfl)

/-- A host name of the grammar passes unless it has too many labels. -/
theorem Denotes.passes (denotes : Denotes name host) (stack : List UInt8)
    (few : (strtok (Configurator.hostName name) 46).length ≤ 126) :
    wrValidateAppHostName stack (Configurator.hostName name) = none := by
  rw [denotes.hostName] at few ⊢
  refine passes_iff.mpr ⟨denotes.length, ?_, ?_, few, ?_⟩
  · refine strstr_eq_none fun twice => ?_
    have empty := denotes.labels [] (List.mem_of_mem_tail (Chars.nil_mem_splitOn twice))
    exact Nat.not_lt_of_le empty.1 Nat.zero_lt_one
  · rw [if_neg denotes.marked_ne_nil]
    refine length_dropWhile_le fun pos found => ?_
    rw [List.getElem?_drop, Nat.add_comm] at found
    have ended := (denotes.wildcard found).resolve_left (Nat.succ_ne_zero pos)
    rw [List.length_drop]
    omega
  · intro label member
    have listed := List.mem_of_mem_filter member
    refine ⟨(denotes.labels label listed).2, List.all_eq_true.mpr fun c inside => ?_⟩
    obtain ⟨piece, absent⟩ := Chars.part_of_mem_splitOn listed
    refine (denotes.isLabelByte (piece.subset inside)).resolve_right ?_
    rintro rfl
    exact absent inside

/-! ### It is stored as what it means -/

theorem cString_eq (text : Text) : cString text.1 = text := by
  refine Subtype.ext (List.takeWhile_eq_self_iff.mpr fun c member => decide_eq_true ?_)
  rintro rfl
  exact text.2 member

/-- A host name of the grammar is stored as what it means, unless it is a wildcard only. -/
theorem Denotes.stored (denotes : Denotes name host)
    (long : name.getLast? = some 42 → 2 < name.length) : storedHost name = some host := by
  obtain ⟨type, text⟩ := host
  obtain ⟨noStar, -⟩ := denotes.not_mem
  have last : ∀ front : List UInt8, text.1 ≠ [] → (front ++ text.1).getLast? ≠ some 42 := by
    intro front some star
    rw [List.getLast?_append_of_ne_nil _ some] at star
    exact noStar (List.mem_of_getLast? star)
  have spelled := denotes.spelled
  cases type with
  | static =>
      have absent : (42 : UInt8) ∉ name := by
        rcases spelled with rfl | ⟨-, rfl⟩
        · simpa [marked, marks] using noStar
        · exact noStar
      have second : name[1]? ≠ some 42 := fun found => absent (List.mem_of_getElem? found)
      have ended : name.getLast? ≠ some 42 := fun found => absent (List.mem_of_getLast? found)
      unfold storedHost
      rw [if_neg second, if_neg ended]
      rcases spelled with spelled | ⟨-, spelled⟩
      · have bare : name = 126 :: text.1 := by
          rw [spelled, marked, marks, List.nil_append, List.append_nil]
        rw [bare, if_pos List.head?_cons, List.drop_succ_cons, List.drop_zero, cString_eq]
      · have other : name.head? ≠ some 126 := fun tilde =>
          denotes.not_mem.2 (spelled ▸ List.mem_of_mem_head? tilde)
        rw [if_neg other, spelled, cString_eq]
  | wildcardInStart =>
      have bare : name = [126, 42] ++ text.1 := by
        rcases spelled with spelled | ⟨static, -⟩
        · rw [spelled, marked, marks, List.append_nil]
          rfl
        · cases static
      have some : text.1 ≠ [] := by
        intro none
        rw [bare, none] at long
        exact absurd (long rfl) (by decide)
      unfold storedHost
      rw [bare, if_pos (by rfl), if_neg (last [126, 42] some)]
      change Option.some (Host.mk .wildcardInStart (cString text.1)) = _
      rw [cString_eq]
  | wildcardInEnd =>
      have bare : name = 126 :: (text.1 ++ [42]) := by
        rcases spelled with spelled | ⟨static, -⟩
        · rw [spelled, marked, marks, List.nil_append]
        · cases static
      have ended : name.getLast? = some 42 := by
        rw [bare, ← List.cons_append, List.getLast?_concat]
      have longer := long ended
      have second : name[1]? ≠ some 42 := by
        rw [bare, List.getElem?_cons_succ]
        cases filled : text.1 with
        | nil =>
            rw [bare, filled] at longer
            exact absurd longer (by decide)
        | cons c rest =>
            intro found
            exact noStar (filled ▸ Option.some.inj found ▸ List.mem_cons_self)
      unfold storedHost
      rw [if_neg second, if_pos ended, if_neg (by omega), bare, List.drop_succ_cons, List.drop_zero]
      have count : (126 :: (text.1 ++ [42])).length - 2 = text.1.length := by
        rw [List.length_cons, List.length_append, List.length_singleton]
        omega
      rw [count, List.take_left, cString_eq]
  | wildcardInStartEnd =>
      have bare : name = 126 :: 42 :: (text.1 ++ [42]) := by
        rcases spelled with spelled | ⟨static, -⟩
        · rw [spelled]
          rfl
        · cases static
      have ended : name.getLast? = some 42 := by
        rw [bare, ← List.cons_append, ← List.cons_append, List.getLast?_concat]
      have longer := long ended
      unfold storedHost
      rw [if_pos (by rw [bare]; rfl), if_pos ended, if_neg (by omega), bare, List.drop_succ_cons,
        List.drop_succ_cons, List.drop_zero]
      have count : (126 :: 42 :: (text.1 ++ [42])).length - 3 = text.1.length := by
        rw [List.length_cons, List.length_cons, List.length_append, List.length_singleton]
        omega
      rw [count, List.take_left, cString_eq]

/-! ### The list -/

/-- The host names up to the first that does not pass. -/
def passing (stack : Nat → List UInt8) : Nat → List (List UInt8) → List (List UInt8)
  | _, [] => []
  | counter, host :: rest =>
      if wrValidateAppHostName (stack counter) (Configurator.hostName host) = none then
        host :: passing stack (counter + 1) rest
      else []

variable {stack : Nat → List UInt8} {counter : Nat} {texts : List (List UInt8)}

/-- The host names that pass are stored, if the length of none becomes negative. -/
theorem hostNamesSet_eq : ∃ wrong, hostNamesSet stack counter texts =
    if ∀ host ∈ passing stack counter texts, (storedHost host).isSome = true then
      some ((passing stack counter texts).filterMap storedHost, wrong)
    else none := by
  induction texts generalizing counter with
  | nil => exact ⟨[], by rw [if_pos (by rintro _ ⟨⟩)]; rfl⟩
  | cons host rest ih =>
      obtain ⟨wrong, later⟩ := @ih (counter + 1)
      unfold hostNamesSet passing
      unfold Configurator.hostName
      dsimp only
      cases fails : wrValidateAppHostName (stack counter)
          (if host.head? = some 126 then host.drop 1 else host) with
      | some text =>
          rw [if_neg (Option.some_ne_none _)]
          exact ⟨text, by rw [if_pos (by rintro _ ⟨⟩)]; rfl⟩
      | none =>
          rw [if_pos rfl]
          dsimp only
          rw [later]
          refine ⟨wrong, ?_⟩
          cases stored : storedHost host with
          | none =>
              have lost : ¬ ∀ other ∈ host :: passing stack (counter + 1) rest,
                  (storedHost other).isSome = true := by
                intro all
                have some := all host List.mem_cons_self
                rw [stored] at some
                cases some
              rw [if_neg lost]
          | some first =>
              rw [List.filterMap_cons, stored]
              simp only [List.forall_mem_cons, stored, Option.isSome_some, true_and]
              split_ifs
              · rfl
              · rfl

theorem passing_prefix : passing stack counter texts <+: texts := by
  induction texts generalizing counter with
  | nil => exact List.prefix_rfl
  | cons host rest ih =>
      unfold passing
      split_ifs
      · exact List.cons_prefix_cons.mpr ⟨rfl, ih⟩
      · exact List.nil_prefix

theorem passes_of_mem_passing (member : name ∈ passing stack counter texts) :
    ∃ memory, wrValidateAppHostName memory (Configurator.hostName name) = none := by
  induction texts generalizing counter with
  | nil => cases member
  | cons host rest ih =>
      unfold passing at member
      split_ifs at member with passes
      · rcases List.mem_cons.mp member with rfl | later
        · exact ⟨_, passes⟩
        · exact ih later
      · cases member

theorem passing_eq_self
    (all : ∀ name ∈ texts, ∀ memory,
      wrValidateAppHostName memory (Configurator.hostName name) = none) :
    passing stack counter texts = texts := by
  induction texts generalizing counter with
  | nil => rfl
  | cons host rest ih =>
      obtain ⟨first, later⟩ := List.forall_mem_cons.mp all
      unfold passing
      rw [if_pos (first _), ih later]

theorem forall₂_filterMap {texts : List (List UInt8)}
    (all : ∀ name ∈ texts, ∃ host, Denotes name host ∧ storedHost name = some host) :
    List.Forall₂ Denotes texts (texts.filterMap storedHost) := by
  induction texts with
  | nil => exact .nil
  | cons name rest ih =>
      obtain ⟨first, later⟩ := List.forall_mem_cons.mp all
      obtain ⟨host, denotes, stored⟩ := first
      rw [List.filterMap_cons, stored]
      exact .cons denotes (ih later)

/-! ### The node -/

variable (around : Surroundings) (server : ServerSettings) (garbage : Memory) (block : AppBlock)

/-- The text with the host names. -/
def AppBlock.hostNames : List UInt8 := ((block.get "host_names").map (·.1.1)).getD []

/-- The host names. -/
def AppBlock.names : List (List UInt8) := strtok block.hostNames 32

/-- The host names that are stored. -/
def storedNames : List (List UInt8) :=
  passing around.stack 0 (block.names.take (Param.maxHosts.get server.config))

/-- No length becomes negative, and an application that is accepted has the hosts that its host
names mean. -/
def HostNamesRight : Prop :=
  (wrAppHostNameSet around.stack (Param.maxHosts.get server.config) block.hostNames).isSome =
      true ∧
    ∀ app, wrConfigApplicationSet around server garbage block = .accepted app →
      List.Forall₂ Denotes block.names app.hostNameList

/-- Everything else that a node must have is right. -/
def InOrder : Prop :=
  (∃ name, block.get "name" = some name ∧ name.1.1.length < maxLenAppName) ∧
    ((∃ path, block.get "path" = some path ∧ around.stat path.1.1 = true) ∧
      (block.get "type").isSome = true ∧ (block.get "analytics").isSome = true) ∧
    (∃ user, block.get "run_as_user" = some user ∧ around.getpwnam user.1.1 = true) ∧
    NumbersFit server garbage block

/-- No host name that is stored is a wildcard behind at most one byte; and if the node is in order,
and has a base URI just when no host name is stored, there are not too many host names, and all of
them are of the grammar and have not too many labels. -/
structure HostNamesFit : Prop where
  long : ∀ name ∈ storedNames around server block, name.getLast? = some 42 → 2 < name.length
  grammar : InOrder around server garbage block →
    ((block.get "baseuri").isSome = true ↔ storedNames around server block = []) →
    block.names.length ≤ Param.maxHosts.get server.config ∧
      ∀ name ∈ block.names,
        (∃ host, Denotes name host) ∧ (strtok (Configurator.hostName name) 46).length ≤ 126

variable {around server garbage block}

/-- The hosts of an application are those that were stored. -/
theorem hostNameList_of_accepted {app : AppSettings}
    (accepted : wrConfigApplicationSet around server garbage block = .accepted app) :
    ∃ errors, wrAppHostNameSet around.stack (Param.maxHosts.get server.config) block.hostNames =
      some (app.hostNameList, errors) := by
  unfold wrConfigApplicationSet at accepted
  cases named : block.get "name" with
  | none =>
      rw [named] at accepted
      cases accepted
  | some name =>
      rw [named] at accepted
      dsimp only at accepted
      split_ifs at accepted
      unfold AppBlock.hostNames
      cases set : wrAppHostNameSet around.stack (Param.maxHosts.get server.config)
          (((block.get "host_names").map (·.1.1)).getD []) with
      | none =>
          rw [set] at accepted
          cases accepted
      | some result =>
          obtain ⟨hosts, errors⟩ := result
          rw [set] at accepted
          dsimp only at accepted
          generalize applicationNumbers server.config garbage block = numbers at accepted
          split_ifs at accepted
          · exact absurd accepted (refuse_ne_accepted _ _ _)
          refine ⟨errors, ?_⟩
          unfold applicationEnd at accepted
          dsimp only at accepted
          split_ifs at accepted
          · exact absurd accepted (refuse_ne_accepted _ _ _)
          cases placed : block.get "path" with
          | none =>
              rw [placed] at accepted
              cases accepted
          | some path =>
              rw [placed] at accepted
              dsimp only at accepted
              cases replied : wrAppConfReqSet around.junk server.env name.1 path.1
                  (block.get "baseuri") block with
              | none =>
                  rw [replied] at accepted
                  cases accepted
              | some scgi =>
                  rw [replied] at accepted
                  cases accepted
                  rfl

/-- What is stored, and whether it can be. -/
theorem wrAppHostNameSet_eq : ∃ wrong,
    wrAppHostNameSet around.stack (Param.maxHosts.get server.config) block.hostNames =
      if ∀ name ∈ storedNames around server block, name.getLast? = some 42 → 2 < name.length then
        some ((storedNames around server block).filterMap storedHost, wrong)
      else none := by
  obtain ⟨wrong, set⟩ := @hostNamesSet_eq around.stack 0
    (block.names.take (Param.maxHosts.get server.config))
  refine ⟨wrong, ?_⟩
  simp only [storedHost_isSome_iff] at set
  exact set

/-- A node is accepted when it is in order, no length becomes negative, and it has either a base URI
or host names that are stored. -/
theorem exists_accepted_iff : (∃ app, wrConfigApplicationSet around server garbage block =
      .accepted app) ↔
    InOrder around server garbage block ∧
      (∀ name ∈ storedNames around server block, name.getLast? = some 42 → 2 < name.length) ∧
      ((block.get "baseuri").isSome = true ↔ storedNames around server block = []) := by
  have some : (∃ app, wrConfigApplicationSet around server garbage block = .accepted app) ↔
      (wrConfigApplicationSet around server garbage block).settings.isSome = true := by
    cases wrConfigApplicationSet around server garbage block with
    | accepted app => exact iff_of_true ⟨app, rfl⟩ rfl
    | refused errMsg => exact iff_of_false (by rintro ⟨_, ⟨⟩⟩) Bool.false_ne_true
    | crashed => exact iff_of_false (by rintro ⟨_, ⟨⟩⟩) Bool.false_ne_true
  rw [some, accepted_iff]
  obtain ⟨wrong, set⟩ := @wrAppHostNameSet_eq around server block
  unfold AppBlock.hostNames at set
  rw [set]
  unfold InOrder
  split_ifs with long
  · have kept : ∀ hosts errors, Option.some ((storedNames around server block).filterMap storedHost,
        wrong) = Option.some (hosts, errors) →
        (hosts = [] ↔ storedNames around server block = []) := by
      rintro hosts errors ⟨⟩
      constructor
      · intro none
        refine List.eq_nil_iff_forall_not_mem.mpr fun name member => ?_
        have stored := storedHost_isSome_iff.mpr (long name member)
        rw [List.filterMap_eq_nil_iff.mp none name member] at stored
        cases stored
      · intro none
        rw [none]
        rfl
    constructor
    · rintro ⟨name, place, user, ⟨hosts, errors, same, either⟩, numbers⟩
      rw [kept hosts errors same] at either
      exact ⟨⟨name, place, user, numbers⟩, long, either⟩
    · rintro ⟨⟨name, place, user, numbers⟩, -, either⟩
      rw [← kept _ _ rfl] at either
      exact ⟨name, place, user, ⟨_, _, rfl, either⟩, numbers⟩
  · refine iff_of_false ?_ fun right => long right.2.1
    rintro ⟨-, -, -, ⟨_, _, ⟨⟩, -⟩, -⟩

/-- An accepted application has the hosts that its host names mean just when there are not too many,
and all of them are of the grammar and have not too many labels. -/
theorem denoted_iff {app : AppSettings}
    (accepted : wrConfigApplicationSet around server garbage block = .accepted app) :
    List.Forall₂ Denotes block.names app.hostNameList ↔
      block.names.length ≤ Param.maxHosts.get server.config ∧
        ∀ name ∈ block.names,
          (∃ host, Denotes name host) ∧ (strtok (Configurator.hostName name) 46).length ≤ 126 := by
  obtain ⟨wrong, set⟩ := @wrAppHostNameSet_eq around server block
  obtain ⟨-, long, -⟩ := exists_accepted_iff.mp ⟨app, accepted⟩
  obtain ⟨errors, same⟩ := hostNameList_of_accepted accepted
  rw [set, if_pos long] at same
  have hosts : (storedNames around server block).filterMap storedHost = app.hostNameList :=
    congrArg Prod.fst (Option.some.inj same)
  constructor
  · intro denoted
    -- as many hosts as host names: all of them were stored
    have count := denoted.length_eq
    rw [← hosts] at count
    have few := List.length_filterMap_le storedHost (storedNames around server block)
    have taken : storedNames around server block <+:
        block.names.take (Param.maxHosts.get server.config) := passing_prefix
    have most := taken.length_le
    rw [List.length_take] at most
    have all : storedNames around server block = block.names :=
      (taken.trans (List.take_prefix _ _)).eq_of_length (by omega)
    refine ⟨by omega, fun name member => ⟨?_, ?_⟩⟩
    · obtain ⟨place, inside, rfl⟩ := List.getElem_of_mem member
      exact ⟨_, denoted.get inside (denoted.length_eq ▸ inside)⟩
    · obtain ⟨memory, passes⟩ := passes_of_mem_passing (all ▸ member)
      exact (passes_iff.mp passes).2.2.2.1
  · rintro ⟨few, all⟩
    have stored : storedNames around server block = block.names := by
      rw [storedNames, List.take_of_length_le few]
      refine passing_eq_self fun name member memory => ?_
      obtain ⟨⟨host, denotes⟩, labels⟩ := all name member
      exact denotes.passes memory labels
    rw [← hosts, stored]
    refine forall₂_filterMap fun name member => ?_
    obtain ⟨⟨host, denotes⟩, -⟩ := all name member
    exact ⟨host, denotes, denotes.stored (long name (stored ▸ member))⟩

/-- The host names of a node are stored rightly just when they fit. -/
theorem hostNames_right_iff (around : Surroundings) (server : ServerSettings) (garbage : Memory)
    (block : AppBlock) :
    HostNamesRight around server garbage block ↔ HostNamesFit around server garbage block := by
  obtain ⟨wrong, set⟩ := @wrAppHostNameSet_eq around server block
  constructor
  · rintro ⟨kept, right⟩
    have long : ∀ name ∈ storedNames around server block,
        name.getLast? = some 42 → 2 < name.length := by
      by_contra short
      rw [set, if_neg short] at kept
      cases kept
    refine ⟨long, fun ordered either => ?_⟩
    obtain ⟨app, accepted⟩ := exists_accepted_iff.mpr ⟨ordered, long, either⟩
    exact (denoted_iff accepted).mp (right app accepted)
  · rintro ⟨long, grammar⟩
    refine ⟨by rw [set, if_pos long]; rfl, fun app accepted => ?_⟩
    obtain ⟨ordered, -, either⟩ := exists_accepted_iff.mp ⟨app, accepted⟩
    exact (denoted_iff accepted).mpr (grammar ordered either)

/-- The node of an application with two host names, of which the second is wrong. -/
def twoHosts : AppBlock where
  value key := [("name", "shop"), ("path", "/srv/shop"), ("type", "rails"),
    ("analytics", "disabled"), ("run_as_user", "deploy"), ("environment", "production"),
    ("host_names", "www.shop.com www.shop_.com")].lookup key |>.map fun text => cString (ascii text)
  variableKeys := []

/-- A wrong host name leaves those before it in use. -/
theorem not_hostNames_right : ¬ HostNamesRight
    ⟨fun _ => true, fun _ => true, fun _ => [], fun _ => 0⟩
    ⟨configInit fun _ => 0, cString (ascii "production")⟩ (fun _ => 0) twoHosts := by
  rintro ⟨-, right⟩
  have stored : (wrConfigApplicationSet ⟨fun _ => true, fun _ => true, fun _ => [], fun _ => 0⟩
      ⟨configInit fun _ => 0, cString (ascii "production")⟩ (fun _ => 0)
      twoHosts).settings.map (·.hostNameList.length) = some 1 := by decide +kernel
  have two : twoHosts.names.length = 2 := by decide +kernel
  cases verdict : wrConfigApplicationSet ⟨fun _ => true, fun _ => true, fun _ => [], fun _ => 0⟩
      ⟨configInit fun _ => 0, cString (ascii "production")⟩ (fun _ => 0) twoHosts with
  | accepted app =>
      have count := (right app verdict).length_eq
      rw [verdict] at stored
      have one : app.hostNameList.length = 1 := Option.some.inj stored
      omega
  | refused errMsg =>
      rw [verdict] at stored
      cases stored
  | crashed =>
      rw [verdict] at stored
      cases stored

end Configurator
