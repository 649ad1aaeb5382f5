import Mathlib.Data.List.TakeWhile
import Webroar.Configurator.Numbers
import Webroar.Head.Resolver

/-! # The configuration of an application

An application is read from a node of the configuration file. Its keys are looked up one after the
other; what is wrong with them is collected before the node is refused, unless it has no usable
name. From a node that is accepted the head makes the reply to the workers that ask for their
configuration.
-/

namespace Configurator

open Resolver (Host HostType Uri)

/-- The node of an application: the value under each key, and the keys of the nodes under
`environment_variables`. -/
structure AppBlock where
  value : String → Option Text
  variableKeys : List (Option Text)

/-- A value that passes `yaml_validate_string`; it is not empty. -/
def validString (str : Text) : Option Uri :=
  match read : yamlValidateString str.1 with
  | none => none
  | some _ => some ⟨str, by
      rintro empty
      rw [empty] at read
      cases read⟩

/-- `yaml_validate_string` of the value under a key. -/
def AppBlock.get (block : AppBlock) (key : String) : Option Uri :=
  (block.value key).bind validString

/-- What the readers learn from the system: which files and users there are, what lies behind the
empty text in the buffer of the n-th host name, and what new memory holds. -/
structure Surroundings where
  stat : List UInt8 → Bool
  getpwnam : List UInt8 → Bool
  stack : Nat → List UInt8
  junk : Nat → UInt8

/-! ### Host names -/

/-- The C string at the beginning of some bytes. -/
def cString (bytes : List UInt8) : Text :=
  ⟨bytes.takeWhile (· ≠ 0), fun member => by
    have visible := List.mem_takeWhile_imp member
    exact absurd rfl (of_decide_eq_true visible)⟩

/-- What `strtok` finds one after the other. -/
def strtok (str : List UInt8) (separator : UInt8) : List (List UInt8) :=
  (str.splitOn separator).filter (· ≠ [])

/-- A letter, a digit, a hyphen or a wildcard. -/
def isLabelByte (c : UInt8) : Bool :=
  (97 ≤ c && c ≤ 122) || (65 ≤ c && c ≤ 90) || (48 ≤ c && c ≤ 57) || c = 45 || c = 42

/-- What is wrong with the labels of a host name, of which the first one is `downLevel` deep. -/
def labelsError (hostName : List UInt8) : Nat → List (List UInt8) → Option (List UInt8)
  | _, [] => none
  | downLevel, label :: rest =>
      if 63 < label.length || 127 < downLevel then
        some (ascii "Host name " ++ hostName ++
          ascii " - either label length exceeds 63 characters or Subdivision exceeds 127 levels\n")
      else if label = ascii "*" then labelsError hostName (downLevel + 1) rest
      else match label.find? (!isLabelByte ·) with
        | some c => some
            (ascii "Hostname can contain only letters in upper or lower case, digits, hyphen and " ++
              ascii "dot(.) to separate the labels. Host name-" ++ hostName ++
              ascii " contains invalid character-" ++ c :: ascii ".\n")
        | none => labelsError hostName (downLevel + 1) rest

/-- `wr_validate_app_host_name`: what is wrong with a host name. Behind the first byte of an empty
one `stack` is searched. -/
def wrValidateAppHostName (stack hostName : List UInt8) : Option (List UInt8) :=
  let behind := if hostName = [] then stack else hostName.drop 1
  if 253 < hostName.length then
    some (ascii "Length of host name " ++ hostName ++ ascii " exceeds 253\n")
  else if (strstr hostName (ascii "..")).isSome then
    some (ascii "Host name " ++ hostName ++
      ascii " have consecutive dots. Please enter it again.\n")
  -- the first wildcard must be the last byte
  else if 1 < (behind.dropWhile (· ≠ 42)).length then
    some (hostName ++ ascii " - Hostname can only have the wildcard character either at start " ++
      ascii "or at end. Please enter it again.\n")
  else labelsError hostName 2 (strtok hostName 46)

/-- A host name as it is stored; nothing when its length becomes negative. -/
def storedHost (host : List UInt8) : Option Host :=
  if host[1]? = some 42 then
    if host.getLast? = some 42 then
      if host.length < 3 then none
      else some ⟨.wildcardInStartEnd, cString ((host.drop 2).take (host.length - 3))⟩
    else some ⟨.wildcardInStart, cString (host.drop 2)⟩
  else if host.getLast? = some 42 then
    if host.length < 2 then none
    else some ⟨.wildcardInEnd, cString ((host.drop 1).take (host.length - 2))⟩
  else if host.head? = some 126 then some ⟨.static, cString (host.drop 1)⟩
  else some ⟨.static, cString host⟩

/-- The loop of `wr_app_host_name_set`: the host names up to the first that is wrong, and what is
wrong with it; nothing when the server does not survive. -/
def hostNamesSet (stack : Nat → List UInt8) : Nat → List (List UInt8) →
    Option (List Host × List UInt8)
  | _, [] => some ([], [])
  | counter, host :: rest =>
      let hostName := if host.head? = some 126 then host.drop 1 else host
      match wrValidateAppHostName (stack counter) hostName with
      | some wrong => some ([], wrong)
      | none =>
          match storedHost host, hostNamesSet stack (counter + 1) rest with
          | some stored, some (hosts, wrong) => some (stored :: hosts, wrong)
          | _, _ => none

/-- `wr_app_host_name_set`. -/
def wrAppHostNameSet (stack : Nat → List UInt8) (maxHosts : Nat) (hostNames : List UInt8) :
    Option (List Host × List UInt8) :=
  hostNamesSet stack 0 ((strtok hostNames 32).take maxHosts)

/-! ### The reply for the workers -/

/-- The texts of `environment_variables`. -/
def environmentVariables (block : AppBlock) : List Uri :=
  block.variableKeys.filterMap fun key => key.bind validString

/-- They are joined into one. -/
def envVarAppend (val : Option (List UInt8)) (str : List UInt8) : Option (List UInt8) :=
  match val with
  | none => some str
  | some val => some (val ++ ascii "#" ++ str)

/-- The headers of `wr_app_conf_req_set`. -/
def confReqHeaders (name path : List UInt8) (baseuri : Option (List UInt8))
    (type analytics user env : List UInt8) (envVar : Option (List UInt8)) : List Scgi.Entry :=
  [(ascii "COMPONENT", ascii "WORKER"), (ascii "METHOD", ascii "CONF_REQ"),
    (ascii "STATUS", ascii "OK"), (ascii "NAME", name), (ascii "PATH", path)] ++
  (baseuri.map (ascii "BASE_URI", ·)).toList ++
  [(ascii "TYPE", type), (ascii "ANALYTICS", analytics), (ascii "USER", user),
    (ascii "ENV", env)] ++
  (envVar.map (ascii "ENV_VAR", ·)).toList

/-- `wr_app_conf_req_set`; nothing when it takes the length of a text that is not there. `env` is
`Config->Application.Default.env`. -/
def wrAppConfReqSet (junk : Nat → UInt8) (env name path : Text) (baseuri : Option Uri)
    (block : AppBlock) : Option Scgi :=
  match block.get "type", block.get "analytics", block.get "run_as_user" with
  | some type, some analytics, some user =>
      let environment := match block.get "environment" with
        | some str => str.1
        | none => env
      let envVar := (environmentVariables block).foldl (fun val str => envVarAppend val str.1.1)
        none
      some (Scgi.built junk ((confReqHeaders name.1 path.1 (baseuri.map (·.1.1)) type.1.1
        analytics.1.1 user.1.1 environment.1 envVar).map fun item => .headerAdd item.1 item.2))
  | _, _, _ => none

/-! ### The application -/

/-- `config_application_list_t` of an application that was accepted. -/
structure AppSettings where
  name : Uri
  path : Uri
  baseuri : Option Uri
  hostNameList : List Host
  /-- The memory with the numbers of workers. -/
  numbers : Memory
  logLevel : Nat
  scgi : Scgi

/-- What `wr_config_application_set` makes of a node: a configuration, what it writes to `err_msg`,
or the end of the server. -/
inductive Verdict where
  | accepted (app : AppSettings)
  | refused (errMsg : List UInt8)
  | crashed

def Verdict.settings : Verdict → Option AppSettings
  | accepted app => some app
  | refused _ | crashed => none

/-- What the server-wide configuration says about applications. -/
structure ServerSettings where
  config : Memory
  /-- `Config->Application.Default.env`. -/
  env : Text

/-- `WR_CONF_MAX_LEN_APP_NAME`. -/
def maxLenAppName : Nat := 30

/-- The text under a key that must be there, and what is wrong with it. -/
def required (value : Option Uri) (missing : List UInt8)
    (wrong : List UInt8 → Option (List UInt8)) : List (List UInt8) :=
  match value with
  | none => [missing]
  | some str => (wrong str.1.1).toList

/-- The path, the type and what is analysed. -/
def placeErrors (around : Surroundings) (name : List UInt8) (block : AppBlock) :
    List (List UInt8) :=
  required (block.get "path")
      (ascii "\nApplication path for " ++ name ++ ascii " is missing. Application not started")
      (fun str => if around.stat str then none else
        some (ascii "\nApplication path: " ++ str ++ ascii " does not exists. Application " ++
          name ++ ascii " not started.")) ++
    required (block.get "type") (ascii "Application type is missing.") (fun _ => none) ++
    required (block.get "analytics")
      (ascii "\nApplication analytics for " ++ name ++
        ascii " is missing. Application not started.") (fun _ => none)

/-- The user, and either a base URI or host names. -/
def ownerErrors (around : Surroundings) (name : List UInt8) (block : AppBlock)
    (hosts : List Host) : List (List UInt8) :=
  required (block.get "run_as_user")
      (ascii "\nApplication run_as_user for " ++ name ++
        ascii " is missing. Application not started.")
      (fun str => if around.getpwnam str then none else
        some (ascii "\nApplication run_as_user for " ++ name ++
          ascii " is invalid. Application not started.")) ++
    (if (block.get "baseuri").isNone && hosts.isEmpty then
      [ascii "\nPlease specify host_name or baseuri for the application " ++ name ++ ascii "."]
    else []) ++
    (if (block.get "baseuri").isSome && !hosts.isEmpty then
      [ascii "\nPlease specify either host_name or baseuri(not both) for the application " ++
        name ++ ascii "."]
    else [])

/-- The key of a number of workers. -/
def AppParam.key : AppParam → String
  | minWorker => "min_worker"
  | maxWorker => "max_worker"

def AppParam.label : AppParam → String
  | minWorker => "Minimum"
  | maxWorker => "Maximum"

/-- Is a number of workers greater than the server's greatest? -/
def workerErrors (config numbers : Memory) (name : List UInt8) (param : AppParam) :
    List (List UInt8) :=
  if Param.max.get config < param.get numbers then
    [ascii "Application(" ++ name ++ ascii ")-" ++ ascii param.label ++
      ascii " workers should be a number between 1 and " ++
      Decimal.ofNat (Param.max.get config) ++ ascii ". Application not started."]
  else []

/-- Where the log level and the pointer to the reply are in `config_application_list_t`. -/
def appLevelOffset : Nat := CType.offset Layout.applicationList 5
def appScgiOffset : Nat := CType.offset Layout.applicationList 6

/-- `wr_config_application_new`, apart from the numbers of workers. -/
def wrConfigApplicationNew (config garbage : Memory) : Memory :=
  (garbage.store appLevelOffset 4 (config.load Layout.logLevel 4)).store appScgiOffset 8 0

/-- The text under the key of a number. -/
def AppBlock.numberText (block : AppBlock) (param : AppParam) : Option (List UInt8) :=
  (block.value param.key).map (·.1)

/-- The object when the numbers of workers were read. -/
def applicationNumbers (config garbage : Memory) (block : AppBlock) : Memory :=
  (appNumbersSet config block.numberText (wrConfigApplicationNew config garbage)).1

/-- The log level of an application. -/
def appLogLevel (numbers : Memory) (block : AppBlock) : Nat :=
  match block.get "log_level" with
  | none => numbers.load appLevelOffset 4
  | some str => getLogSeverity str.1.1

/-- The object is freed, with what its pointer to the reply points to. -/
def refuse (numbers : Memory) (errMsg : List UInt8) : Verdict :=
  if numbers.load appScgiOffset 8 = 0 then .refused errMsg else .crashed

@[simp] theorem refuse_settings (numbers : Memory) (errMsg : List UInt8) :
    (refuse numbers errMsg).settings = none := by
  unfold refuse
  split
  · rfl
  · rfl

theorem refuse_ne_accepted (numbers : Memory) (errMsg : List UInt8) (app : AppSettings) :
    refuse numbers errMsg ≠ .accepted app := by
  intro same
  have none := refuse_settings numbers errMsg
  rw [same] at none
  cases none

/-- The end of `wr_config_application_set`, when nothing was found to be wrong. -/
def applicationEnd (around : Surroundings) (server : ServerSettings) (name : Uri)
    (hosts : List Host) (numbers : Memory) (block : AppBlock) : Verdict :=
  let min := AppParam.minWorker.get numbers
  let max := AppParam.maxWorker.get numbers
  if max < min then
    refuse numbers (ascii "\nApplication(" ++ name.1.1 ++ ascii ") no. of min workers(" ++
      Decimal.ofNat min ++ ascii ") should not be greater than no. of max workers(" ++
      Decimal.ofNat max ++ ascii "). Application not started.")
  else
    match block.get "path" with
    | none => .crashed
    | some path =>
        match wrAppConfReqSet around.junk server.env name.1 path.1 (block.get "baseuri") block with
        | none => .crashed
        | some scgi => .accepted
            { name, path, baseuri := block.get "baseuri", hostNameList := hosts, numbers
              logLevel := appLogLevel numbers block, scgi }

/-- `wr_config_application_set`, into memory with garbage. -/
def wrConfigApplicationSet (around : Surroundings) (server : ServerSettings) (garbage : Memory)
    (block : AppBlock) : Verdict :=
  match block.get "name" with
  -- the length is taken before the text is looked at
  | none => .crashed
  | some name =>
      if name.1.1.length < maxLenAppName then
        let hostNames := ((block.get "host_names").map (·.1.1)).getD []
        match wrAppHostNameSet around.stack (Param.maxHosts.get server.config) hostNames with
        | none => .crashed
        | some (hosts, hostErrors) =>
            let numbers := applicationNumbers server.config garbage block
            let before := placeErrors around name.1.1 block
            let after := ownerErrors around name.1.1 block hosts ++
              workerErrors server.config numbers name.1.1 .minWorker ++
              workerErrors server.config numbers name.1.1 .maxWorker
            -- a host name that is wrong is only reported
            if before ++ after ≠ [] then
              refuse numbers (before.flatten ++ hostErrors ++ after.flatten)
            else applicationEnd around server name hosts numbers block
      else if maxLenAppName < name.1.1.length then
        .refused (ascii "\n Application name is too long. Maximum is 30 characters")
      else .refused (ascii "\nApplication name is missing.")

end Configurator
