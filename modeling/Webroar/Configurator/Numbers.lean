import Webroar.Library.Decimal
import Webroar.Library.Fields

/-! # The numbers of the configuration

One function reads every number of the configuration files into its field, through a pointer to a
`long`. The fields are narrower, most of them two bytes, so up to three fields behind become zero.
The numbers are right in the end exactly when all of these are configured, too, and are read later.
-/

namespace Configurator

/-- The numeric parameters of the server, in the order in which they are read. -/
inductive Param where
  | msgQueueSize | maxReqRatio | minReqRatio | highLoad | lowLoad | maxHosts
  | maxBodySize | max | pending | addTrials | addWait | addTimeout | killTimeout | idleTime
  | pingTimeout | pingTrials
  | port | minWorkers | maxWorkers
  | sslPort
deriving DecidableEq

/-! ### The structure `config_t` -/

namespace Layout

open CType

/-- `wr_str_t`. -/
def str : CType := struct [ulong, pointer]

/-- `struct control`, `struct file`, `struct dir`, `struct worker` and `struct ssl`. -/
def serverParts : List CType :=
  [struct [str, ushort], struct (List.replicate 7 str), struct [str, str],
    struct (List.replicate 9 ushort), struct [uint, str, str]]

/-- `config_server_t`: the parts, the name, the version, the port, the log level, the flags and the
length of a stack trace. -/
def server : List CType := serverParts ++ [str, str, uint, uint, ushort, ushort]

/-- `config_request_t`. -/
def request : List CType :=
  [ushort, ushort, ulong, uint, ushort, ushort, ushort, ushort, ulong, ulong, ushort,
    struct [str, str, str]]

/-- `config_worker_t`. -/
def worker : List CType :=
  [struct (List.replicate 4 str), struct (List.replicate 5 str), struct [str, str],
    struct [ulong, ulong], str, str, ushort, ulong]

/-- `config_application_t`: the defaults, the admin panel, the static server, and the numbers behind
`analytics_on`. -/
def application : List CType :=
  [struct [ushort, ushort, str], struct [str, str], struct [str, ushort, ushort], str, uint,
    ushort, ushort, ushort, ushort, ushort, pointer]

/-- `config_t`. -/
def config : List CType := [struct server, struct request, struct worker, struct application]

/-- `config_application_list_t`. -/
def applicationList : List CType :=
  [str, str, str, ushort, ushort, uint, pointer, pointer, pointer, pointer]

/-- A member of `Config->Server`. -/
def inServer (index : Nat) : Nat := offset config 0 + offset server index

/-- A member of `Config->Server.Worker`. -/
def inWorker (index : Nat) : Nat := inServer 3 + offset (List.replicate 9 ushort) index

/-- A member of `Config->Application`. -/
def inApplication (index : Nat) : Nat := offset config 3 + offset application index

/-- `Config->Server.log_level`. -/
def logLevel : Nat := inServer 8

/-- `Config->Server.flag`. -/
def flag : Nat := inServer 9

end Layout

namespace Param

def all : List Param :=
  [msgQueueSize, maxReqRatio, minReqRatio, highLoad, lowLoad, maxHosts, maxBodySize, max, pending,
    addTrials, addWait, addTimeout, killTimeout, idleTime, pingTimeout, pingTrials, port, minWorkers,
    maxWorkers, sslPort]

/-- The offset of a parameter in `config_t`. -/
def offset : Param → Nat
  | msgQueueSize => Layout.inApplication 4
  | maxReqRatio => Layout.inApplication 5
  | minReqRatio => Layout.inApplication 6
  | highLoad => Layout.inApplication 7
  | lowLoad => Layout.inApplication 8
  | maxHosts => Layout.inApplication 9
  | maxBodySize => CType.offset Layout.config 1 + CType.offset Layout.request 2
  | max => Layout.inWorker 0
  | pending => Layout.inWorker 1
  | addTrials => Layout.inWorker 2
  | addWait => Layout.inWorker 3
  | addTimeout => Layout.inWorker 4
  | killTimeout => Layout.inWorker 5
  | idleTime => Layout.inWorker 6
  | pingTimeout => Layout.inWorker 7
  | pingTrials => Layout.inWorker 8
  | port => Layout.inServer 7
  | maxWorkers => Layout.inApplication 0
  | minWorkers => Layout.inApplication 0 + CType.offset [CType.ushort, CType.ushort, Layout.str] 1
  | sslPort => Layout.inServer 4

def size : Param → Nat
  | msgQueueSize | port | sslPort => 4
  | maxBodySize => 8
  | _ => 2

/-- What `wr_config_server_init` and its like set. -/
def default : Param → Nat
  | msgQueueSize => 2048
  | maxReqRatio => 1
  | minReqRatio => 3
  | highLoad => 2
  | lowLoad => 600
  | maxHosts => 16
  | maxBodySize => 65536
  | max => 20
  | pending => 10
  | addTrials => 3
  | addWait => 1800
  | addTimeout => 25
  | killTimeout => 10
  | idleTime => 60
  | pingTimeout => 15
  | pingTrials => 2
  | port => 3000
  | minWorkers => 4
  | maxWorkers => 8
  | sslPort => 443

/-- The key of a parameter. -/
def path : Param → String
  | msgQueueSize => "Application/message_queue_size"
  | maxReqRatio => "Application/maximum_request_ratio"
  | minReqRatio => "Application/minimum_request_ratio"
  | highLoad => "Application/high_load_time"
  | lowLoad => "Application/low_load_time"
  | maxHosts => "Application/maximum_hosts"
  | maxBodySize => "Worker/maximum_request_body_size"
  | max => "Worker/maximum_workers"
  | pending => "Worker/pending_workers"
  | addTrials => "Worker/add_trials"
  | addWait => "Worker/add_wait"
  | addTimeout => "Worker/add_timeout"
  | killTimeout => "Worker/kill_timeout"
  | idleTime => "Worker/idle_time"
  | pingTimeout => "Worker/ping_timeout"
  | pingTrials => "Worker/ping_trials"
  | port => "Server Specification/port"
  | minWorkers => "Server Specification/min_worker"
  | maxWorkers => "Server Specification/max_worker"
  | sslPort => "Server Specification/SSL Specification/ssl_port"

/-- The parameters that may be set to 0. -/
def zero : Param → Bool
  | addTimeout | idleTime => true
  | _ => false

/-- Is a key one of the internal configuration file? -/
def isInternal : Param → Bool
  | port | minWorkers | maxWorkers | sslPort => false
  | _ => true

end Param

/-! ### The readers -/

/-- The two configuration files by key, and the files there are. -/
structure Documents where
  internal : String → Option (List UInt8)
  config : String → Option (List UInt8)
  stat : List UInt8 → Bool

/-- `yaml_validate_string`: no blank text and none with a comment. -/
def yamlValidateString (str : List UInt8) : Option (List UInt8) :=
  if str.contains 35 || str.all (· = 32) then none else some str

/-- `wr_set_numeric_value`. -/
def wrSetNumericValue (memory : Memory) (str : Option (List UInt8)) (offset : Nat) (flag : Bool) :
    Memory :=
  match str.bind yamlValidateString with
  | none => memory
  | some str =>
      let val := Decimal.toSize (Decimal.atoi str)
      if 0 < val then memory.store offset 8 val
      else if flag && str = ascii "0" then memory.store offset 8 0
      else memory

/-- The text under a key. -/
def Documents.text (docs : Documents) (param : Param) : Option (List UInt8) :=
  if param.isInternal then docs.internal param.path else docs.config param.path

def setNumber (docs : Documents) (memory : Memory) (param : Param) : Memory :=
  wrSetNumericValue memory (docs.text param) param.offset param.zero

/-- A parameter in memory. -/
def Param.get (memory : Memory) (param : Param) : Nat := memory.load param.offset param.size

/-- `Config->Server.flag`. -/
def getFlag (memory : Memory) : Nat := memory.load Layout.flag 2

def setFlag (memory : Memory) (flag : Nat) : Memory := memory.store Layout.flag 2 flag

def accessLog : Nat := 1
def sslSupport : Nat := 2
def udsSupport : Nat := 4
def keepAlive : Nat := 8
def adminPanelFlag : Nat := 16
def analyzerFlag : Nat := 32

/-- `wr_application_conf_read`. -/
def wrApplicationConfRead (docs : Documents) (memory : Memory) : Memory :=
  [.msgQueueSize, .maxReqRatio, .minReqRatio, .highLoad, .lowLoad, .maxHosts].foldl
    (setNumber docs) memory

/-- `wr_worker_conf_read`. -/
def wrWorkerConfRead (docs : Documents) (memory : Memory) : Memory :=
  [.maxBodySize, .max, .pending, .addTrials, .addWait, .addTimeout, .killTimeout, .idleTime,
    .pingTimeout, .pingTrials].foldl (setNumber docs) memory

/-- Is the text under a key this one? -/
def reads (root : String → Option (List UInt8)) (path word : String) : Bool :=
  (root path).bind yamlValidateString = some (ascii word)

/-- A flag that is on unless it is switched off. -/
def switch (memory : Memory) (flag : Nat) (off : Bool) : Memory :=
  let memory := setFlag memory (getFlag memory ||| flag)
  if off then setFlag memory (getFlag memory - flag) else memory

/-- `wr_server_conf_read`. -/
def wrServerConfRead (docs : Documents) (memory : Memory) : Memory :=
  let memory := switch memory adminPanelFlag (reads docs.internal "webroar/admin_panel" "off")
  switch memory analyzerFlag (reads docs.internal "webroar/analyzer" "off")

/-- `wr_internal_conf_read`, of a file that can be parsed. -/
def wrInternalConfRead (docs : Documents) (memory : Memory) : Memory :=
  wrWorkerConfRead docs (wrServerConfRead docs (wrApplicationConfRead docs memory))

/-- `get_log_severity`. -/
def getLogSeverity (str : List UInt8) : Nat :=
  if str = ascii "INFO" then 2
  else if str = ascii "WARN" then 3
  else if str = ascii "SEVERE" then 4
  else if str = ascii "FATAL" then 5
  else 1

/-- What becomes of the flags when SSL cannot be used. -/
def sslFailed (memory : Memory) : Memory :=
  -- `!SERVER_SSL_SUPPORT` is 0, not the other bits
  setFlag memory (getFlag memory &&& 0)

/-- The certificate or the key for SSL: the file that is named must be there. -/
def sslFile (docs : Documents) (path : String) (memory : Memory) : Memory :=
  match (docs.config path).bind yamlValidateString with
  | none => sslFailed memory
  | some str => if docs.stat str then memory else sslFailed memory

/-- The part of `wr_config_server_set` for SSL. -/
def sslSet (docs : Documents) (memory : Memory) : Memory :=
  if getFlag memory &&& sslSupport ≠ 0 then
    let memory := sslFile docs "Server Specification/SSL Specification/certificate_file" memory
    let memory := sslFile docs "Server Specification/SSL Specification/key_file" memory
    let memory := setNumber docs memory .sslPort
    if 65536 < Param.sslPort.get memory then sslFailed memory else memory
  else memory

/-- A flag that is off unless it is switched on. -/
def enable (memory : Memory) (flag : Nat) (on : Bool) : Memory :=
  if on then setFlag memory (getFlag memory ||| flag) else memory

def logLevelSet (docs : Documents) (memory : Memory) : Memory :=
  match (docs.config "Server Specification/log_level").bind yamlValidateString with
  | none => memory
  | some str => memory.store Layout.logLevel 4 (getLogSeverity str)

/-- The log level, and the flags for the access log and for SSL. -/
def flagsSet (docs : Documents) (memory : Memory) : Memory :=
  let memory := logLevelSet docs memory
  let memory := enable memory accessLog
    (reads docs.config "Server Specification/access_log" "enabled")
  enable memory sslSupport
    (reads docs.config "Server Specification/SSL Specification/ssl_support" "enabled")

/-- `wr_config_server_set`; nothing when the server is not to start. -/
def wrConfigServerSet (docs : Documents) (memory : Memory) : Option Memory :=
  let memory := setNumber docs memory .port
  if 65536 < Param.port.get memory then none else
  let memory := setNumber docs memory .minWorkers
  if Param.max.get memory < Param.minWorkers.get memory then none else
  let memory := setNumber docs memory .maxWorkers
  if Param.max.get memory < Param.maxWorkers.get memory then none else
  if Param.maxWorkers.get memory < Param.minWorkers.get memory then none else
  some (sslSet docs (flagsSet docs memory))

/-- The numbers and the flags the server has before it reads a file. -/
def configInit (garbage : Memory) : Memory :=
  let memory := Param.all.foldl
    (fun memory param => memory.store param.offset param.size param.default) garbage
  setFlag memory (udsSupport ||| keepAlive)

/-- The server-wide configuration, from files that can be parsed. -/
def confNumbers (docs : Documents) (garbage : Memory) : Option Memory :=
  wrConfigServerSet docs (wrInternalConfRead docs (configInit garbage))

/-- The numbers of an application. -/
inductive AppParam where
  | minWorker | maxWorker
deriving DecidableEq

/-- The offset in `config_application_list_t`. -/
def AppParam.offset : AppParam → Nat
  | minWorker => CType.offset Layout.applicationList 3
  | maxWorker => CType.offset Layout.applicationList 4

def AppParam.get (memory : Memory) (param : AppParam) : Nat := memory.load param.offset 2

/-- The server's number for an application that has none of its own. -/
def AppParam.general : AppParam → Param
  | minWorker => .minWorkers
  | maxWorker => .maxWorkers

/-- `wr_config_application_new`, and the part of `wr_config_application_set` that reads the numbers
under `min_worker` and `max_worker`; are they acceptable? -/
def appNumbersSet (config : Memory) (text : AppParam → Option (List UInt8)) (garbage : Memory) :
    Memory × Bool :=
  let memory := garbage.store AppParam.minWorker.offset 2 (Param.minWorkers.get config)
  let memory := memory.store AppParam.maxWorker.offset 2 (Param.maxWorkers.get config)
  let memory := wrSetNumericValue memory (text .minWorker) AppParam.minWorker.offset false
  let few := AppParam.minWorker.get memory ≤ Param.max.get config
  let memory := wrSetNumericValue memory (text .maxWorker) AppParam.maxWorker.offset false
  (memory, few && AppParam.maxWorker.get memory ≤ Param.max.get config &&
    AppParam.minWorker.get memory ≤ AppParam.maxWorker.get memory)

/-! ### What is configured -/

/-- The texts of some keys are decimal numbers of 16 bits, 0 only where it is allowed. -/
structure Plain {ι : Type} (text : ι → Option (List UInt8)) (zero : ι → Bool)
    (values : ι → Option Nat) : Prop where
  text : ∀ param, text param = (values param).map Decimal.ofNat
  small : ∀ param value, values param = some value → value < 65536
  zero : ∀ param, values param = some 0 → zero param = true

theorem yamlValidateString_ofNat (value : Nat) :
    yamlValidateString (Decimal.ofNat value) = some (Decimal.ofNat value) := by
  have plain : ∀ byte ∈ Decimal.ofNat value, byte ≠ 35 ∧ byte ≠ 32 := by
    intro byte member
    have digit := Decimal.isDigit_of_mem_ofNat member
    refine ⟨?_, ?_⟩
    · rintro rfl
      exact absurd digit (by decide)
    · rintro rfl
      exact absurd digit (by decide)
  have uncommented : (Decimal.ofNat value).contains 35 = false := by
    rw [List.contains_eq_mem, decide_eq_false_iff_not]
    exact fun member => (plain 35 member).1 rfl
  have filled : (Decimal.ofNat value).all (· = 32) = false := by
    obtain ⟨byte, rest, shape⟩ := List.exists_cons_of_ne_nil (Decimal.ofNat_ne_nil value)
    have first := (plain byte (shape ▸ List.mem_cons_self)).2
    rw [shape, List.all_cons, decide_eq_false first, Bool.false_and]
  rw [yamlValidateString, uncommented, filled]
  rfl

theorem wrSetNumericValue_decimal {memory : Memory} {offset value : Nat} {flag : Bool}
    (small : value < 65536) (zero : value = 0 → flag = true) :
    wrSetNumericValue memory (some (Decimal.ofNat value)) offset flag =
      memory.store offset 8 value := by
  have val : Decimal.toSize (Decimal.atoi (Decimal.ofNat value)) = value := by
    rw [Decimal.atoi_ofNat (by omega), Decimal.toSize_natCast (by omega)]
  rw [wrSetNumericValue, Option.bind_some, yamlValidateString_ofNat]
  dsimp only
  rw [val]
  rcases Nat.eq_zero_or_pos value with rfl | some
  · rw [if_neg (Nat.lt_irrefl 0), zero rfl]
    rfl
  · rw [if_pos some]

namespace Param

/-- The parameter lies in the upper bytes of the `long` that is stored for another one. -/
def runsOver : Param → Param → Bool := Fields.covers offset size 8 2

theorem mem_all (param : Param) : param ∈ all := by
  cases param with
  | _ => decide

theorem laid : Fields.Laid offset size 8 2 := by
  have checked : ∀ first ∈ all, ∀ second ∈ all, 2 ≤ size first ∧ size first ≤ 8 ∧
      (first = second ∨ Fields.covers offset size 8 2 first second = true ∨
        offset second + size second ≤ offset first ∨ offset first + 8 ≤ offset second) := by
    decide +kernel
  exact fun first second => checked first (mem_all first) second (mem_all second)

end Param

end Configurator
