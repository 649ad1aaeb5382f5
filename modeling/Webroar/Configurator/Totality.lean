import Webroar.Configurator.HostGrammar
import Webroar.Configurator.Reply

/-! # Every node is accepted or refused

A node of an application is made into a configuration with the values it has, and the general ones
for what it leaves out, or it is refused with a text, and what was allocated is given back.
-/

namespace Configurator

open Resolver (Uri)

/-! ### What is allocated -/

/-- What `wr_config_application_set` allocates. -/
inductive Chunk where
  | application
  | name
  | path
  | baseuri
  | scgi
  | host (index : Nat)
  | hostName (index : Nat)
deriving DecidableEq

/-- Which pointers of `config_application_list_t` are set, and the number of its hosts. -/
structure Pointers where
  name : Bool
  path : Bool
  baseuri : Bool
  scgi : Bool
  hosts : Nat

/-- An application that is being made, and what is allocated, the last first. -/
structure Draft where
  pointers : Pointers
  heap : List Chunk

/-- The chunks of the hosts up to an index. -/
def hostChunks : Nat → List Chunk
  | 0 => []
  | index + 1 => .host index :: .hostName index :: hostChunks index

/-- What `wr_application_list_free` frees. -/
def Pointers.owned (pointers : Pointers) : List Chunk :=
  (if pointers.name then [.name] else []) ++ (if pointers.baseuri then [.baseuri] else []) ++
    (if pointers.path then [.path] else []) ++ (if pointers.scgi then [.scgi] else []) ++
    hostChunks pointers.hosts ++ [.application]

/-- What is left when some chunks are freed one after the other; nothing when one of them is not
allocated. -/
def freeAll : List Chunk → List Chunk → Option (List Chunk)
  | [], heap => some heap
  | chunk :: rest, heap => if chunk ∈ heap then freeAll rest (heap.erase chunk) else none

namespace Draft

/-- `wr_config_application_new`. -/
def new : Draft := ⟨⟨false, false, false, false, 0⟩, [.application]⟩

def setName (draft : Draft) : Draft :=
  ⟨{ draft.pointers with name := true }, .name :: draft.heap⟩

def setPath (draft : Draft) : Draft :=
  ⟨{ draft.pointers with path := true }, .path :: draft.heap⟩

def setBaseuri (draft : Draft) : Draft :=
  ⟨{ draft.pointers with baseuri := true }, .baseuri :: draft.heap⟩

/-- A host is put at the end of the list. -/
def addHost (draft : Draft) : Draft :=
  ⟨{ draft.pointers with hosts := draft.pointers.hosts + 1 },
    .host draft.pointers.hosts :: .hostName draft.pointers.hosts :: draft.heap⟩

def setScgi (draft : Draft) : Draft :=
  ⟨{ draft.pointers with scgi := true }, .scgi :: draft.heap⟩

/-- `wr_application_list_free`. -/
def free (draft : Draft) : Option (List Chunk) := freeAll draft.pointers.owned draft.heap

end Draft

variable (around : Surroundings) (server : ServerSettings) (garbage : Memory) (block : AppBlock)

/-- The application when the texts of a node were read, of which one without a usable name has none
yet. A path that is wrong is kept nevertheless, and so are the hosts before one that is wrong. -/
def drafted : Draft :=
  match block.get "name" with
  | none => .new
  | some name =>
      if name.1.1.length < maxLenAppName then
        let draft := Draft.new.setName
        let draft := if (block.get "path").isSome then draft.setPath else draft
        let draft := if (block.get "baseuri").isSome then draft.setBaseuri else draft
        let hosts := wrAppHostNameSet around.stack (Param.maxHosts.get server.config)
          (((block.get "host_names").map (·.1.1)).getD [])
        Nat.repeat Draft.addHost ((hosts.map (·.1.length)).getD 0) draft
      else .new

/-! ### What is right -/

/-- The number under a key. A zero counts as none. -/
def AppBlock.given (param : AppParam) : Option Int :=
  (((block.numberText param).bind yamlValidateString).map Decimal.atoi).filter (· ≠ 0)

/-- The number an application is to have. -/
def AppBlock.number (config : Memory) (param : AppParam) : Int :=
  (block.given param).getD (param.general.get config)

/-- The log level an application is to have. -/
def AppBlock.level (config : Memory) : Nat :=
  ((block.get "log_level").map fun str => getLogSeverity str.1.1).getD
    (config.load Layout.logLevel 4)

/-- There is a name, and it is not too long. -/
def Named : Prop := ∃ name, block.get "name" = some name ∧ name.1.1.length < maxLenAppName

/-- Everything is there that a node must have, and it has either a base URI or host names that are
stored. -/
def Admitted : Prop :=
  InOrder around server garbage block ∧
    ((block.get "baseuri").isSome = true ↔ storedNames around server block = [])

/-- There is a name. No host name that is stored is a wildcard behind at most one byte, and a node
that is not admitted has no negative greatest number of workers. If it is admitted there are not too
many host names, all of the grammar and with not too many labels, the numbers of workers fit their
fields, and the log level is given where a number is, unless the general one is 0. -/
structure Readable : Prop where
  present : (block.get "name").isSome = true
  long : Named block → ∀ name ∈ storedNames around server block,
    name.getLast? = some 42 → 2 < name.length
  positive : Named block → ¬ Admitted around server garbage block →
    ∀ number, block.given .maxWorker = some number → 0 < number
  grammar : Admitted around server garbage block →
    block.names.length ≤ Param.maxHosts.get server.config ∧
      ∀ name ∈ block.names,
        (∃ host, Denotes name host) ∧ (strtok (hostName name) 46).length ≤ 126
  numbers : Admitted around server garbage block → ∀ param number,
    block.given param = some number → 0 < number ∧ number < 65536
  level : Admitted around server garbage block → (block.get "log_level").isSome = true ∨
    (∀ param, block.given param = none) ∨ server.config.load Layout.logLevel 4 = 0

variable {around server garbage block}

/-! ### Allocations -/

namespace Draft

variable {draft : Draft}

/-- The pointers lead to everything that is allocated. -/
def Sound (draft : Draft) : Prop := draft.heap.Perm draft.pointers.owned

theorem Sound.add {after : Draft} (sound : draft.Sound) {chunk : Chunk} {front back : List Chunk}
    (owned : draft.pointers.owned = front ++ back) (heap : after.heap = chunk :: draft.heap)
    (next : after.pointers.owned = front ++ chunk :: back) : after.Sound := by
  unfold Sound at sound ⊢
  rw [heap, next]
  rw [owned] at sound
  exact (sound.cons chunk).trans List.perm_middle.symm

theorem Sound.new : Draft.new.Sound := List.Perm.refl _

theorem Sound.setName (sound : draft.Sound) (unset : draft.pointers.name = false) :
    draft.setName.Sound := by
  refine sound.add (List.nil_append _).symm rfl ?_
  unfold Pointers.owned Draft.setName
  rw [unset]
  rfl

theorem Sound.setBaseuri (sound : draft.Sound) (unset : draft.pointers.baseuri = false) :
    draft.setBaseuri.Sound := by
  obtain ⟨⟨name, path, baseuri, scgi, hosts⟩, heap⟩ := draft
  cases unset
  refine @sound.add _ _ .baseuri (if name then [.name] else [])
    ((if path then [.path] else []) ++ ((if scgi then [.scgi] else []) ++
      (hostChunks hosts ++ [.application]))) ?_ rfl ?_
  · simp only [Pointers.owned, Bool.false_eq_true, ↓reduceIte, List.append_nil, List.append_assoc]
  · simp only [Pointers.owned, Draft.setBaseuri, ↓reduceIte, List.append_assoc, List.cons_append,
      List.nil_append]
    rfl

theorem Sound.setPath (sound : draft.Sound) (unset : draft.pointers.path = false) :
    draft.setPath.Sound := by
  obtain ⟨⟨name, path, baseuri, scgi, hosts⟩, heap⟩ := draft
  cases unset
  refine @sound.add _ _ .path
    ((if name then [.name] else []) ++ (if baseuri then [.baseuri] else []))
    ((if scgi then [.scgi] else []) ++ (hostChunks hosts ++ [.application])) ?_ rfl ?_
  · simp only [Pointers.owned, Bool.false_eq_true, ↓reduceIte, List.append_nil, List.append_assoc]
  · simp only [Pointers.owned, Draft.setPath, ↓reduceIte, List.append_assoc, List.cons_append,
      List.nil_append]
    rfl

theorem Sound.setScgi (sound : draft.Sound) (unset : draft.pointers.scgi = false) :
    draft.setScgi.Sound := by
  obtain ⟨⟨name, path, baseuri, scgi, hosts⟩, heap⟩ := draft
  cases unset
  refine @sound.add _ _ .scgi
    ((if name then [.name] else []) ++ (if baseuri then [.baseuri] else []) ++
      (if path then [.path] else []))
    (hostChunks hosts ++ [.application]) ?_ rfl ?_
  · simp only [Pointers.owned, Bool.false_eq_true, ↓reduceIte, List.append_nil, List.append_assoc]
  · simp only [Pointers.owned, Draft.setScgi, ↓reduceIte, List.append_assoc, List.cons_append,
      List.nil_append]
    rfl

theorem Sound.addHost (sound : draft.Sound) : draft.addHost.Sound := by
  obtain ⟨⟨name, path, baseuri, scgi, hosts⟩, heap⟩ := draft
  let front : List Chunk := (if name then [.name] else []) ++ (if baseuri then [.baseuri] else []) ++
    (if path then [.path] else []) ++ (if scgi then [.scgi] else [])
  have named : (heap).Perm (front ++ (hostChunks hosts ++ [.application])) := by
    rw [← List.append_assoc]
    exact sound
  have own : (Draft.addHost ⟨⟨name, path, baseuri, scgi, hosts⟩, heap⟩).pointers.owned =
      front ++ .host hosts :: .hostName hosts :: (hostChunks hosts ++ [.application]) :=
    List.append_assoc _ _ _
  unfold Sound
  rw [own]
  exact ((named.cons _).cons _).trans
    ((List.perm_middle.symm.cons _).trans List.perm_middle.symm)

theorem Sound.repeat (sound : draft.Sound) (count : Nat) :
    (Nat.repeat Draft.addHost count draft).Sound := by
  induction count with
  | zero => exact sound
  | succ count ih => exact ih.addHost

end Draft

/-- The numbers, the log level and the pointer to the reply that are in an object. -/
structure Shows (memory : Memory) (min max level scgi : Nat) : Prop where
  min : memory.load 48 2 = min
  max : memory.load 50 2 = max
  level : memory.load 52 4 = level
  scgi : memory.load 56 8 = scgi

end Configurator
