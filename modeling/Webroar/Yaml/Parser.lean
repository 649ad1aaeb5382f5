import Mathlib.Logic.Function.Basic
import Webroar.Yaml.Document

/-! # The reader of YAML files

`yaml_parse` makes nodes from the events that libyaml reports. A stack has the nodes whose siblings
or children are still to come; when a collection ends, its nodes are taken from the stack, by their
level, and linked.
-/

namespace Yaml

/-- `type_t`. -/
inductive NodeType where
  | none
  | value
  | pair
  | list
  | array
deriving DecidableEq

/-- `node_t`, in the cells of the memory. -/
structure Node where
  type : NodeType
  key : Option (List UInt8)
  value : Option (List UInt8)
  keyLen : Nat
  valueLen : Nat
  level : Int
  child : Option Nat
  next : Option Nat

/-- `create_node`. -/
def createNode : Node :=
  { type := .none, key := none, value := none, keyLen := 0, valueLen := 0, level := 0,
    child := none, next := none }

/-- A level as the `short` of a node. -/
def short (level : Int) : Int := level.bmod (2 ^ 16)

/-- The variables of `yaml_parse`, and the memory. -/
structure Parser where
  nodes : Nat → Node
  fresh : Nat
  node : Option Nat
  stack : List Nat
  level : Int

namespace Parser

/-- `wr_stack_init`, before the first event. -/
def init : Parser :=
  { nodes := fun _ => createNode, fresh := 0, node := none, stack := [], level := 0 }

/-- A node at a new address. -/
def alloc (parser : Parser) (node : Node) : Parser :=
  { parser with
    nodes := Function.update parser.nodes parser.fresh node
    fresh := parser.fresh + 1 }

/-- A change of the node at an address. -/
def modify (parser : Parser) (i : Nat) (f : Node → Node) : Parser :=
  { parser with nodes := Function.update parser.nodes i (f (parser.nodes i)) }

/-- The current node, if there is one, goes on the stack. -/
def push (parser : Parser) : Parser :=
  { parser with stack := parser.node.toList ++ parser.stack }

@[simp] theorem push_nodes (parser : Parser) : parser.push.nodes = parser.nodes := rfl

@[simp] theorem push_fresh (parser : Parser) : parser.push.fresh = parser.fresh := rfl

@[simp] theorem alloc_nodes (parser : Parser) (node : Node) :
    (parser.alloc node).nodes = Function.update parser.nodes parser.fresh node := rfl

@[simp] theorem alloc_fresh (parser : Parser) (node : Node) :
    (parser.alloc node).fresh = parser.fresh + 1 := rfl

@[simp] theorem modify_nodes (parser : Parser) (i : Nat) (f : Node → Node) :
    (parser.modify i f).nodes = Function.update parser.nodes i (f (parser.nodes i)) := rfl

@[simp] theorem modify_fresh (parser : Parser) (i : Nat) (f : Node → Node) :
    (parser.modify i f).fresh = parser.fresh := rfl

/-- `create_child_node`, and the type that its callers give the node. -/
def createChildNode (parser : Parser) (type : NodeType) : Parser :=
  let new := parser.fresh
  let made := parser.push.alloc { createNode with level := short (parser.level + 1), type }
  let linked := match parser.node with
    | some node => made.modify node ({ · with child := some new })
    | none => made
  { linked with level := parser.level + 1, node := some new }

/-- A turn of the loop of `set_sibling_nodes`: the current node is linked behind `head`. -/
def linkHead (parser : Parser) (head : Nat) : Parser :=
  { parser.modify head ({ · with next := parser.node }) with node := some head }

/-- The loop of `set_sibling_nodes`: what is on the stack at the level of the parser is linked. -/
def linkSiblings (parser : Parser) : List Nat → Parser
  | [] => { parser with stack := [] }
  | head :: rest =>
      if (parser.nodes head).level = parser.level then (parser.linkHead head).linkSiblings rest
      else { parser with stack := head :: rest }

theorem linkHead_nodes (parser : Parser) (head : Nat) :
    (parser.linkHead head).nodes =
      Function.update parser.nodes head { parser.nodes head with next := parser.node } := rfl

/-- A node next to `head` is made, with the current node as its child. -/
def addSibling (parser : Parser) (head : Nat) : Parser :=
  { parser.alloc
      { createNode with
        level := short (parser.level - 1)
        type := (parser.nodes head).type
        child := parser.node } with
    level := parser.level - 1
    stack := parser.fresh :: parser.stack
    node := none }

/-- The rest of `set_sibling_nodes`: the nodes that are linked are below the top of the stack, or
below a new node, if that has others below it. -/
def attach (parser : Parser) : Parser :=
  match parser.stack with
  | [] => { parser with level := parser.level - 1 }
  | head :: _ =>
      if (parser.nodes head).child = parser.node then
        { parser with level := parser.level - 1, node := none }
      else parser.addSibling head

theorem addSibling_nodes (parser : Parser) (head : Nat) :
    (parser.addSibling head).nodes = Function.update parser.nodes parser.fresh
      { createNode with
        level := short (parser.level - 1)
        type := (parser.nodes head).type
        child := parser.node } := rfl

/-- `set_sibling_nodes`. -/
def setSiblingNodes (parser : Parser) : Parser := (parser.linkSiblings parser.stack).attach

/-- `create_scalar_node`. -/
def createScalarNode (parser : Parser) (text : List UInt8) : Parser :=
  let pushed := parser.push
  let type := match pushed.stack with
    | head :: _ => (pushed.nodes head).type
    | [] => .none
  let made := pushed.alloc
    { createNode with type, level := short parser.level, key := some text, keyLen := text.length }
  { made with node := some parser.fresh }

/-- What `yaml_parse` does with a scalar. -/
def scalar (parser : Parser) (text : List UInt8) : Parser :=
  match parser.node with
  | none => parser.createScalarNode text
  | some node =>
      if (parser.nodes node).key = none then
        parser.modify node ({ · with key := some text, keyLen := text.length })
      else if (parser.nodes node).type = .list then parser.createScalarNode text
      else if (parser.nodes node).value = none then
        parser.modify node ({ · with value := some text, valueLen := text.length })
      else parser.createScalarNode text

/-- What `yaml_parse` does with an event. -/
def step (parser : Parser) : Event → Parser
  | .scalar text => parser.scalar text
  | .sequenceStart => parser.createChildNode .list
  | .mappingStart => parser.createChildNode .array
  | .sequenceEnd => parser.setSiblingNodes
  | .mappingEnd => parser.setSiblingNodes
  | .noEvent => parser
  | .streamStart => parser
  | .streamEnd => parser
  | .documentStart => parser
  | .documentEnd => parser
  | .aliasEvent => parser

/-- Some events one after the other. -/
def run (parser : Parser) (events : List Event) : Parser := events.foldl step parser

/-- The loop of `yaml_parse`: the parser at the end of the stream, or none where libyaml finds an
error first. -/
def parse (parser : Parser) : List Event → Option Parser
  | [] => none
  | .streamEnd :: _ => some parser
  | event :: rest => (parser.step event).parse rest

/-- The node that `yaml_parse` returns at the end of the stream. -/
def result (parser : Parser) : Option Nat :=
  match parser.stack with
  | [head] => some head
  | _ => parser.node

/-- What the nodes show. -/
def cells (parser : Parser) : Forest.Cells Nat Label where
  label i := ⟨(parser.nodes i).key, (parser.nodes i).value⟩
  child i := (parser.nodes i).child
  next i := (parser.nodes i).next

end Parser

/-- `yaml_parse`: the memory and the root, if one is returned. -/
def yamlParse (events : List Event) : Option (Parser × Nat) := do
  let parser ← Parser.init.parse events
  let root ← parser.result
  return (parser, root)

namespace Parser

@[simp] theorem run_nil (parser : Parser) : parser.run [] = parser := rfl

@[simp] theorem run_cons (parser : Parser) (event : Event) (events : List Event) :
    parser.run (event :: events) = (parser.step event).run events := rfl

theorem run_append (parser : Parser) (first second : List Event) :
    parser.run (first ++ second) = (parser.run first).run second :=
  List.foldl_append ..

/-- Up to the end of the stream the events are taken one by one. -/
theorem parse_append (parser : Parser) {events : List Event} (within : .streamEnd ∉ events)
    (rest : List Event) :
    parser.parse (events ++ .streamEnd :: rest) = some (parser.run events) := by
  induction events generalizing parser with
  | nil => rfl
  | cons event events later =>
      have absent : .streamEnd ∉ events := fun member => within (List.mem_cons_of_mem _ member)
      rw [run_cons, ← later (parser.step event) absent]
      cases event with
      | streamEnd => exact absurd (List.mem_cons_self ..) within
      | noEvent => rfl
      | streamStart => rfl
      | documentStart => rfl
      | documentEnd => rfl
      | aliasEvent => rfl
      | scalar text => rfl
      | sequenceStart => rfl
      | sequenceEnd => rfl
      | mappingStart => rfl
      | mappingEnd => rfl

end Parser

end Yaml
