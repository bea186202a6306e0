import TapeMachine.Yaml.Event
import TapeMachine.Yaml.Lexer

/-!
The top of a document: its root, and if that is a mapping, the entries of it. What lies deeper in
keys and values is not looked into; a collection there counts as one thing.
-/

namespace TapeMachine.Yaml

/-- What a node is, seen from outside. -/
inductive NodeKind where
  | scalar (tag : Option (List Char)) (style : Style) (text : List Char)
  | sequence
  | mapping
  deriving DecidableEq

structure Node where
  kind : NodeKind
  /-- Where the node is written; for another mention of a node, where the node itself is. -/
  position : Position
  /-- Whether this is another mention of a node. -/
  isAlias : Bool
  deriving DecidableEq

inductive Document where
  | mapping (position : Position) (entries : List (Node × Node))
  | other (root : Node)

/-- What reads texts. A text that is malformed has no document. -/
abbrev Reader := String → Option Document

namespace Document

/-- Anchors with their numbers, and the nodes that have been given a number. -/
structure Anchors where
  numbers : List (List Char × Nat)
  nodes : List (Nat × Node)

namespace Anchors

def empty : Anchors := ⟨[], []⟩

def size (anchors : Anchors) : Nat :=
  (anchors.numbers.map Prod.fst).eraseDups.length

/-- Names a node. Its number is how many names there were before, also if the name is used again;
so after a name has been used twice two nodes may be given one number, and the later one has it. -/
def define (anchors : Anchors) (name : List Char) (node : Node) : Anchors where
  numbers := (name, anchors.size) :: anchors.numbers
  nodes := (anchors.size, node) :: anchors.nodes

def defineAny (anchors : Anchors) (name : Option (List Char)) (node : Node) : Anchors :=
  match name with
  | some name => anchors.define name node
  | none => anchors

end Anchors

/-- A node in the order of writing: the node itself, or another mention of one by its number. -/
inductive Mention where
  | node (node : Node)
  | number (n : Nat)

/-- The nodes at the top of what an event list goes through, and all anchors in it. `depth` counts
the collections that are open around the next event. An unknown anchor is an error. -/
def mentions? : (depth : Nat) → Anchors → List Event → Option (List (Nat × Mention) × Anchors)
  | _, anchors, [] => some ([], anchors)
  | depth, anchors, e :: events =>
      match e.kind with
      | .scalar p style text => do
          let node : Node := ⟨.scalar p.tag style text, e.position, false⟩
          let (ms, anchors) ← mentions? depth (anchors.defineAny p.anchor node) events
          return ((depth, .node node) :: ms, anchors)
      | .sequenceStart p => do
          let node : Node := ⟨.sequence, e.position, false⟩
          let (ms, anchors) ← mentions? (depth + 1) (anchors.defineAny p.anchor node) events
          return ((depth, .node node) :: ms, anchors)
      | .mappingStart p => do
          let node : Node := ⟨.mapping, e.position, false⟩
          let (ms, anchors) ← mentions? (depth + 1) (anchors.defineAny p.anchor node) events
          return ((depth, .node node) :: ms, anchors)
      | .sequenceEnd => mentions? (depth - 1) anchors events
      | .mappingEnd => mentions? (depth - 1) anchors events
      | .alias name => do
          let n ← anchors.numbers.lookup name
          let (ms, anchors) ← mentions? depth anchors events
          return ((depth, .number n) :: ms, anchors)

def node? (anchors : Anchors) : Mention → Option Node
  | .node node => some node
  | .number n => (anchors.nodes.lookup n).map fun node => { node with isAlias := true }

def pairs : List Node → List (Node × Node)
  | key :: value :: rest => (key, value) :: pairs rest
  | _ => []

/-- The top of the document that a list of events goes through. -/
def ofEvents? (events : List Event) : Option Document := do
  let (ms, anchors) ← mentions? 0 .empty events
  let root ← node? anchors (← ms.head?).2
  match root.kind with
  | .mapping =>
      let top := (ms.filter (·.1 = 1)).map Prod.snd
      return .mapping root.position (pairs (← top.mapM (node? anchors)))
  | _ => return .other root

/-- The top of the only document of a text, or `none` if the text is not one document. -/
def ofText? (text : String) : Option Document := do
  ofEvents? (← Event.ofTokens? (← Token.ofText? text))

end Document

end TapeMachine.Yaml
