import TapeMachine.Yaml.Token

/-!
From tokens to events: the nodes of a document in the order in which they are written, each
collection between its start and its end. What is still expected is kept as a stack of goals; the
goal on top and the next token settle the next event.
-/

namespace TapeMachine.Yaml

/-- What may precede a node: a name to refer back to it by, and a tag, written out in full. -/
structure Properties where
  anchor : Option (List Char)
  tag : Option (List Char)
  deriving DecidableEq

namespace Properties

def empty : Properties := ⟨none, none⟩

def isEmpty (p : Properties) : Bool :=
  p.anchor.isNone && p.tag.isNone

end Properties

inductive EventKind where
  | scalar (properties : Properties) (style : Style) (text : List Char)
  | sequenceStart (properties : Properties)
  | sequenceEnd
  | mappingStart (properties : Properties)
  | mappingEnd
  /-- Another mention of the node with this anchor. -/
  | alias (name : List Char)
  deriving DecidableEq

structure Event where
  kind : EventKind
  position : Position

namespace Event

def empty (p : Position) : Event :=
  ⟨.scalar .empty .plain [], p⟩

/-- The handles that a document's tags may use, with what they stand for. -/
abbrev Handles := List (List Char × List Char)

/-- What the handles stand for that need no directive. -/
def defaultHandles : Handles :=
  [(['!'], ['!']), (['!', '!'], "tag:yaml.org,2002:".toList)]

/-- The tag in full; a handle that stands for nothing is an error. -/
def resolve? (handles : Handles) (tag : Tag) : Option (List Char) :=
  if tag.handle.isEmpty then some tag.suffix
  else (handles.lookup tag.handle).map (· ++ tag.suffix)

/-- What is expected next. -/
inductive Goal where
  /-- A node; outside brackets it may be a block collection. After a key or a colon the items of a
  sequence may be indented no deeper than the mapping. -/
  | node (block indentless : Bool)
  | blockItem
  | indentlessItem
  | blockKey
  | blockValue
  | flowItem (first : Bool)
  /-- The parts of a mapping with one entry and no braces, inside a flow sequence. -/
  | pairKey
  | pairValue
  | pairEnd
  | flowKey (first : Bool)
  | flowValue
  /-- The value of a key in braces that has no colon. -/
  | noFlowValue
  deriving DecidableEq

/-- An event, the goals after it, and the tokens after it. -/
structure Step where
  event : Event
  goals : List Goal
  tokens : List Token

/-- Reads an anchor and a tag in either order, or one of them, or none. -/
def properties? (handles : Handles) : List Token → Option (Properties × List Token)
  | ⟨.anchor a, _, _⟩ :: ⟨.tag t, _, _⟩ :: rest => do
      some (⟨some a, some (← resolve? handles t)⟩, rest)
  | ⟨.tag t, _, _⟩ :: ⟨.anchor a, _, _⟩ :: rest => do
      some (⟨some a, some (← resolve? handles t)⟩, rest)
  | ⟨.anchor a, _, _⟩ :: rest => some (⟨some a, none⟩, rest)
  | ⟨.tag t, _, _⟩ :: rest => do some (⟨none, some (← resolve? handles t)⟩, rest)
  | tokens => some (.empty, tokens)

/-- The properties of a scalar: the lone exclamation mark is no tag. -/
def scalarProperties (p : Properties) : Properties :=
  if p.tag = some ['!'] then { p with tag := none } else p

def node? (handles : Handles) (block indentless : Bool) (goals : List Goal) (tokens : List Token) :
    Option Step := do
  let position := (← tokens.head?).start
  let (p, content) ← properties? handles tokens
  match content with
  | ⟨.alias name, _, _⟩ :: rest =>
      if p.isEmpty then some ⟨⟨.alias name, position⟩, goals, rest⟩
      else some ⟨⟨.scalar p .plain [], position⟩, goals, content⟩
  | ⟨.scalar style text, _, _⟩ :: rest =>
      some ⟨⟨.scalar (scalarProperties p) style text, position⟩, goals, rest⟩
  | ⟨.flowSequenceStart, _, _⟩ :: rest =>
      some ⟨⟨.sequenceStart p, position⟩, .flowItem true :: goals, rest⟩
  | ⟨.flowMappingStart, _, _⟩ :: rest =>
      some ⟨⟨.mappingStart p, position⟩, .flowKey true :: goals, rest⟩
  | ⟨kind, _, _⟩ :: rest =>
      if indentless && kind = .blockEntry then
        some ⟨⟨.sequenceStart p, position⟩, .indentlessItem :: goals, content⟩
      else if block && kind = .blockSequenceStart then
        some ⟨⟨.sequenceStart p, position⟩, .blockItem :: goals, rest⟩
      else if block && kind = .blockMappingStart then
        some ⟨⟨.mappingStart p, position⟩, .blockKey :: goals, rest⟩
      else if p.isEmpty then none
      else some ⟨⟨.scalar p .plain [], position⟩, goals, content⟩
  | [] => none

/-- Reads a node, or leaves it out before one of some tokens; it is then at the given place. -/
def nodeUnless? (handles : Handles) (block indentless : Bool) (leftOutBefore : List TokenKind)
    (leftOut : Position) (goals : List Goal) (tokens : List Token) : Option Step := do
  if leftOutBefore.contains (← tokens.head?).kind then
    some ⟨.empty leftOut, goals, tokens⟩
  else node? handles block indentless goals tokens

def flowItem? (handles : Handles) (goals : List Goal) : List Token → Option Step
  | ⟨.flowSequenceEnd, p, _⟩ :: rest => some ⟨⟨.sequenceEnd, p⟩, goals, rest⟩
  | ⟨.key, p, _⟩ :: rest =>
      some ⟨⟨.mappingStart .empty, p⟩, .pairKey :: .flowItem false :: goals, rest⟩
  | tokens => node? handles false false (.flowItem false :: goals) tokens

def flowKey? (handles : Handles) (goals : List Goal) : List Token → Option Step
  | ⟨.flowMappingEnd, p, _⟩ :: rest => some ⟨⟨.mappingEnd, p⟩, goals, rest⟩
  | ⟨.key, _, _⟩ :: rest => do
      nodeUnless? handles false false [.value, .flowEntry, .flowMappingEnd]
        (← rest.head?).start (.flowValue :: .flowKey false :: goals) rest
  | tokens => node? handles false false (.noFlowValue :: .flowKey false :: goals) tokens

/-- The next event, by the goal on top of the others. -/
def step? (handles : Handles) (goals : List Goal) : Goal → List Token → Option Step
  | .node block indentless, tokens => node? handles block indentless goals tokens
  | .blockItem, ⟨.blockEntry, _, p⟩ :: rest =>
      nodeUnless? handles true false [.blockEntry, .blockEnd] p (.blockItem :: goals) rest
  | .blockItem, ⟨.blockEnd, p, _⟩ :: rest => some ⟨⟨.sequenceEnd, p⟩, goals, rest⟩
  | .blockItem, _ => none
  | .indentlessItem, ⟨.blockEntry, _, p⟩ :: rest =>
      nodeUnless? handles true false [.blockEntry, .key, .value, .blockEnd] p
        (.indentlessItem :: goals) rest
  | .indentlessItem, tokens => do
      some ⟨⟨.sequenceEnd, (← tokens.head?).start⟩, goals, tokens⟩
  | .blockKey, ⟨.key, _, p⟩ :: rest =>
      nodeUnless? handles true true [.key, .value, .blockEnd] p
        (.blockValue :: .blockKey :: goals) rest
  | .blockKey, ⟨.blockEnd, p, _⟩ :: rest => some ⟨⟨.mappingEnd, p⟩, goals, rest⟩
  | .blockKey, _ => none
  | .blockValue, ⟨.value, _, p⟩ :: rest =>
      nodeUnless? handles true true [.key, .value, .blockEnd] p goals rest
  | .blockValue, tokens => do some ⟨.empty (← tokens.head?).start, goals, tokens⟩
  | .flowItem true, tokens => flowItem? handles goals tokens
  | .flowItem false, ⟨.flowEntry, _, _⟩ :: rest => flowItem? handles goals rest
  | .flowItem false, ⟨.flowSequenceEnd, p, _⟩ :: rest => some ⟨⟨.sequenceEnd, p⟩, goals, rest⟩
  | .flowItem false, _ => none
  | .pairKey, tokens => do
      let next ← tokens.head?
      if [.value, .flowEntry, .flowSequenceEnd].contains next.kind then
        -- The token that shows the key to be missing is passed over.
        some ⟨.empty next.stop, .pairValue :: goals, tokens.tail⟩
      else node? handles false false (.pairValue :: goals) tokens
  | .pairValue, ⟨.value, _, _⟩ :: rest => do
      nodeUnless? handles false false [.flowEntry, .flowSequenceEnd] (← rest.head?).start
        (.pairEnd :: goals) rest
  | .pairValue, tokens => do some ⟨.empty (← tokens.head?).start, .pairEnd :: goals, tokens⟩
  | .pairEnd, tokens => do some ⟨⟨.mappingEnd, (← tokens.head?).start⟩, goals, tokens⟩
  | .flowKey true, tokens => flowKey? handles goals tokens
  | .flowKey false, ⟨.flowEntry, _, _⟩ :: rest => flowKey? handles goals rest
  | .flowKey false, ⟨.flowMappingEnd, p, _⟩ :: rest => some ⟨⟨.mappingEnd, p⟩, goals, rest⟩
  | .flowKey false, _ => none
  | .flowValue, ⟨.value, _, _⟩ :: rest => do
      nodeUnless? handles false false [.flowEntry, .flowMappingEnd] (← rest.head?).start goals rest
  | .flowValue, tokens => do some ⟨.empty (← tokens.head?).start, goals, tokens⟩
  | .noFlowValue, tokens => do some ⟨.empty (← tokens.head?).start, goals, tokens⟩

/-- Reads events until no goal is left, and gives the tokens after them. -/
def eventsFrom? (handles : Handles) :
    Nat → List Goal → List Token → Option (List Event × List Token)
  | _, [], tokens => some ([], tokens)
  | 0, _ :: _, _ => none
  | bound + 1, goal :: goals, tokens => do
      let s ← step? handles goals goal tokens
      let (events, rest) ← eventsFrom? handles bound s.goals s.tokens
      return (s.event :: events, rest)

/-- The directives of a document: at most one version, which must be known, and no handle twice. -/
def directives? : (versionSeen : Bool) → Handles → List Token → Option (Handles × List Token)
  | versionSeen, handles, ⟨.versionDirective major minor, _, _⟩ :: rest =>
      if versionSeen || major ≠ 1 || (minor ≠ 1 && minor ≠ 2) then none
      else directives? true handles rest
  | versionSeen, handles, ⟨.tagDirective handle tagStart, _, _⟩ :: rest =>
      if (handles.lookup handle).isSome then none
      else directives? versionSeen ((handle, tagStart) :: handles) rest
  | _, handles, tokens => some (handles ++ defaultHandles, tokens)

/-- Whether a token ends a document that has nothing in it. -/
def endsDocument : TokenKind → Bool
  | .versionDirective _ _ | .tagDirective _ _ | .documentStart | .documentEnd | .streamEnd => true
  | _ => false

/-- The events of the root node of a document. A token takes part in at most four events. -/
def root? (handles : Handles) (tokens : List Token) : Option (List Event × List Token) :=
  eventsFrom? handles (4 * tokens.length + 4) [.node true false] tokens

/-- What is left after a document: markers of its end, and the end of the text. -/
def isAtEnd : List Token → Bool
  | ⟨.documentEnd, _, _⟩ :: rest => isAtEnd rest
  | ⟨.streamEnd, _, _⟩ :: _ => true
  | _ => false

/-- The events of a text with one document. A text with none has no event but the place of its
end, as if it were a document left out. -/
def ofTokens? (tokens : List Token) : Option (List Event) := do
  let first ← tokens.head?
  if first.kind = .streamEnd then return [.empty first.start]
  let (events, rest) ←
    if endsDocument first.kind && first.kind ≠ .documentEnd then
      let (handles, rest) ← directives? false [] tokens
      match rest with
      | ⟨.documentStart, _, _⟩ :: rest =>
          let next ← rest.head?
          if endsDocument next.kind then pure ([empty next.start], rest)
          else root? handles rest
      | _ => none
    else root? defaultHandles tokens
  if isAtEnd rest then return events else none

end Event

end TapeMachine.Yaml
