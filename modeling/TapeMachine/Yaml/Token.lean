import TapeMachine.Yaml.Tag

/-!
Tokens of a YAML text. Besides what is written there are tokens for what indentation says: a block
collection starts and ends with one, and a key has one before it that is known only once its colon
has been seen.
-/

namespace TapeMachine.Yaml

/-- How a scalar is written. -/
inductive Style where
  | plain
  | singleQuoted
  | doubleQuoted
  | literal
  | folded
  deriving DecidableEq

inductive TokenKind where
  | versionDirective (major minor : Nat)
  /-- A directive that lets a handle stand for the start of a tag. -/
  | tagDirective (handle start : List Char)
  | documentStart
  | documentEnd
  | blockSequenceStart
  | blockMappingStart
  | blockEnd
  | flowSequenceStart
  | flowSequenceEnd
  | flowMappingStart
  | flowMappingEnd
  | blockEntry
  | flowEntry
  | key
  | value
  | alias (name : List Char)
  | anchor (name : List Char)
  | tag (tag : Tag)
  | scalar (style : Style) (text : List Char)
  | streamEnd
  deriving DecidableEq

structure Token where
  kind : TokenKind
  start : Position
  stop : Position

end TapeMachine.Yaml
