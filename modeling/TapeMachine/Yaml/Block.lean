import TapeMachine.Text.Numeral
import TapeMachine.Yaml.Marked

/-!
Block scalars: lines of text set off by their indentation, kept line by line after `|` and folded
into paragraphs after `>`.
-/

namespace TapeMachine.Yaml.Block

/-- What becomes of the breaks after the last line. -/
inductive Chomping where
  | strip
  | clip
  | keep
  deriving DecidableEq

structure Header where
  literal : Bool
  chomping : Chomping
  /-- How much deeper than its surroundings the text is, if the header says so. -/
  increment : Option Nat

def chomping? : Char → Option Chomping
  | '+' => some .keep
  | '-' => some .strip
  | _ => none

/-- A digit other than zero; `none` is an error, and `some none` means no digit. -/
def increment? : Marked → Option (Option Nat × Marked)
  | .char '0' _ _ => none
  | .char c p rest =>
      if c.isDigit then some (some (Text.digitValue c), rest)
      else some (none, .char c p rest)
  | t => some (none, t)

def takeChomping : Marked → Option Chomping × Marked
  | .char c p rest =>
      match chomping? c with
      | some k => (some k, rest)
      | none => (none, .char c p rest)
  | t => (none, t)

/-- Reads what follows `|` or `>` on its line: chomping and indentation in either order, blanks, a
comment, and the break. -/
def header? (literal : Bool) (t : Marked) : Option (Header × Marked) := do
  let (first, t) := takeChomping t
  let (increment, t) ← increment? t
  let (second, t) :=
    if first.isNone && increment.isSome then takeChomping t else (none, t)
  let t := t.dropWhile isBlank
  let t := if t.startsWith (· = '#') then t.dropWhile (fun c => !isBreak c) else t
  if t.atBreak then
    some (⟨literal, (first <|> second).getD .clip, increment⟩, t.dropBreak)
  else none

/-- The text of a block scalar so far. -/
structure Lines where
  text : List Char
  /-- The break at the end of the last line. -/
  ending : Option Char
  /-- Breaks of empty lines since then, the latest first. -/
  empties : List Char
  indented : Bool

namespace Lines

def empty : Lines := ⟨[], none, [], false⟩

/-- The text at the start of another line that begins with a character. When folding, the break
between two lines that start with no blank becomes a blank, or nothing if empty lines part them. -/
def startLine (l : Lines) (literal : Bool) (c : Char) : Lines :=
  let folded := !literal && l.ending = some '\n' && !l.indented && !isBlank c
  let text :=
    if folded then
      if l.empties.isEmpty then ' ' :: l.text else l.text
    else l.ending.toList ++ l.text
  ⟨c :: (l.empties ++ text), none, [], isBlank c⟩

/-- The text after the last line. -/
def finish (l : Lines) (chomping : Chomping) : List Char :=
  let ended := if chomping = .strip then l.text else l.ending.toList ++ l.text
  (if chomping = .keep then l.empties ++ ended else ended).reverse

end Lines

/-- The indentation of the text: the one already known, or else the deepest seen before its first
character, if it is deeper than the surroundings. -/
def settledIndent (known : Option Nat) (outer deepest : Nat) : Nat :=
  known.getD (max deepest (max outer 1))

/-- Reads on. `known` is the indentation of the text once it is settled, `outer` the least that it
can be, `deepest` the farthest column reached by blanks since the last line, and `inLine` says
whether the reader is inside a line. A tab within the indentation is an error. -/
def readFrom (header : Header) (outer : Nat) :
    Option Nat → Nat → Bool → Lines → Marked → Option (List Char × Marked)
  | _, _, _, lines, .done p => some (lines.finish header.chomping, .done p)
  | known, deepest, true, lines, .char c _ rest =>
      if isBreak c then readFrom header outer known 0 false { lines with ending := some c } rest
      else readFrom header outer known deepest true { lines with text := c :: lines.text } rest
  | known, deepest, false, lines, .char c p rest =>
      let inIndent := known.all (p.column < ·)
      if inIndent && c = ' ' then readFrom header outer known deepest false lines rest
      else
        let deepest := max deepest p.column
        if inIndent && c = '\t' then none
        else if isBreak c then
          readFrom header outer known deepest false
            { lines with empties := c :: lines.empties } rest
        else
          let indent := settledIndent known outer deepest
          if p.column = indent then
            readFrom header outer (some indent) 0 true (lines.startLine header.literal c) rest
          else
            some (lines.finish header.chomping, .char c p rest)

/-- Reads a block scalar after its indicator; `parent` is the indentation around it, if any. -/
def read (literal : Bool) (parent : Option Nat) (t : Marked) : Option (List Char × Marked) := do
  let (header, t) ← header? literal t
  let known := header.increment.map fun n =>
    match parent with
    | some p => p + n
    | none => n
  let outer :=
    match parent with
    | some p => p + 1
    | none => 0
  readFrom header outer known 0 false .empty t

end TapeMachine.Yaml.Block
