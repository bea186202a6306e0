/-!
Text in which every character, and the end, knows its place. Line breaks are made uniform on the
way in, so that a break is a single character wherever the text is read.
-/

namespace TapeMachine.Yaml

/-- A place in a text: the number of characters, of lines, and of characters on the line before
it. -/
structure Position where
  index : Nat
  line : Nat
  column : Nat
  deriving DecidableEq

namespace Position

def start : Position := ⟨0, 0, 0⟩

/-- The place after one more character of the same line. -/
def next (p : Position) : Position :=
  ⟨p.index + 1, p.line, p.column + 1⟩

/-- The start of the next line, after a break of so many characters. -/
def nextLine (p : Position) (width : Nat) : Position :=
  ⟨p.index + width, p.line + 1, 0⟩

/-- Where a message says that something is: lines and columns count from one, and the very first
place of a text is not mentioned. -/
def clause (p : Position) : String :=
  if p.line = 0 ∧ p.column = 0 then ""
  else " at line " ++ (p.line + 1).repr ++ " column " ++ (p.column + 1).repr

end Position

/-! ### Character classes -/

/-- Line breaks, once they are uniform: the last two keep their own character. -/
def isBreak (c : Char) : Bool :=
  c = '\n' || c = '\u2028' || c = '\u2029'

def isBlank (c : Char) : Bool :=
  c = ' ' || c = '\t'

/-- Letters, digits, `_` and `-`, all of them ASCII: the characters of names. -/
def isNameChar (c : Char) : Bool :=
  c.isAlphanum || c = '_' || c = '-'

def isFlowIndicator (c : Char) : Bool :=
  c = ',' || c = '[' || c = ']' || c = '{' || c = '}'

/-- Whether a text may hold the character at all: control characters and the two last code points
of the basic plane are refused. -/
def isAllowed (c : Char) : Bool :=
  let n := c.toNat
  n == 0x09 || n == 0x0A || n == 0x0D || (0x20 ≤ n && n ≤ 0x7E) || n == 0x85
    || (0xA0 ≤ n && n ≤ 0xD7FF) || (0xE000 ≤ n && n ≤ 0xFFFD) || 0x10000 ≤ n

inductive Marked where
  | done (position : Position)
  | char (c : Char) (position : Position) (rest : Marked)

namespace Marked

/-- Marks a text from a place on. A carriage return, alone or before a line feed, and the next-line
character become line feeds. -/
def ofChars (p : Position) : List Char → Marked
  | [] => .done p
  | '\r' :: '\n' :: rest => .char '\n' p (ofChars (p.nextLine 2) rest)
  | c :: rest =>
      if c = '\r' || c = '\u0085' then .char '\n' p (ofChars (p.nextLine 1) rest)
      else if isBreak c then .char c p (ofChars (p.nextLine 1) rest)
      else .char c p (ofChars p.next rest)

def ofText (text : String) : Marked :=
  ofChars .start text.toList

def position : Marked → Position
  | .done p => p
  | .char _ p _ => p

def column (t : Marked) : Nat :=
  t.position.column

def length : Marked → Nat
  | .done _ => 0
  | .char _ _ rest => rest.length + 1

def startsWith (p : Char → Bool) : Marked → Bool
  | .done _ => false
  | .char c _ _ => p c

def atSpace : Marked → Bool
  | .done _ => true
  | .char c _ _ => isBlank c || isBreak c

def atBreak : Marked → Bool
  | .done _ => true
  | .char c _ _ => isBreak c

def span (p : Char → Bool) : Marked → List Char × Marked
  | .done q => ([], .done q)
  | .char c q rest =>
      if p c then
        let (run, after) := span p rest
        (c :: run, after)
      else ([], .char c q rest)

/-- The text from the first character that is not of a kind. -/
def dropWhile (p : Char → Bool) (t : Marked) : Marked :=
  (t.span p).2

/-- The text after a line break, if one comes next. -/
def dropBreak : Marked → Marked
  | .char c p rest => if isBreak c then rest else .char c p rest
  | t => t

/-- At the start of a line, three dashes or three points followed by space part documents. -/
def atDocumentMarker : Marked → Bool
  | .char a p (.char b _ (.char c _ rest)) =>
      p.column = 0 && ((a = '-' && b = '-' && c = '-') || (a = '.' && b = '.' && c = '.'))
        && rest.atSpace
  | _ => false

end Marked

end TapeMachine.Yaml
