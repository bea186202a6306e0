import TapeMachine.Yaml.Block
import TapeMachine.Yaml.Plain
import TapeMachine.Yaml.Quote
import TapeMachine.Yaml.Token

/-!
From marked text to tokens. The lexer keeps the columns of the block collections it is in, and for
each level of brackets the place where a key may have started: when a colon shows that it was one,
the tokens for it are put in front of it after the fact.
-/

namespace TapeMachine.Yaml

/-- The start of what may turn out to be a key: on one line, and not too far back. -/
structure KeyCandidate where
  before : Nat
  position : Position
  /-- Nothing but a key can stand there, so it is an error if no colon follows. -/
  required : Bool

structure Lexer where
  rest : Marked
  /-- Tokens so far, the latest first. -/
  tokens : List Token
  count : Nat
  /-- Columns of the open block collections, the innermost first. -/
  indents : List Nat
  /-- The candidate of the innermost level of brackets. -/
  candidate : Option KeyCandidate
  /-- The candidates of the levels around it; as many as there are open brackets. -/
  outer : List (Option KeyCandidate)
  keyAllowed : Bool

namespace Lexer

def start (text : Marked) : Lexer where
  rest := text
  tokens := []
  count := 0
  indents := []
  candidate := none
  outer := []
  keyAllowed := true

def inFlow (lx : Lexer) : Bool :=
  !lx.outer.isEmpty

def position (lx : Lexer) : Position :=
  lx.rest.position

def emit (lx : Lexer) (kind : TokenKind) (rest : Marked) : Lexer :=
  { lx with
    tokens := ⟨kind, lx.position, rest.position⟩ :: lx.tokens
    count := lx.count + 1
    rest := rest }

def emitEmpty (lx : Lexer) (kind : TokenKind) : Lexer :=
  lx.emit kind lx.rest

/-- Puts a token of no width in after the first so many. -/
def insert (lx : Lexer) (before : Nat) (kind : TokenKind) (p : Position) : Lexer :=
  { lx with
    tokens := lx.tokens.insertIdx (lx.count - before) ⟨kind, p, p⟩
    count := lx.count + 1 }

/-! ### Space between tokens -/

/-- Skips blanks, comments and breaks, and tells whether a key may start afterwards. Outside
brackets a break allows one, and as long as one may start a tab is no blank. A byte order mark is
skipped at the very start. -/
def skipSpace (inFlow : Bool) : (keyAllowed inComment : Bool) → Marked → Bool × Marked
  | keyAllowed, _, .done p => (keyAllowed, .done p)
  | keyAllowed, inComment, .char c p rest =>
      if isBreak c then skipSpace inFlow (keyAllowed || !inFlow) false rest
      else if inComment || c = '#' then skipSpace inFlow keyAllowed true rest
      else if c = ' ' || (c = '\t' && (inFlow || !keyAllowed)) || (c = '\ufeff' && p.index = 0) then
        skipSpace inFlow keyAllowed false rest
      else (keyAllowed, .char c p rest)

def toNextToken (lx : Lexer) : Lexer :=
  let (keyAllowed, rest) := skipSpace lx.inFlow lx.keyAllowed false lx.rest
  { lx with keyAllowed := keyAllowed, rest := rest }

/-! ### Keys -/

/-- A candidate is out of date on another line or after 1024 characters. -/
def isStale (p : Position) (k : KeyCandidate) : Bool :=
  k.position.line < p.line || k.position.index + 1024 < p.index

def dropped? : Option KeyCandidate → Option (Option KeyCandidate)
  | some k => if k.required then none else some none
  | none => some none

def refreshed? (p : Position) (k : Option KeyCandidate) : Option (Option KeyCandidate) :=
  if k.any (isStale p) then dropped? k else some k

def refreshKeys? (lx : Lexer) : Option Lexer := do
  let candidate ← refreshed? lx.position lx.candidate
  let outer ← lx.outer.mapM (refreshed? lx.position)
  return { lx with candidate := candidate, outer := outer }

def dropKey? (lx : Lexer) : Option Lexer := do
  return { lx with candidate := ← dropped? lx.candidate }

/-- Makes what comes next a candidate, if a key may start here. -/
def saveKey? (lx : Lexer) : Option Lexer :=
  if lx.keyAllowed then do
    let lx ← lx.dropKey?
    return { lx with
      candidate := some {
        before := lx.count
        position := lx.position
        required := !lx.inFlow && lx.indents.head? = some lx.rest.column } }
  else some lx

/-! ### Indentation -/

/-- Whether a column is deeper than the innermost block collection. -/
def isDeeper (lx : Lexer) (column : Nat) : Bool :=
  lx.indents.head?.all (· < column)

/-- Opens a block collection at a place, unless it is inside brackets or not deeper than the one
around it. Its token comes after the first so many. -/
def openBlock (lx : Lexer) (kind : TokenKind) (before : Nat) (p : Position) : Lexer :=
  if !lx.inFlow && lx.isDeeper p.column then
    { lx.insert before kind p with indents := p.column :: lx.indents }
  else lx

def openBlockHere (lx : Lexer) (kind : TokenKind) : Lexer :=
  lx.openBlock kind lx.count lx.position

def closeBlocksFrom (column : Nat) : List Nat → Lexer → Lexer
  | [], lx => { lx with indents := [] }
  | indent :: indents, lx =>
      if column < indent then closeBlocksFrom column indents (lx.emitEmpty .blockEnd)
      else { lx with indents := indent :: indents }

def closeBlocks (lx : Lexer) (column : Nat) : Lexer :=
  if lx.inFlow then lx else closeBlocksFrom column lx.indents lx

def closeAllBlocks (lx : Lexer) : Lexer :=
  if lx.inFlow then lx
  else { lx.indents.foldl (fun lx _ => lx.emitEmpty .blockEnd) lx with indents := [] }

/-! ### Tokens -/

/-- A document marker, or a directive, which ends all that is open. -/
def atMargin? (lx : Lexer) : Option Lexer := do
  let lx ← lx.closeAllBlocks.dropKey?
  return { lx with keyAllowed := false }

def afterMarker : Marked → Marked
  | .char _ _ (.char _ _ (.char _ _ rest)) => rest
  | t => t

def openFlow? (lx : Lexer) (kind : TokenKind) (rest : Marked) : Option Lexer := do
  let lx ← lx.saveKey?
  let lx := { lx with outer := lx.candidate :: lx.outer, candidate := none, keyAllowed := true }
  return lx.emit kind rest

def closeFlow? (lx : Lexer) (kind : TokenKind) (rest : Marked) : Option Lexer := do
  let lx ← lx.dropKey?
  let lx :=
    match lx.outer with
    | [] => lx
    | k :: outer => { lx with candidate := k, outer := outer }
  return { lx with keyAllowed := false }.emit kind rest

def flowEntry? (lx : Lexer) (rest : Marked) : Option Lexer := do
  let lx ← lx.dropKey?
  return { lx with keyAllowed := true }.emit .flowEntry rest

def blockEntry? (lx : Lexer) (rest : Marked) : Option Lexer := do
  let lx ←
    if lx.inFlow then some lx
    else if lx.keyAllowed then some (lx.openBlockHere .blockSequenceStart)
    else none
  let lx ← lx.dropKey?
  return { lx with keyAllowed := true }.emit .blockEntry rest

/-- A key that is announced by a question mark. -/
def explicitKey? (lx : Lexer) (rest : Marked) : Option Lexer := do
  let lx ←
    if lx.inFlow then some lx
    else if lx.keyAllowed then some (lx.openBlockHere .blockMappingStart)
    else none
  let lx ← lx.dropKey?
  return { lx with keyAllowed := !lx.inFlow }.emit .key rest

/-- A colon: the candidate, if there is one, was a key. -/
def value? (lx : Lexer) (rest : Marked) : Option Lexer := do
  let lx ←
    match lx.candidate with
    | some k =>
        let lx := lx.insert k.before .key k.position
        let lx := lx.openBlock .blockMappingStart k.before k.position
        some { lx with candidate := none, keyAllowed := false }
    | none =>
        if lx.inFlow then some { lx with keyAllowed := false }
        else if lx.keyAllowed then
          some { lx.openBlockHere .blockMappingStart with keyAllowed := true }
        else none
  return lx.emit .value rest

/-- Indicators that may follow the name of an anchor or an alias. -/
def mayFollowName (c : Char) : Bool :=
  ['?', ':', ',', ']', '}', '%', '@', '\x60'].contains c

/-- An anchor or an alias, after its sign. Space or an indicator must follow the name. -/
def name? (lx : Lexer) (kind : List Char → TokenKind) (afterSign : Marked) : Option Lexer := do
  let lx ← lx.saveKey?
  let (name, rest) := afterSign.span isNameChar
  if name.isEmpty || !(rest.atSpace || rest.startsWith mayFollowName) then none
  else return { lx with keyAllowed := false }.emit (kind name) rest

def tag? (lx : Lexer) : Option Lexer := do
  let lx ← lx.saveKey?
  let (tag, rest) ← Tag.read lx.inFlow lx.rest
  return { lx with keyAllowed := false }.emit (.tag tag) rest

def blockScalar? (lx : Lexer) (literal : Bool) (afterSign : Marked) : Option Lexer := do
  let lx ← lx.dropKey?
  let (text, rest) ← Block.read literal lx.indents.head? afterSign
  return { lx with keyAllowed := true }.emit
    (.scalar (if literal then .literal else .folded) text) rest

def quoted? (lx : Lexer) (double : Bool) (afterQuote : Marked) : Option Lexer := do
  let lx ← lx.saveKey?
  let (text, rest) ←
    if double then Quote.double [] .absent .text afterQuote else Quote.single [] .absent afterQuote
  return { lx with keyAllowed := false }.emit
    (.scalar (if double then .doubleQuoted else .singleQuoted) text) rest

def plain? (lx : Lexer) : Option Lexer := do
  let lx ← lx.saveKey?
  let indent :=
    match lx.indents.head? with
    | some n => n + 1
    | none => 0
  let reading ← Plain.read lx.inFlow indent lx.rest
  return { lx with keyAllowed := reading.endsLine }.emit (.scalar .plain reading.text) reading.rest

/-! ### Directives -/

def number? (t : Marked) : Option (Nat × Marked) :=
  let (digits, rest) := t.span Char.isDigit
  if digits.isEmpty || 9 < digits.length then none
  else some (Text.decimalValue digits, rest)

def version? (t : Marked) : Option (TokenKind × Marked) := do
  let (major, t) ← number? (t.dropWhile isBlank)
  match t with
  | .char '.' _ t =>
      let (minor, t) ← number? t
      some (.versionDirective major minor, t)
  | _ => none

/-- The handle and the start of a tag after `%TAG`. -/
def tagDirective? (t : Marked) : Option (TokenKind × Marked) := do
  let (handle, t) ← Tag.handle? (t.dropWhile isBlank)
  if handle ≠ ['!'] && (handle.length < 2 || handle.getLast? ≠ some '!') then none
  else if !t.startsWith isBlank then none
  else
    let (tagStart, t) ← Tag.suffix? true [] (t.dropWhile isBlank)
    if t.atSpace then some (.tagDirective handle tagStart, t) else none

/-- A directive, after its percent sign. Nothing but a comment may follow on its line. -/
def directive? (lx : Lexer) (afterSign : Marked) : Option Lexer := do
  let lx ← lx.atMargin?
  let (name, t) := afterSign.span isNameChar
  if name.isEmpty || !t.atSpace then none
  let (kind, t) ←
    if name = "YAML".toList then version? t
    else if name = "TAG".toList then tagDirective? t
    else none
  let line := t.dropWhile isBlank
  let line := if line.startsWith (· = '#') then line.dropWhile (fun c => !isBreak c) else line
  if line.atBreak then
    return { lx.emit kind t with rest := line.dropBreak }
  else none

/-! ### The whole text -/

/-- Signs that start something other than a plain scalar, or nothing at all. -/
def isReserved (c : Char) : Bool :=
  ['#', '&', '*', '!', '|', '>', '\'', '"', '%', '@', '\x60'].contains c

/-- Whether a plain scalar can start with a character, given what follows it. -/
def startsPlain (inFlow : Bool) (c : Char) (rest : Marked) : Bool :=
  if c = '-' then !rest.startsWith isBlank
  else if c = '?' || c = ':' then !inFlow && !rest.atSpace
  else !(isFlowIndicator c || isBlank c || isBreak c || isReserved c)

/-- Reads one token, the first character of which is given. -/
def token? (lx : Lexer) (c : Char) (rest : Marked) : Option Lexer :=
  if c = '%' && lx.rest.column = 0 then lx.directive? rest
  else if lx.rest.atDocumentMarker then do
    let lx ← lx.atMargin?
    return lx.emit (if c = '-' then .documentStart else .documentEnd) (afterMarker lx.rest)
  else if c = '[' then lx.openFlow? .flowSequenceStart rest
  else if c = '{' then lx.openFlow? .flowMappingStart rest
  else if c = ']' then lx.closeFlow? .flowSequenceEnd rest
  else if c = '}' then lx.closeFlow? .flowMappingEnd rest
  else if c = ',' then lx.flowEntry? rest
  else if c = '-' && rest.atSpace then lx.blockEntry? rest
  else if c = '?' && (lx.inFlow || rest.atSpace) then lx.explicitKey? rest
  else if c = ':' && (lx.inFlow || rest.atSpace) then lx.value? rest
  else if c = '*' then lx.name? .alias rest
  else if c = '&' then lx.name? .anchor rest
  else if c = '!' then lx.tag?
  else if c = '|' && !lx.inFlow then lx.blockScalar? true rest
  else if c = '>' && !lx.inFlow then lx.blockScalar? false rest
  else if c = '\'' then lx.quoted? false rest
  else if c = '"' then lx.quoted? true rest
  else if startsPlain lx.inFlow c rest then lx.plain?
  else none

/-- The end of the text closes all that is open. It is on a line of its own. -/
def finish? (lx : Lexer) (p : Position) : Option (List Token) := do
  let p := if p.column = 0 then p else ⟨p.index, p.line + 1, 0⟩
  let lx := { lx with rest := .done p }
  let lx ← lx.closeAllBlocks.dropKey?
  return (lx.emitEmpty .streamEnd).tokens.reverse

/-- Reads token after token. Each takes at least a character, so a bound of more than the length of
the text is never reached. -/
def tokensFrom? : Nat → Lexer → Option (List Token)
  | 0, _ => none
  | bound + 1, lx => do
      let lx ← lx.toNextToken.refreshKeys?
      let lx := lx.closeBlocks lx.rest.column
      match lx.rest with
      | .done p => lx.finish? p
      | .char c _ rest => tokensFrom? bound (← lx.token? c rest)

end Lexer

/-- The tokens of a text, or `none` if it cannot be split into any. -/
def Token.ofText? (text : String) : Option (List Token) :=
  if text.toList.all isAllowed then
    let marked := Marked.ofText text
    (Lexer.start marked).tokensFrom? (marked.length + 1)
  else none

end TapeMachine.Yaml
