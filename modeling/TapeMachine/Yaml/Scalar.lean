import TapeMachine.Decimal.Number
import TapeMachine.Yaml.Document

/-!
What a scalar means. Plain text may be nothing, a truth value or a number; quotes make it a text. A
number with superfluous leading zeros is a text, and so is a number too large for its kind.
-/

namespace TapeMachine.Yaml

inductive ScalarValue where
  | null
  | bool (b : Bool)
  /-- A whole number, and whether it is written with a minus. -/
  | integer (minus : Bool) (n : Int)
  | float (x : Decimal.Number)
  | text (text : List Char)
  deriving DecidableEq

/-- A scalar whose tag promises a kind of value that its text is not. -/
inductive ScalarError where
  | notBoolean
  | notInteger
  | notFloat
  | notNull
  deriving DecidableEq

namespace ScalarValue

def isWord (words : List String) (text : List Char) : Bool :=
  words.any (·.toList = text)

def isNull (text : List Char) : Bool :=
  isWord ["null", "Null", "NULL", "~"] text

def bool? (text : List Char) : Option Bool :=
  if isWord ["true", "True", "TRUE"] text then some true
  else if isWord ["false", "False", "FALSE"] text then some false
  else none

def digits? (base : Nat) (digits : List Char) : Option Nat :=
  if digits.isEmpty then none
  else
    digits.foldlM (fun n c => do
      let digit ← Text.hexValue? c
      if digit < base then some (base * n + digit) else none) 0

/-- The base that a letter after a zero announces. -/
def base? : Char → Option Nat
  | 'x' => some 16
  | 'o' => some 8
  | 'b' => some 2
  | _ => none

/-- The text without a sign of a kind in front. -/
def dropSign (signs : List Char) : List Char → List Char
  | c :: rest => if signs.contains c then rest else c :: rest
  | [] => []

/-- Whether a text is digits after a zero, with or without a sign: not a number. -/
def hasSuperfluousZero (text : List Char) : Bool :=
  match dropSign ['-', '+'] text with
  | '0' :: rest => !rest.isEmpty && rest.all Char.isDigit
  | _ => false

/-- Digits in decimal, or in the base that a zero and a letter announce. -/
def magnitude? (text : List Char) : Option Nat :=
  match text with
  | '0' :: letter :: digits =>
      match base? letter with
      | some base => digits? base digits
      | none => if hasSuperfluousZero text then none else digits? 10 text
  | _ => digits? 10 text

/-- A whole number without a minus, however large; a plus may stand in front. -/
def unsigned? (text : List Char) : Option Nat :=
  magnitude? (dropSign ['+'] text)

/-- The magnitude of a whole number with a minus. -/
def negated? : List Char → Option Nat
  | '-' :: rest => magnitude? rest
  | _ => none

/-- The least magnitude that 128 bits cannot hold. -/
def wideBound : Nat := 340282366920938463463374607431768211456

/-- A whole number that 128 bits can hold. -/
def integer? (text : List Char) : Option ScalarValue :=
  match unsigned? text, negated? text with
  | some n, _ => if n < wideBound then some (.integer false n) else none
  | none, some n => if 2 * n ≤ wideBound then some (.integer true (-(n : Int))) else none
  | none, none => none

/-- A floating point number; the three names may not stand in for each other's case. -/
def float? (text : List Char) : Option Decimal.Number :=
  if isWord [".inf", ".Inf", ".INF"] (dropSign ['+'] text) then some (.infinite false)
  else if isWord ["-.inf", "-.Inf", "-.INF"] text then some (.infinite true)
  else if isWord [".nan", ".NaN", ".NAN"] text then some .notANumber
  else Decimal.Number.finiteOf? text

/-- The value of plain text that no tag explains. -/
def ofPlain (text : List Char) : ScalarValue :=
  if text.isEmpty || isNull text then .null
  else
    match bool? text, integer? text with
    | some b, _ => .bool b
    | none, some n => n
    | none, none =>
        if hasSuperfluousZero text then .text text
        else
          match float? text with
          | some x => .float x
          | none => .text text

/-- The tag of a kind of value that every reader knows. -/
def coreTag (name : String) : List Char :=
  ("tag:yaml.org,2002:" ++ name).toList

/-- The value of a scalar. The four core tags of values override its style; a tag of the
document's own leaves plain text to explain itself; any other makes it a text. -/
def ofScalar (tag : Option (List Char)) (style : Style) (text : List Char) :
    Except ScalarError ScalarValue :=
  match tag with
  | none => .ok (if style = .plain then ofPlain text else .text text)
  | some tag =>
      if tag = coreTag "bool" then
        match bool? text with
        | some b => .ok (.bool b)
        | none => .error .notBoolean
      else if tag = coreTag "int" then
        match integer? text with
        | some n => .ok n
        | none => .error .notInteger
      else if tag = coreTag "float" then
        match float? text with
        | some x => .ok (.float x)
        | none => .error .notFloat
      else if tag = coreTag "null" then
        if isNull text then .ok .null else .error .notNull
      else if tag.head? = some '!' && style = .plain then .ok (ofPlain text)
      else .ok (.text text)

/-- The number of a scalar that is to be a count: plain text, whatever its tag, or a literal block
with the tag of whole numbers. It must have no minus and fit into 64 bits. -/
def count? (tag : Option (List Char)) (style : Style) (text : List Char) : Option UInt64 :=
  if style = .plain || (style = .literal && tag = some (coreTag "int")) then
    match unsigned? text with
    | some n => if n < UInt64.size then some n.toUInt64 else none
    | none => none
  else none

end ScalarValue

end TapeMachine.Yaml
