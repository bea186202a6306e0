import TapeMachine.Decimal.Shortest
import TapeMachine.Text.Numeral

/-!
Floating point numbers as they are read from and shown in text.
-/

namespace TapeMachine.Decimal

inductive Number where
  | finite (negative : Bool) (magnitude : Binary)
  | infinite (negative : Bool)
  | notANumber
  deriving DecidableEq

namespace Number

/-- The number with as few digits as it takes, always with a point; zero keeps its sign. -/
def render : Number → String
  | finite negative magnitude =>
      let text := magnitude.shortest.positional
      let pointed := if text.contains '.' then text else text ++ ".0"
      if negative then "-" ++ pointed else pointed
  | infinite false => "inf"
  | infinite true => "-inf"
  | notANumber => "NaN"

/-- Reads the exponent after its letter: a sign may come first, then one digit or more. -/
def exponentOf? (chars : List Char) : Option Int :=
  let (negative, digits) :=
    match chars with
    | '-' :: rest => (true, rest)
    | '+' :: rest => (false, rest)
    | _ => (false, chars)
  if digits.isEmpty || !digits.all Char.isDigit then none
  else if negative then some (-(Text.decimalValue digits : Int))
  else some (Text.decimalValue digits : Int)

/-- Reads digits with at most one point among them and an optional exponent after an `e`. At least
one digit stands before the exponent. A magnitude too large for the format is no number. -/
def magnitudeOf? (chars : List Char) : Option Binary := do
  let whole := chars.takeWhile Char.isDigit
  let afterWhole := chars.dropWhile Char.isDigit
  let (fraction, afterFraction) :=
    match afterWhole with
    | '.' :: rest => (rest.takeWhile Char.isDigit, rest.dropWhile Char.isDigit)
    | _ => ([], afterWhole)
  let exponent ←
    match afterFraction with
    | [] => some 0
    | 'e' :: rest => exponentOf? rest
    | 'E' :: rest => exponentOf? rest
    | _ => none
  let digits := whole ++ fraction
  if digits.isEmpty then none
  else
    Binary.ofDecimal? (Text.decimalValue digits) digits.length (exponent - fraction.length)

def finiteOf? : List Char → Option Number
  | '-' :: rest => (magnitudeOf? rest).map (finite true)
  | '+' :: rest => (magnitudeOf? rest).map (finite false)
  | chars => (magnitudeOf? chars).map (finite false)

end Number

end TapeMachine.Decimal
