import TapeMachine.Decimal.Binary

/-!
The shortest decimal that reads back as a given binary number. All reals from halfway to the number
below to halfway to the number above read back as it. Decimal grids are tried from the coarsest to
the finest; on the first grid with a point in that range, the point nearest to the number wins.
-/

namespace TapeMachine.Decimal

structure Digits where
  digits : Nat
  exponent : Int
  deriving DecidableEq

namespace Binary

/-- Quarters of a unit in the last place, so that all halfway points are whole: the number, and the
ends of the range that reads back as it. Below a power of two the numbers lie twice as dense. -/
def quarters (b : Binary) : Nat × Nat × Nat :=
  let n := 4 * b.significand
  let low := if b.significand = leastNormal then n - 1 else n - 2
  (low, n, n + 2)

/-- The point of the grid of multiples of `10 ^ exponent` that reads back as the number, if any. The
ends of the range belong to it if the significand is even. -/
def onGrid? (b : Binary) (exponent : Int) : Option Nat :=
  let (low, n, high) := b.quarters
  let unit := b.exponent - 2
  -- A count of quarters times `quarter` and a point times `tens` are in the same unit.
  let quarter := power 2 unit * power 10 (-exponent)
  let tens := power 2 (-unit) * power 10 exponent
  let reads (point : Nat) : Bool :=
    if b.significand % 2 = 0 then
      low * quarter ≤ point * tens && point * tens ≤ high * quarter
    else
      low * quarter < point * tens && point * tens < high * quarter
  let below := n * quarter / tens
  let above := below + 1
  match reads below, reads above with
  | true, true =>
      if above * tens - n * quarter ≤ n * quarter - below * tens then some above else some below
  | true, false => some below
  | false, true => some above
  | false, false => none

/-- An exponent of ten that is surely too coarse a grid for the number. -/
def coarsest (b : Binary) : Int :=
  let whole := b.significand * power 2 b.exponent * power 10 343 / power 2 (-b.exponent)
  ((Nat.toDigits 10 whole).length : Int) - 343

/-- The first grid with a point that reads back, from an exponent downwards. -/
def firstOnGrid (b : Binary) : Nat → Int → Digits
  | 0, exponent => ⟨0, exponent⟩
  | fuel + 1, exponent =>
      match b.onGrid? exponent with
      | some point => ⟨point, exponent⟩
      | none => firstOnGrid b fuel (exponent - 1)

/-- The shortest decimal of the number. Seventeen digits always read back. -/
def shortest (b : Binary) : Digits :=
  if b.significand = 0 then ⟨0, 0⟩ else b.firstOnGrid 20 b.coarsest

end Binary

namespace Digits

/-- The decimal without an exponent: as many zeros as it takes, a point only before a fraction. -/
def positional (d : Digits) : String :=
  let digits := Nat.toDigits 10 d.digits
  if 0 ≤ d.exponent then
    String.ofList (digits ++ List.replicate d.exponent.toNat '0')
  else
    let places := (-d.exponent).toNat
    let padded := digits.leftpad (places + 1) '0'
    let whole := padded.take (padded.length - places)
    let fraction := ((padded.drop (padded.length - places)).reverse.dropWhile (· == '0')).reverse
    if fraction.isEmpty then String.ofList whole
    else String.ofList (whole ++ '.' :: fraction)

end Digits

end TapeMachine.Decimal
