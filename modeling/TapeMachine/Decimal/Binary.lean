/-!
Binary floating point numbers of 64 bits, as exact integers and powers of two, and the rounding of
a fraction to the nearest of them. Nothing here computes with machine floats, so all of it can be
evaluated and reasoned about.
-/

namespace TapeMachine.Decimal

/-- A nonnegative finite number of the format: `significand * 2 ^ exponent`. -/
structure Binary where
  significand : Nat
  exponent : Int
  deriving DecidableEq

namespace Binary

/-- The significand has 53 bits: it is less than this number. -/
def significandBound : Nat := 9007199254740992

/-- The least significand with the highest bit set, as it is unless the exponent is the least. -/
def leastNormal : Nat := 4503599627370496

def leastExponent : Int := -1074

def greatestExponent : Int := 971

def zero : Binary := ⟨0, leastExponent⟩

/-- The nearest natural number to a fraction; a half goes to the even neighbour. -/
def divNearestEven (num den : Nat) : Nat :=
  let floor := num / den
  let twice := 2 * (num % den)
  if twice < den then floor
  else if den < twice then floor + 1
  else if floor % 2 = 0 then floor
  else floor + 1

def power (base : Nat) (exponent : Int) : Nat :=
  Nat.pow base exponent.toNat

/-- The fraction `num / den` divided by a power of two, as a fraction. -/
def scaleDown (num den : Nat) (exponent : Int) : Nat × Nat :=
  (num * power 2 (-exponent), den * power 2 exponent)

/-- The number of the format nearest to the fraction `num / den`, or `none` if that would be
infinity. -/
def ofFraction? (num den : Nat) : Option Binary :=
  if num = 0 then some zero
  else
    let guess := max leastExponent ((num.log2 : Int) - (den.log2 : Int) - 52)
    let (n, d) := scaleDown num den guess
    let exponent :=
      if n / d < leastNormal && leastExponent < guess then guess - 1 else guess
    let (n, d) := scaleDown num den exponent
    let significand := divNearestEven n d
    let result :=
      if significand = significandBound then ⟨leastNormal, exponent + 1⟩
      else ⟨significand, exponent⟩
    if greatestExponent < result.exponent then none else some result

/-- The number nearest to `digits * 10 ^ exponent`. `length` is how many digits there are; it
settles far too large and far too small numbers without writing them out. -/
def ofDecimal? (digits length : Nat) (exponent : Int) : Option Binary :=
  if digits = 0 then some zero
  else if 400 < length + exponent then none
  else if length + exponent < -400 then some zero
  else ofFraction? (digits * power 10 exponent) (power 10 (-exponent))

end Binary

end TapeMachine.Decimal
