import ScriptBoundary.Double.Basic

/-!
Rounding to the nearest double, ties to the even significand, and exact addition rounded once.
-/

namespace ScriptBoundary.Double

/-- `numerator / denominator` rounded to an integer, a half to the even neighbour. -/
def roundQuotient (numerator denominator : Nat) : Nat :=
  let quotient := numerator / denominator
  let twice := 2 * (numerator % denominator)
  if twice < denominator then quotient
  else if denominator < twice then quotient + 1
  else if quotient % 2 = 0 then quotient else quotient + 1

/-- The greatest `k` with `2 ^ k ≤ numerator / denominator`, both positive. -/
def binaryExponent (numerator denominator : Nat) : Int :=
  let guess : Int := (numerator.log2 : Int) - denominator.log2
  if numerator * Nat.pow 2 (-guess).toNat < denominator * Nat.pow 2 guess.toNat then guess - 1 else guess

/-- The magnitude bits of the double nearest to a positive ratio. The significand and the exponent
are added, so a significand that rounds up to `2 ^ 53` carries into the exponent. -/
def nearestBits (numerator denominator : Nat) : Nat :=
  let scale := max (binaryExponent numerator denominator - 52) (-1074)
  let significand :=
    roundQuotient (numerator * Nat.pow 2 (-scale).toNat) (denominator * Nat.pow 2 scale.toNat)
  min infinityBits ((scale + 1074).toNat * exponentWeight + significand)

def ofRatio (negative : Bool) (numerator denominator : Nat) : Double :=
  ofSigned negative (if numerator = 0 then 0 else nearestBits numerator denominator)

def ofInt (i : Int) : Double :=
  ofRatio (i < 0) i.natAbs 1

/-- The value of a finite double in units of `2 ^ -1074`. -/
def units (x : Double) : Int :=
  let magnitude : Int := (x.significand * Nat.pow 2 (x.scale + 1074).toNat : Nat)
  if x.isNegative then -magnitude else magnitude

/-- The exact sum, rounded. A sum of zero is negative only if both terms are negative zeros. -/
def add (x y : Double) : Double :=
  if x.isNaN then x
  else if y.isNaN then y
  else if x.isInfinite then
    if y.isInfinite && x.isNegative != y.isNegative then quietNaN else x
  else if y.isInfinite then y
  else
    let sum := x.units + y.units
    if sum = 0 then
      ofSigned (x.isZero && y.isZero && x.isNegative && y.isNegative) 0
    else ofRatio (sum < 0) sum.natAbs (Nat.pow 2 1074)

end ScriptBoundary.Double
