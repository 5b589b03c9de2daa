import ScriptBoundary.Double.Basic

/-!
The shortest decimal that reads back as a given double: the fewest digits that lie in the interval
of reals rounding to it, and of those the nearest.
-/

namespace ScriptBoundary.Double

/-- The number `digits * 10 ^ exponent`. -/
structure Decimal where
  digits : Nat
  exponent : Int
deriving DecidableEq

/-- The interval of reals that round to a positive finite double, in quarter units of its last
place. Its lower half is narrower where the significand is the least of its binade. -/
structure Interval where
  low : Nat
  high : Nat
  closed : Bool

def interval (x : Double) : Interval where
  low := 4 * x.significand - (if x.significand = exponentWeight then 1 else 2)
  high := 4 * x.significand + 2
  closed := x.significand % 2 = 0

/-- Compares `a * 10 ^ p` with `b * 2 ^ q`. -/
def compareScaled (a : Nat) (p : Int) (b : Nat) (q : Int) : Ordering :=
  compare (a * Nat.pow 10 p.toNat * Nat.pow 2 (-q).toNat)
    (b * Nat.pow 2 q.toNat * Nat.pow 10 (-p).toNat)

/-- The decimal reads back as the positive finite double. -/
def readsBack (x : Double) (d : Decimal) : Bool :=
  let i := x.interval
  match compareScaled d.digits d.exponent i.low (x.scale - 2),
      compareScaled d.digits d.exponent i.high (x.scale - 2) with
  | .gt, .lt => true
  | .eq, .lt => i.closed
  | .gt, .eq => i.closed
  | _, _ => false

def digitCount (n : Nat) : Nat :=
  (Nat.toDigits 10 n).length

/-- The greatest `k` with `10 ^ k ≤ numerator / denominator`, both positive. -/
def decimalExponent (numerator denominator : Nat) : Int :=
  if denominator ≤ numerator then digitCount (numerator / denominator) - 1
  else
    let places := digitCount (denominator / numerator)
    if numerator * Nat.pow 10 (places - 1) = denominator then 1 - (places : Int) else -(places : Int)

def numerator (x : Double) : Nat := x.significand * Nat.pow 2 x.scale.toNat

def denominator (x : Double) : Nat := Nat.pow 2 (-x.scale).toNat

/-- The multiple of `10 ^ exponent` at or just below a positive finite double. -/
def floorAt (x : Double) (exponent : Int) : Nat :=
  (x.numerator * Nat.pow 10 (-exponent).toNat) / (x.denominator * Nat.pow 10 exponent.toNat)

/-- The neighbour of the double on the grid of multiples of `10 ^ exponent` that reads back, the
nearer if both do; of two equally near, the upper. -/
def neighbour? (x : Double) (exponent : Int) : Option Decimal :=
  let below : Decimal := ⟨x.floorAt exponent, exponent⟩
  let above : Decimal := ⟨below.digits + 1, exponent⟩
  match x.readsBack below, x.readsBack above with
  | true, true =>
    match compareScaled (2 * below.digits + 1) exponent (2 * x.significand) x.scale with
    | .gt => some below
    | _ => some above
  | true, false => some below
  | false, true => some above
  | false, false => none

/-- Tries grids of one digit, two digits and so on; the last resort cuts the digits off. -/
def searchGrids (x : Double) (leading : Int) : Nat → Nat → Decimal
  | 0, digits => ⟨x.floorAt (leading - digits + 1), leading - digits + 1⟩
  | tries + 1, digits =>
    match x.neighbour? (leading - digits + 1) with
    | some d => d
    | none => searchGrids x leading tries (digits + 1)

/-- Drops zeros at the end; `fuel` bounds their number. -/
def stripZeros : Nat → Decimal → Decimal
  | 0, d => d
  | fuel + 1, d =>
    if d.digits ≠ 0 ∧ d.digits % 10 = 0 then stripZeros fuel ⟨d.digits / 10, d.exponent + 1⟩ else d

/-- Seventeen digits always suffice, so the search never runs out. Meant for finite doubles other
than zero, whatever the sign. -/
def shortest (x : Double) : Decimal :=
  stripZeros 17 (searchGrids x (decimalExponent x.numerator x.denominator) 17 1)

end ScriptBoundary.Double
