import ScriptBoundary.Double.Shortest
import ScriptBoundary.Text.Integer

/-!
Doubles as text. Both forms use the shortest digits that read back; the plain form is always
positional, the diagnostic form uses an exponent for very large and very small magnitudes and marks
an integral value with a decimal point.
-/

namespace ScriptBoundary.Double

def zeros (count : Nat) : List Char :=
  List.replicate count '0'

/-- The digits of a number below the point; `places` says how many stand before it. -/
def positional (digits : List Char) (places : Int) : List Char :=
  if places ≤ 0 then ['0', '.'] ++ zeros (-places).toNat ++ digits
  else if digits.length ≤ places then digits ++ zeros (places.toNat - digits.length)
  else digits.take places.toNat ++ '.' :: digits.drop places.toNat

/-- One digit before the point, and the power of ten. -/
def exponential (digits : List Char) (power : Int) : List Char :=
  let fraction := if digits.length ≤ 1 then [] else '.' :: digits.drop 1
  digits.take 1 ++ fraction ++ 'e' :: Text.integerText power

def withSign (x : Double) (magnitude : List Char) : String :=
  String.ofList (if x.isNegative then '-' :: magnitude else magnitude)

/-- Texts of the values that have no digits. -/
def special? (x : Double) : Option String :=
  if x.isNaN then some "NaN"
  else if x.isInfinite then some (if x.isNegative then "-inf" else "inf")
  else none

def digitsOf (d : Decimal) : List Char :=
  Nat.toDigits 10 d.digits

/-- How many digits of the decimal stand before its point. -/
def placesOf (d : Decimal) : Int :=
  d.exponent + (digitsOf d).length

/-- The plain form: `0.00001`, `-0`, `1000000000000000000000`. -/
def display (x : Double) : String :=
  match x.special? with
  | some text => text
  | none =>
    if x.isZero then x.withSign ['0']
    else x.withSign (positional (digitsOf x.shortest) (placesOf x.shortest))

/-- An exponent is shown below `10 ^ -4` and from `10 ^ 16` on. -/
def showsExponent (x : Double) : Bool :=
  !x.isZero && (x.magnitudeBits < 0x3f1a36e2eb1c432d || 0x4341c37937e08000 ≤ x.magnitudeBits)

/-- The diagnostic form: `1.0`, `5e-324`, `1.5e16`. -/
def debug (x : Double) : String :=
  match x.special? with
  | some text => text
  | none =>
    if x.isZero then x.withSign ['0', '.', '0']
    else
      let digits := digitsOf x.shortest
      let places := placesOf x.shortest
      if x.showsExponent then x.withSign (exponential digits (places - 1))
      else if digits.length ≤ places then x.withSign (positional digits places ++ ['.', '0'])
      else x.withSign (positional digits places)

end ScriptBoundary.Double
