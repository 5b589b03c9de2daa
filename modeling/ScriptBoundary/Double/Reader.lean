import ScriptBoundary.Double.Rounding
import ScriptBoundary.Text.Integer

/-!
Reading a double: an optional sign, then a word for infinity or NaN in any case, or digits with an
optional point and an optional power of ten. Some digit must stand before or after the point, and
the power needs a digit of its own.
-/

namespace ScriptBoundary.Double

open Text (digit? readNatural)

/-- The leading ASCII digits and what follows them. -/
def spanDigits (text : List Char) : List Char × List Char :=
  text.span fun c => (digit? c).isSome

/-- The power of ten after an `e`, its sign included; an absent power is zero. -/
def readPower : List Char → Option Int
  | [] => some 0
  | c :: rest =>
    if c = 'e' || c = 'E' then
      match rest with
      | '-' :: digits => (readNatural digits).map fun n => -(n : Int)
      | '+' :: digits => (readNatural digits).map fun n => (n : Int)
      | digits => (readNatural digits).map fun n => (n : Int)
    else none

/-- The double nearest to `digits * 10 ^ power`. Beyond the range of doubles the outcome is zero or
infinity whatever the digits, so no huge power is ever computed. -/
def ofDecimal (negative : Bool) (digits : List Char) (power : Int) : Double :=
  let value := (readNatural digits).getD 0
  if value = 0 then ofSigned negative 0
  else
    let places := power + (Nat.toDigits 10 value).length
    if places < -400 then ofSigned negative 0
    else if 400 < places then ofSigned negative infinityBits
    else ofRatio negative (value * Nat.pow 10 power.toNat) (Nat.pow 10 (-power).toNat)

/-- Digits around a point, then a power. -/
def readUnsignedDecimal (negative : Bool) (text : List Char) : Option Double :=
  let (whole, afterWhole) := spanDigits text
  let (fraction, afterFraction) :=
    match afterWhole with
    | '.' :: rest => spanDigits rest
    | _ => ([], afterWhole)
  if whole.isEmpty && fraction.isEmpty then none
  else (readPower afterFraction).map fun power =>
    ofDecimal negative (whole ++ fraction) (power - fraction.length)

def readUnsigned (negative : Bool) (text : List Char) : Option Double :=
  let word := String.ofList (text.map Char.toLower)
  if word = "inf" || word = "infinity" then some (ofSigned negative infinityBits)
  else if word = "nan" then some (ofSigned negative quietNaN.magnitudeBits)
  else readUnsignedDecimal negative text

def read? : List Char → Option Double
  | '-' :: text => readUnsigned true text
  | '+' :: text => readUnsigned false text
  | text => readUnsigned false text

end ScriptBoundary.Double
