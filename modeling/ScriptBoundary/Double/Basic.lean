/-!
Double-precision numbers as their 64 bits: a sign, eleven bits of exponent and fifty-two of
fraction. The bits are the number, so a payload of a NaN and the sign of a zero are never lost.
-/

namespace ScriptBoundary

structure Double where
  bits : UInt64
deriving DecidableEq

namespace Double

/-- The weight of the sign bit. -/
def signWeight : Nat := 0x8000000000000000

/-- The weight of the least bit of the exponent, one more than the greatest fraction. -/
def exponentWeight : Nat := 0x10000000000000

def isNegative (x : Double) : Bool :=
  signWeight ≤ x.bits.toNat

/-- The bits without the sign; they order the magnitudes. -/
def magnitudeBits (x : Double) : Nat :=
  x.bits.toNat % signWeight

def exponentField (x : Double) : Nat :=
  x.magnitudeBits / exponentWeight

def fractionField (x : Double) : Nat :=
  x.magnitudeBits % exponentWeight

def infinityBits : Nat := 0x7ff0000000000000

def isNaN (x : Double) : Bool :=
  infinityBits < x.magnitudeBits

def isInfinite (x : Double) : Bool :=
  x.magnitudeBits == infinityBits

def isZero (x : Double) : Bool :=
  x.magnitudeBits == 0

/-- A finite magnitude is `significand * 2 ^ scale`. -/
def significand (x : Double) : Nat :=
  if x.exponentField = 0 then x.fractionField else exponentWeight + x.fractionField

def scale (x : Double) : Int :=
  if x.exponentField = 0 then -1074 else x.exponentField - 1075

def ofSigned (negative : Bool) (magnitudeBits : Nat) : Double :=
  ⟨UInt64.ofNat (if negative then signWeight + magnitudeBits else magnitudeBits)⟩

def zero : Double := ⟨0⟩

/-- The quiet NaN without a payload. -/
def quietNaN : Double := ⟨0x7ff8000000000000⟩

/-- Numeric equality: a NaN equals nothing, and the two zeros are equal. -/
def equals (x y : Double) : Bool :=
  !x.isNaN && !y.isNaN && (x.bits == y.bits || (x.isZero && y.isZero))

end Double

end ScriptBoundary
