/-!
Integers as text: an optional sign and one or more ASCII digits. Leading zeros are allowed, and a
value outside the 32-bit range is not an integer.
-/

namespace ScriptBoundary.Text

def digit? (c : Char) : Option Nat :=
  if 48 ≤ c.toNat && c.toNat ≤ 57 then some (c.toNat - 48) else none

/-- The value of a run of digits appended to the digits read so far. -/
def readDigits (value : Nat) : List Char → Option Nat
  | [] => some value
  | c :: rest => (digit? c).bind fun d => readDigits (value * 10 + d) rest

/-- One or more digits and nothing else. -/
def readNatural : List Char → Option Nat
  | [] => none
  | c :: rest => readDigits 0 (c :: rest)

/-- Reads any magnitude; the sign is at most one character. -/
def readInteger : List Char → Option Int
  | '-' :: digits => (readNatural digits).map fun n => -(n : Int)
  | '+' :: digits => (readNatural digits).map fun n => (n : Int)
  | digits => (readNatural digits).map fun n => (n : Int)

/-- The integers that fit 32 bits, sign included. -/
def inInt32 (i : Int) : Bool :=
  -2147483648 ≤ i && i ≤ 2147483647

def readInt32 (text : List Char) : Option Int32 :=
  match readInteger text with
  | some i => if inInt32 i then some (Int32.ofInt i) else none
  | none => none

/-- The digits of a natural number, most significant first, without leading zeros. -/
def naturalText (n : Nat) : List Char :=
  Nat.toDigits 10 n

/-- A minus sign for negative numbers, and no plus sign. -/
def integerText : Int → List Char
  | .ofNat n => naturalText n
  | .negSucc n => '-' :: naturalText (n + 1)

end ScriptBoundary.Text
