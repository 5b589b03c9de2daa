import ScriptBoundary.Value.Bag
import ScriptBoundary.Value.Scalar

/-!
Engine values: scalars and property bags of values. A bag that is backed holds one reference to its
host object, so copying a value takes a reference for every backing in it and discarding the value
gives them back.
-/

namespace ScriptBoundary

inductive Value where
  | scalar (s : Scalar)
  | object (bag : Bag Value)

namespace Value

@[match_pattern] abbrev void : Value := .scalar .void
@[match_pattern] abbrev null : Value := .scalar .null
@[match_pattern] abbrev boolean (b : Bool) : Value := .scalar (.boolean b)
@[match_pattern] abbrev int32 (i : Int32) : Value := .scalar (.int32 i)
@[match_pattern] abbrev double (d : Double) : Value := .scalar (.double d)
@[match_pattern] abbrev string (s : String) : Value := .scalar (.string s)

instance : Inhabited Value := ⟨void⟩

def kind : Value → Kind
  | .scalar s => s.kind
  | .object _ => .object

/-! Reading a value as another kind gives the zero of that kind. -/

def asString : Value → String
  | string s => s
  | _ => ""

def asInt32 : Value → Int32
  | int32 i => i
  | _ => 0

def asDouble : Value → Double
  | double d => d
  | _ => .zero

def asBoolean : Value → Bool
  | boolean b => b
  | _ => false

def asBag? : Value → Option (Bag Value)
  | .object bag => some bag
  | .scalar _ => none

/-- The host object the value stands for. -/
def backing? : Value → Option Handle
  | .object bag => bag.backing
  | .scalar _ => none

/-! The references held by a value, one per backed bag: those inside a bag, then its own. -/

mutual

def handles : Value → List Handle
  | .scalar _ => []
  | .object ⟨_, ⟨entries⟩, backing⟩ => entriesHandles entries ++ backing.toList

def entriesHandles : List (Identifier × Value) → List Handle
  | [] => []
  | (_, v) :: rest => handles v ++ entriesHandles rest

end

/-! Equality of contents: shapes, keys and values. Backings do not count. -/

mutual

def equals : Value → Value → Bool
  | .scalar s, w =>
    match w with
    | .scalar t => s.equals t
    | .object _ => false
  | .object ⟨shape, ⟨entries⟩, _⟩, w =>
    match w with
    | .scalar _ => false
    | .object other => shape = other.shape && entriesEqual entries other.props.entries

def entriesEqual : List (Identifier × Value) → List (Identifier × Value) → Bool
  | [], others => others.isEmpty
  | (id, v) :: rest, others =>
    match others with
    | [] => false
    | (id', v') :: rest' => id = id' && equals v v' && entriesEqual rest rest'

end

end Value

namespace Bag

def handles (b : Bag Value) : List Handle := (Value.object b).handles

def equals (a b : Bag Value) : Bool := (Value.object a).equals (.object b)

/-- The references given up when a property is written: the backing, then the old value's. -/
def lostBySet (b : Bag Value) (id : Identifier) : List Handle :=
  b.backing.toList ++ (b.find? id).elim [] Value.handles

/-- The references given up when a property is removed. -/
def lostByRemove (b : Bag Value) (id : Identifier) : List Handle :=
  match b.find? id with
  | some v => v.handles ++ b.backing.toList
  | none => []

end Bag

end ScriptBoundary
