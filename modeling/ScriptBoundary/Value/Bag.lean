import ScriptBoundary.Handle
import ScriptBoundary.Identifier
import ScriptBoundary.Table

/-!
Property bags: sorted properties, a shape fixed at construction, and the host object the bag was
read from while its contents still match it. Any change drops that backing.
-/

namespace ScriptBoundary

inductive Shape where
  | plain
  | array
deriving DecidableEq

structure Bag (ν : Type) where
  shape : Shape
  props : Table Identifier ν
  backing : Option Handle

namespace Bag

variable {ν : Type}

def ofShape (shape : Shape) : Bag ν := ⟨shape, .empty, none⟩

def plain : Bag ν := ofShape .plain

def isArray (b : Bag ν) : Bool := b.shape = .array

/-- An array with the given elements, indexed from zero. -/
def ofElements (elements : List ν) : Bag ν :=
  ⟨.array, .ofList (elements.zipIdx.map fun e => (.index (.ofNat e.2), e.1)), none⟩

def backedBy (b : Bag ν) (h : Handle) : Bag ν := { b with backing := some h }

def size (b : Bag ν) : Nat := b.props.size

def identifiers (b : Bag ν) : List Identifier := b.props.keys

def find? (b : Bag ν) (id : Identifier) : Option ν := b.props.find? id

def contains (b : Bag ν) (id : Identifier) : Bool := b.props.contains id

def set (b : Bag ν) (id : Identifier) (v : ν) : Bag ν :=
  { b with props := b.props.insert id v, backing := none }

/-- Removing an absent property changes nothing, so it keeps the backing. -/
def remove (b : Bag ν) (id : Identifier) : Bag ν :=
  if b.contains id then { b with props := b.props.erase id, backing := none } else b

/-- One past the greatest integer key, if that is not negative. Integer keys sort after names, so
the last key is the greatest of them. -/
def arrayLength (b : Bag ν) : Nat :=
  match b.props.lastKey? with
  | some (.index i) => if 0 ≤ i.toInt then i.toInt.toNat + 1 else 0
  | _ => 0

/-- The length as a 32-bit index. A length of 2147483648 does not fit and wraps. -/
def nextIndex (b : Bag ν) : Int32 := .ofNat b.arrayLength

def push (b : Bag ν) (v : ν) : Bag ν := b.set (.index b.nextIndex) v

/-- The values at the indices from `next` on, up to the last of them, holes filled. -/
def fill (hole : ν) (next : Nat) : List (Identifier × ν) → List ν
  | [] => []
  | (.index i, v) :: rest =>
    if i.toInt < 0 then fill hole next rest
    else List.replicate (i.toInt.toNat - next) hole ++ v :: fill hole (i.toInt.toNat + 1) rest
  | (.name _, _) :: rest => fill hole next rest

/-- The elements below the next index, holes filled. -/
def elements (b : Bag ν) (hole : ν) : List ν :=
  if b.nextIndex.toInt ≤ 0 then [] else fill hole 0 b.props.entries

end Bag

end ScriptBoundary
