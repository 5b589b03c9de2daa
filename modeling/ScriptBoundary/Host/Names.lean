import ScriptBoundary.Identifier
import ScriptBoundary.Table

/-!
Host identifiers: positions in the table of interned names, or words that carry an integer in their
low 32 bits.
-/

namespace ScriptBoundary

/-- A host identifier is a 64-bit number. Its greatest bit tells interned names from words. -/
inductive HostId where
  | word (bits : Nat)
  | name (position : Nat)
deriving DecidableEq

namespace HostId

/-- The number of the first interned name. -/
def firstName : Nat := 0x8000000000000000

/-- The identifier as one 64-bit number. -/
def number : HostId → Nat
  | .word bits => bits
  | .name position => firstName + position

def ofNumber (n : Nat) : HostId :=
  if n < firstName then .word n else .name (n - firstName)

/-- In the order of the numbers: words before names. -/
instance : Ord HostId where
  compare
    | .word a, .word b => compare a b
    | .word _, .name _ => .lt
    | .name _, .word _ => .gt
    | .name a, .name b => compare a b

def isName : HostId → Bool
  | .name _ => true
  | .word _ => false

/-- An integer is stored as its 32-bit two's complement. -/
def ofInt32 (i : Int32) : HostId := .word i.toUInt32.toNat

/-- The low 32 bits of a word; zero for a name. -/
def toInt32 : HostId → Int32
  | .word bits => .ofNat bits
  | .name _ => 0

/-- A non-negative integer addresses an array element. -/
def elementIndex? (id : HostId) : Option Nat :=
  if id.isName then none
  else if 0 ≤ id.toInt32.toInt then some id.toInt32.toInt.toNat
  else none

/-- The identifiers of the elements of an array. Their number counts as a 32-bit integer: if that is
negative there are none. -/
def indices (size : Nat) : List HostId :=
  (List.range (Int32.ofNat size).toInt.toNat).map fun i => .ofInt32 (.ofNat i)

end HostId

/-- The text of a host identifier in a list of names. -/
def textAt? (texts : List String) : HostId → Option String
  | .name position => texts[position]?
  | .word _ => none

theorem textAt?_concat {texts : List String} {added text : String} {id : HostId} :
    textAt? (texts ++ [added]) id = some text ↔
      textAt? texts id = some text ∨ id = .name texts.length ∧ text = added := by
  cases id with
  | word bits => simp [textAt?]
  | name position =>
    simp only [textAt?, HostId.name.injEq]
    rcases Nat.lt_trichotomy position texts.length with inside | rfl | outside
    · simp [List.getElem?_append_left inside, Nat.ne_of_lt inside]
    · simp [eq_comm]
    · have beyond : (texts ++ [added]).length ≤ position := by
        rw [List.length_append]
        exact outside
      simp [List.getElem?_eq_none beyond, List.getElem?_eq_none (Nat.le_of_lt outside),
        Nat.ne_of_gt outside]

/-- The interned names, and an index by which they are found. A name's position never changes. -/
structure Names where
  texts : List String
  ids : Table String HostId
  inverse : ∀ text id, ids.find? text = some id ↔ textAt? texts id = some text

namespace Names

def empty : Names where
  texts := []
  ids := .empty
  inverse text id := by cases id <;> simp [Table.find?, Table.lookup, Table.empty, textAt?]

/-- A new name comes last. -/
def add (names : Names) (text : String) (new : names.ids.find? text = none) : Names where
  texts := names.texts ++ [text]
  ids := names.ids.insert text (.name names.texts.length)
  inverse text' id := by
    rw [Table.find?_insert, textAt?_concat, ← names.inverse]
    by_cases same : text' = text
    · simp [same, new, eq_comm]
    · simp [same]

/-- The identifier of a name, which is added if it is new. -/
def intern (names : Names) (text : String) : HostId × Names :=
  match new : names.ids.find? text with
  | some id => (id, names)
  | none => (.name names.texts.length, names.add text new)

/-- The text of an interned name. -/
def text? (names : Names) (id : HostId) : Option String := textAt? names.texts id

/-- The identifier of a property name: integer text denotes the integer and is not interned. -/
def key (names : Names) (text : String) : HostId × Names :=
  match Identifier.ofText text with
  | .index i => (.ofInt32 i, names)
  | .name text => names.intern text

/-- The engine identifier of a host identifier. An unknown name reads as the empty name. -/
def identifier (names : Names) (id : HostId) : Identifier :=
  if id.isName then .name ((names.text? id).getD "") else .index id.toInt32

/-- The host identifier of an engine identifier; a name is interned as it is. -/
def ofIdentifier (names : Names) : Identifier → HostId × Names
  | .name text => names.intern text
  | .index i => (.ofInt32 i, names)

end Names

end ScriptBoundary
