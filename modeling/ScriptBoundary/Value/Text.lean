import ScriptBoundary.Value.Basic

/-!
Values as text: the form shown to users, and the diagnostic form that names every kind. Users are
shown copies of the elements of an array, so the objects behind them see references come and go.
-/

namespace ScriptBoundary

def Shape.label : Shape → String
  | .plain => "Plain"
  | .array => "Array"

def Identifier.debug : Identifier → String
  | .name text => "String(" ++ Text.quoted text ++ ")"
  | .index number => "Int32(" ++ Scalar.int32Text number ++ ")"

namespace Bag

def joined (texts : List String) : String := ", ".intercalate texts

/-- A bag whose values are already text: the elements of an array in brackets, or the properties of
a plain object in braces. -/
def displayTexts (b : Bag String) : String :=
  match b.shape with
  | .array => "[" ++ joined (b.elements (Scalar.display .void)) ++ "]"
  | .plain =>
    "\x7b" ++ joined (b.props.entries.map fun e => e.1.display ++ ": " ++ e.2) ++ "\x7d"

/-- Diagnostics show every property, also of an array, and the backing if there is one. -/
def debugTexts (b : Bag String) : String :=
  let properties := joined (b.props.entries.map fun e => e.1.debug ++ ": " ++ e.2)
  "PropertyBag \x7b kind: " ++ b.shape.label ++ ", properties: \x7b" ++ properties ++ "\x7d" ++
    b.backing.elim "" (fun h => ", native: " ++ h.debug) ++ " \x7d"

end Bag

namespace Value

mutual

def display : Value → String
  | .scalar s => s.display
  | .object ⟨shape, ⟨entries⟩, backing⟩ => Bag.displayTexts ⟨shape, ⟨displayEntries entries⟩, backing⟩

def displayEntries : List (Identifier × Value) → List (Identifier × String)
  | [] => []
  | (id, v) :: rest => (id, display v) :: displayEntries rest

end

/-! The references that are copied to show a value: those of every element of an array, and what it
takes to show the copy. -/

mutual

def copiedByDisplay : Value → List Handle
  | .scalar _ => []
  | .object ⟨.array, ⟨entries⟩, backing⟩ =>
    (Bag.elements ⟨.array, ⟨copiedElements entries⟩, backing⟩ []).flatten
  | .object ⟨.plain, ⟨entries⟩, _⟩ => copiedInside entries

def copiedElements : List (Identifier × Value) → List (Identifier × List Handle)
  | [] => []
  | (id, v) :: rest => (id, handles v ++ copiedByDisplay v) :: copiedElements rest

def copiedInside : List (Identifier × Value) → List Handle
  | [] => []
  | (_, v) :: rest => copiedByDisplay v ++ copiedInside rest

end

mutual

def debug : Value → String
  | .scalar s => s.debug
  | .object ⟨shape, ⟨entries⟩, backing⟩ =>
    Kind.object.label ++ "(" ++ Bag.debugTexts ⟨shape, ⟨debugEntries entries⟩, backing⟩ ++ ")"

def debugEntries : List (Identifier × Value) → List (Identifier × String)
  | [] => []
  | (id, v) :: rest => (id, debug v) :: debugEntries rest

end

end Value

namespace Bag

def display (b : Bag Value) : String := (Value.object b).display

def debug (b : Bag Value) : String :=
  debugTexts ⟨b.shape, ⟨Value.debugEntries b.props.entries⟩, b.backing⟩

end Bag

end ScriptBoundary
