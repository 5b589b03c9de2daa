import ScriptBoundary.Text.Integer

/-!
Keys of properties and methods: a name or an integer. Text that reads as a 32-bit integer denotes
the integer, so `"3"` and `3` are one key wherever text is turned into an identifier.
-/

namespace ScriptBoundary

inductive Identifier where
  | name (text : String)
  | index (number : Int32)
deriving DecidableEq

namespace Identifier

def ofText (text : String) : Identifier :=
  match Text.readInt32 text.toList with
  | some number => .index number
  | none => .name text

/-- The identifier of a text that is handed over: a name takes the text over and does not copy it. -/
def ofOwnedText (text : String) : Identifier :=
  match Text.readInt32 text.toList with
  | some number => .index number
  | none => .name text

inductive Kind where
  | string
  | int32
deriving DecidableEq

def kind : Identifier → Kind
  | .name _ => .string
  | .index _ => .int32

def isName (id : Identifier) : Bool := id.kind = .string

/-- The name, empty for an integer. -/
def text : Identifier → String
  | .name text => text
  | .index _ => ""

/-- The integer, zero for a name. -/
def number : Identifier → Int32
  | .name _ => 0
  | .index number => number

def display : Identifier → String
  | .name text => text
  | .index number => String.ofList (Text.integerText number.toInt)

/-- Script text that evaluates the identifier. -/
def expression (id : Identifier) : String := "(" ++ id.display ++ ")"

/-- Names come before integers; names are ordered by code point, integers by value. -/
instance : Ord Identifier where
  compare
    | .name a, .name b => compare a b
    | .name _, .index _ => .lt
    | .index _, .name _ => .gt
    | .index a, .index b => compare a.toInt b.toInt

end Identifier

end ScriptBoundary
