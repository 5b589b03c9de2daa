import ScriptBoundary.Double.Text
import ScriptBoundary.Text.Quoted

/-!
The values that look the same on both sides of the boundary, and the kinds of all values.
-/

namespace ScriptBoundary

inductive Kind where
  | string
  | int32
  | double
  | boolean
  | object
  | null
  | void
deriving DecidableEq

namespace Kind

/-- The kind's number at the boundary. -/
def code : Kind → Nat
  | .string => 0
  | .int32 => 1
  | .double => 2
  | .boolean => 3
  | .object => 4
  | .null => 5
  | .void => 6

def name : Kind → String
  | .string => "string"
  | .int32 => "int32"
  | .double => "double"
  | .boolean => "boolean"
  | .object => "object"
  | .null => "null"
  | .void => "void"

/-- The name in diagnostics. -/
def label : Kind → String
  | .string => "String"
  | .int32 => "Int32"
  | .double => "Double"
  | .boolean => "Boolean"
  | .object => "Object"
  | .null => "Null"
  | .void => "Void"

end Kind

/-- Void is the absence of a value, null an empty one. -/
inductive Scalar where
  | void
  | null
  | boolean (value : Bool)
  | int32 (value : Int32)
  | double (value : Double)
  | string (value : String)
deriving DecidableEq

namespace Scalar

def kind : Scalar → Kind
  | .void => .void
  | .null => .null
  | .boolean _ => .boolean
  | .int32 _ => .int32
  | .double _ => .double
  | .string _ => .string

/-- Equality of values; doubles are compared as numbers. -/
def equals : Scalar → Scalar → Bool
  | .double a, .double b => a.equals b
  | a, b => a = b

def int32Text (i : Int32) : String := String.ofList (Text.integerText i.toInt)

def booleanText (b : Bool) : String := if b then "true" else "false"

def display : Scalar → String
  | .void => "undefined"
  | .null => "null"
  | .boolean b => booleanText b
  | .int32 i => int32Text i
  | .double d => d.display
  | .string s => Text.quoted s

/-- The text between the parentheses of a diagnostic, for the kinds that carry a payload. -/
def payload? : Scalar → Option String
  | .void => none
  | .null => none
  | .boolean b => some (booleanText b)
  | .int32 i => some (int32Text i)
  | .double d => some d.debug
  | .string s => some (Text.quoted s)

/-- The kind, with the payload in parentheses. -/
def debug (s : Scalar) : String :=
  match s.payload? with
  | some text => s.kind.label ++ "(" ++ text ++ ")"
  | none => s.kind.label

end Scalar

end ScriptBoundary
