import ScriptBoundary.Handle
import ScriptBoundary.Value.Scalar

/-!
Values in host form: scalars and handles of host objects. Copying one neither takes nor gives back
a reference; who owns it decides.
-/

namespace ScriptBoundary

inductive Raw where
  | scalar (s : Scalar)
  | object (h : Handle)
deriving DecidableEq

namespace Raw

@[match_pattern] abbrev void : Raw := .scalar .void
@[match_pattern] abbrev null : Raw := .scalar .null
@[match_pattern] abbrev boolean (b : Bool) : Raw := .scalar (.boolean b)
@[match_pattern] abbrev int32 (i : Int32) : Raw := .scalar (.int32 i)
@[match_pattern] abbrev double (d : Double) : Raw := .scalar (.double d)
@[match_pattern] abbrev string (s : String) : Raw := .scalar (.string s)

instance : Inhabited Raw := ⟨void⟩

def kind : Raw → Kind
  | .scalar s => s.kind
  | .object _ => .object

def handle? : Raw → Option Handle
  | .scalar _ => none
  | .object h => some h

/-- The references an owner of the value holds. -/
def handles (raw : Raw) : List Handle := raw.handle?.toList

/-- Objects are equal if they are the same object. -/
def equals : Raw → Raw → Bool
  | .scalar s, .scalar t => s.equals t
  | .object h, .object h' => h = h'
  | _, _ => false

def debug : Raw → String
  | .scalar s => s.debug
  | .object h => Kind.object.label ++ "(" ++ h.debug ++ ")"

/-- The diagnostic form of a value that owns its reference. -/
def debugOwned : Raw → String
  | .scalar s => s.debug
  | .object h =>
    Kind.object.label ++ "(NativeObject(" ++ String.ofList (Text.naturalText h.number) ++ "))"

end Raw

end ScriptBoundary
