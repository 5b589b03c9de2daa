/-!
Handles name the objects of a host. A handle says nothing about ownership.
-/

namespace ScriptBoundary

structure Handle where
  number : Nat
deriving DecidableEq

namespace Handle

instance : Ord Handle := ⟨fun a b => compare a.number b.number⟩

def debug (h : Handle) : String :=
  "ObjectHandle(" ++ String.ofList (Nat.toDigits 10 h.number) ++ ")"

end Handle

end ScriptBoundary
