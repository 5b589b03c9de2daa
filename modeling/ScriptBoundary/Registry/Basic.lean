import ScriptBoundary.Registry.LegacyVerb

/-!
The registry that the host sees: properties and methods, two tables that do not affect each other.
Once shutdown has begun neither changes any more. Code of methods is opaque here.
-/

namespace ScriptBoundary

inductive Method (μ : Type) where
  | legacy (verb : LegacyVerb)
  | code (body : μ)

structure Registry (μ : Type) where
  properties : Bag Value
  methods : Table Identifier (Method μ)
  /-- The bridge that the registry calls out through, by its number. -/
  bridge : Nat

namespace Registry

variable {μ : Type}

def empty (bridge : Nat) : Registry μ := ⟨.plain, .empty, bridge⟩

/-- Property identifiers, then method identifiers, each in key order. -/
def identifiers (r : Registry μ) : List Identifier := r.properties.identifiers ++ r.methods.keys

def setProperty (shutDown : Bool) (id : Identifier) (value : Value) (r : Registry μ) : Registry μ :=
  if shutDown then r else { r with properties := r.properties.set id value }

/-- Also says whether there was such a property. -/
def removeProperty (shutDown : Bool) (id : Identifier) (r : Registry μ) : Bool × Registry μ :=
  if shutDown then (false, r)
  else (r.properties.contains id, { r with properties := r.properties.remove id })

def setMethod (shutDown : Bool) (id : Identifier) (method : Method μ) (r : Registry μ) :
    Registry μ :=
  if shutDown then r else { r with methods := r.methods.insert id method }

/-- Also says whether there was such a method. -/
def removeMethod (shutDown : Bool) (id : Identifier) (r : Registry μ) : Bool × Registry μ :=
  if shutDown then (false, r)
  else (r.methods.contains id, { r with methods := r.methods.erase id })

end Registry

end ScriptBoundary
