import ScriptBoundary.Value.Basic

/-!
Outcomes of calls from the host into the engine.
-/

namespace ScriptBoundary

structure CallResult where
  /-- The method took charge of the call. -/
  handled : Bool
  value : Option Value

namespace CallResult

/-- Handled, with a value for the host. -/
def returning (value : Value) : CallResult := ⟨true, some value⟩

/-- Handled, without a value. -/
def done : CallResult := ⟨true, none⟩

def unhandled : CallResult := ⟨false, none⟩

def handles (result : CallResult) : List Handle := result.value.elim [] Value.handles

end CallResult

end ScriptBoundary
