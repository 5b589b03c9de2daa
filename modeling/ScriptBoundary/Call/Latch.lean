import ScriptBoundary.Value.Basic

/-!
The latch of an outbound call. It leaves `pending` once, by a result or by cancellation, and its
result can be taken once.
-/

namespace ScriptBoundary

inductive Latch where
  | pending
  | done (result : Option Value)
  | cancelled
  /-- The result has been handed to the caller. -/
  | taken

namespace Latch

def isPending : Latch → Bool
  | .pending => true
  | _ => false

def isCancelled : Latch → Bool
  | .cancelled => true
  | _ => false

/-- Publishes a result, unless the latch has already left `pending`; says whether it did. -/
def complete (result : Option Value) : Latch → Bool × Latch
  | .pending => (true, .done result)
  | latch => (false, latch)

/-- Cancels the call, unless the latch has already left `pending`; says whether it did. -/
def cancel : Latch → Bool × Latch
  | .pending => (true, .cancelled)
  | latch => (false, latch)

/-- Takes the result. Before a result is there, after it is gone and after a cancellation there is
nothing to take, and the latch stays as it is. -/
def take : Latch → Option Value × Latch
  | .done result => (result, .taken)
  | latch => (none, latch)

/-- A waiting caller is woken. -/
def isSignalled (latch : Latch) : Bool := !latch.isPending

end Latch

end ScriptBoundary
