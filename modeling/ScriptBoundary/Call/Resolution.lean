import ScriptBoundary.Invocation

/-!
How an outbound call finds what it means: a method of the global object; else what the script text
evaluates to, called as a function; else that object itself.
-/

namespace ScriptBoundary

variable {ρ μ : Type}

inductive ResolveError where
  | noGlobalObject
  | evaluate (script : String)
  | notAnObject (script : String) (kind : Kind)
  | cancelled
deriving DecidableEq

/-- Callers cannot tell the categories apart; diagnostics can. -/
inductive FailureCategory where
  | hostCallFailure
  | shutdownCancellation
deriving DecidableEq

namespace ResolveError

def category : ResolveError → FailureCategory
  | .cancelled => .shutdownCancellation
  | _ => .hostCallFailure

def message : ResolveError → String
  | .noGlobalObject => "host has no global object"
  | .evaluate script => "evaluating " ++ script ++ " failed"
  | .notAnObject script kind => script ++ " evaluated to " ++ kind.label ++ ", not an object"
  | .cancelled => "call cancelled by shutdown"

end ResolveError

/-- Calls an evaluated object, which is given back; one that cannot be called is the result. -/
def callEvaluated (β : Behaviour ρ μ) (target : Handle) (args : List Raw) : Run ρ μ Raw := do
  match ← Run.guarding [target] (Run.invokeDefault β target args) with
  | some raw =>
    Run.releaseAll [target]
    return raw
  | none => return .object target

/-- The caller owns the reference in the result. -/
def resolve (β : Behaviour ρ μ) (id : HostId) (script : String) (args : List Raw) :
    Run ρ μ (Except ResolveError Raw) := do
  match ← Run.onHost Host.globalObject with
  | none => return .error .noGlobalObject
  | some global =>
    Run.holding [global] do
      match ← Run.invoke β global id args with
      | some raw => return .ok raw
      | none =>
        match ← Run.onHost (Host.evaluate global script) with
        | none => return .error (.evaluate script)
        | some (.scalar s) => return .error (.notAnObject script s.kind)
        | some (.object target) => return .ok (← callEvaluated β target args)

end ScriptBoundary
