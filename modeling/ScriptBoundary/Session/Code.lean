import ScriptBoundary.Host.Raw
import ScriptBoundary.Value.Basic

/-!
Small languages for the code on both sides of the boundary: what a host function does, and what an
engine method does. Constants in the code are a parameter, so that they can be written down before
the objects they mean exist.
-/

namespace ScriptBoundary.Session

/-- Code of a host function. -/
inductive Routine (κ : Type) where
  /-- Answers nothing. -/
  | fail
  | panic (text : String)
  | const (value : κ)
  /-- The number of arguments. -/
  | count
  /-- The first argument. -/
  | echo
  /-- The diagnostic text of the arguments. -/
  | describe
  /-- A new array of the arguments. -/
  | collect
  /-- Reads a property of the first argument. Its name becomes known to the host in any case. -/
  | read (property : String)
  /-- Writes the second argument to a property of the first. The name becomes known to the host in
  any case, and a host that refuses writes across the boundary does not refuse those of its own code. -/
  | write (property : String)
  /-- The number of pending calls. -/
  | pending
  /-- Begins shutdown of the session's bridge, then counts the arguments. -/
  | destroy
  /-- Passes the arguments on to an outbound call. -/
  | call (name : String)
  /-- Calls `name` with one less, down to zero, and counts the calls. -/
  | countdown (name : String)
  /-- Calls a method of the session's gateway. -/
  | gateway (method : String)
  /-- Is held at the gate, then fails or answers the first argument. -/
  | gated (fails : Bool)
  /-- Prints the diagnostic text of the arguments. -/
  | alert
  /-- The sum of the numbers among the arguments. -/
  | add

def Routine.map {κ κ' : Type} (f : κ → κ') : Routine κ → Routine κ'
  | .fail => .fail
  | .panic text => .panic text
  | .const value => .const (f value)
  | .count => .count
  | .echo => .echo
  | .describe => .describe
  | .collect => .collect
  | .read property => .read property
  | .write property => .write property
  | .pending => .pending
  | .destroy => .destroy
  | .call name => .call name
  | .countdown name => .countdown name
  | .gateway method => .gateway method
  | .gated fails => .gated fails
  | .alert => .alert
  | .add => .add

/-- Code of an engine method. -/
inductive Action (κ : Type) where
  | done
  | unhandled
  | const (value : κ)
  | result (handled : Bool) (value : Option κ)
  /-- The first argument. -/
  | echo (handled : Bool)
  /-- The number of arguments. -/
  | count
  /-- The expression of the identifier the method was called by. -/
  | expression
  /-- A new array of the arguments. -/
  | list
  /-- The text of the arguments. -/
  | display
  /-- The property that the first argument names. -/
  | property
  /-- The identifiers of the registry. -/
  | identifiers
  /-- Calls the method that the first argument names with the other arguments. -/
  | delegate
  /-- Calls out to what the first argument names with the other arguments. -/
  | relay
  /-- Raises the first argument as a script exception. -/
  | raise
  | destroy
  | panic (text : String)

/-- The constants in the code of a method. -/
def Action.constants {κ : Type} : Action κ → List κ
  | .const value => [value]
  | .result _ value => value.toList
  | _ => []

def Action.mapM {m : Type → Type} [Monad m] {κ κ' : Type} (f : κ → m κ') : Action κ → m (Action κ')
  | .done => return .done
  | .unhandled => return .unhandled
  | .const value => return .const (← f value)
  | .result handled none => return .result handled none
  | .result handled (some value) => return .result handled (some (← f value))
  | .echo handled => return .echo handled
  | .count => return .count
  | .expression => return .expression
  | .list => return .list
  | .display => return .display
  | .property => return .property
  | .identifiers => return .identifiers
  | .delegate => return .delegate
  | .relay => return .relay
  | .raise => return .raise
  | .destroy => return .destroy
  | .panic text => return .panic text

end ScriptBoundary.Session
