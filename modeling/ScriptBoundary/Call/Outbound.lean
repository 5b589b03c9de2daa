import ScriptBoundary.Call.Resolution
import ScriptBoundary.Marshal.Read
import ScriptBoundary.Marshal.Write

/-!
Calls from the engine into the host. A call made on the host thread runs in line; a call made
elsewhere is dispatched to the host thread, and its caller waits for the latch. Whatever becomes of
a call, its end signals the latch.
-/

namespace ScriptBoundary

variable {ρ μ : Type}

namespace OutboundCall

def handles (c : OutboundCall) : List Handle := c.args.flatMap Value.handles

/-- Publishes a result. If the caller no longer waits for it, the result is discarded. -/
def deliver (c : OutboundCall) (result : Option Value) : WorldM ρ μ Unit := do
  let accepted ← WorldM.onBridge c.bridge (Bridge.deliver c.number result)
  if !accepted then WorldM.releaseAll (result.elim [] Value.handles)

/-- The end of every call: a caller that still waits gets no result, and the arguments go. -/
def finish (c : OutboundCall) : WorldM ρ μ Unit := do
  c.deliver none
  WorldM.releaseAll c.handles

variable (β : Behaviour ρ μ)

/-- Writes the arguments, resolves the call and reads its result. -/
def execute (c : OutboundCall) : Run ρ μ (Except ResolveError Value) :=
  Marshal.withWritten β (fun args => do
    let id ← Run.onHost (Host.idOf c.id)
    match ← resolve β id c.id.expression args with
    | .error e => return .error e
    | .ok raw =>
      let value ← Run.onHost (Marshal.read raw)
      Run.releaseAll raw.handles
      return .ok value) c.args

/-- The script exception raised for a failed call. -/
def failureText (c : OutboundCall) (e : ResolveError) : String :=
  "call to " ++ c.id.display ++ " failed: " ++ e.message

/-- Executes a call and signals its outcome. One cancelled before it starts does not enter the
host. -/
def attempt (c : OutboundCall) : Run ρ μ Unit := do
  let bridge := (← get).bridge c.bridge
  if bridge.isCancelled c.number then return
  match ← execute β c with
  | .ok value => Run.always (c.deliver (some value))
  | .error e =>
    if bridge.marshalsExceptions then Run.onHost (Host.raise (c.failureText e))
    Run.always (c.deliver none)

/-- Runs a call on the host thread, to its end even if host code panics. -/
def perform (c : OutboundCall) : Run ρ μ Unit := (attempt β c).ensuring c.finish

end OutboundCall

namespace WorldM

/-- Registers a call, which owns copies of its arguments; `none` once shutdown has begun. -/
def request (bridge : Nat) (id : Identifier) (args : List Value) :
    WorldM ρ μ (Option OutboundCall) := do
  match ← onBridge bridge Bridge.register with
  | none => return none
  | some number =>
    let call : OutboundCall := ⟨bridge, number, id, args⟩
    retainAll call.handles
    return some call

def collect (call : OutboundCall) : WorldM ρ μ (Option Value) :=
  onBridge call.bridge (Bridge.collect call.number)

/-- Hands a call to the host thread. A dead thread, or a host that drops tasks, ends it unrun. -/
def dispatch (call : OutboundCall) : WorldM ρ μ Unit := do
  let w ← get
  if w.hostGone || w.host.failures.dropsTasks then call.finish
  else set { w with queue := w.queue ++ [call] }

def finishAll : List OutboundCall → WorldM ρ μ Unit
  | [] => return
  | call :: rest => do
    call.finish
    finishAll rest

/-- The host thread works through its queue. A panic kills it, and what is left ends unrun. -/
def runAll (β : Behaviour ρ μ) : List OutboundCall → WorldM ρ μ Unit
  | [] => return
  | call :: rest => do
    match ← (call.perform β).run with
    | .ok () => runAll β rest
    | .error _ =>
      modify fun w => { w with hostGone := true }
      finishAll rest

def drain (β : Behaviour ρ μ) : WorldM ρ μ Unit := do
  let calls := (← get).queue
  modify fun w => { w with queue := [] }
  runAll β calls

/-- A call from an engine thread, up to its end. -/
def callFromWorker (β : Behaviour ρ μ) (bridge : Nat) (id : Identifier) (args : List Value) :
    WorldM ρ μ (Option Value) := do
  match ← request bridge id args with
  | none => return none
  | some call =>
    dispatch call
    drain β
    collect call

def destroyBridge (bridge : Nat) : WorldM ρ μ Unit := onBridge bridge fun b => ((), b.destroy)

end WorldM

/-- A call made on the host thread. If it panics, nobody collects its result. -/
def Run.callInline (β : Behaviour ρ μ) (bridge : Nat) (id : Identifier) (args : List Value) :
    Run ρ μ (Option Value) := do
  match ← Run.always (WorldM.request bridge id args) with
  | none => return none
  | some call =>
    call.perform β
    Run.always (WorldM.collect call)

end ScriptBoundary
