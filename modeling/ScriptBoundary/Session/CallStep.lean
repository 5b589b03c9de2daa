import ScriptBoundary.Session.ValueStep

/-!
Steps that call out from the engine into the host.
-/

namespace ScriptBoundary.Session

inductive CallStep where
  /-- The resolution chain on its own. -/
  | resolve (id : IdLiteral) (script : String) (args : List RawLiteral)
      (saveAs handleAs : Option String)
  /-- A call from the host thread or from a thread of the engine. -/
  | call (onHostThread : Bool) (id : Identifier) (args : List ValueLiteral)
      (saveAs : Option String)
  | pending
  | shutDown
  /-- Whether the user of the session is on the host thread. -/
  | onHostThread
  | destroy
  /-- Callers that wait together while the first of their calls is held at the gate, where every call
  may fail. -/
  | blocked (callers : Nat) (interruption : Option Interruption) (fails : Bool)

namespace CallStep

def resolveErrorName : ResolveError → String
  | .noGlobalObject => "NoGlobalObject"
  | .evaluate _ => "Evaluate"
  | .notAnObject _ _ => "NotAnObject"
  | .cancelled => "Cancelled"

def categoryName : FailureCategory → String
  | .hostCallFailure => "HostCallFailure"
  | .shutdownCancellation => "ShutdownCancellation"

def describeError (e : ResolveError) : Answer :=
  .fields [
    ("error", .text (resolveErrorName e)),
    ("kind", .text (categoryName e.category)),
    ("message", .text e.message)]

def answerResult (saveAs : Option String) (result : Option Value) : SessionM Answer := do
  saveResult saveAs result
  return .option .value result

def currentBridge : SessionM Bridge := do
  let w := (← get).world
  return w.bridge w.current

/-- Calls in line, with arguments built for the call. -/
def callInThread (bridge : Nat) (values : Table String Value) (id : Identifier)
    (args : List ValueLiteral) : CodeM (Option Value) := do
  let args ← Run.always (buildAll values args)
  Run.holding (args.flatMap Value.handles) (Run.callInline standard bridge id args)

/-- Calls from a thread of the engine, with arguments built for the call. -/
def callFromEngine (bridge : Nat) (values : Table String Value) (id : Identifier)
    (args : List ValueLiteral) : WorldM HostCode EngineCode (Option Value) := do
  let args ← buildAll values args
  let result ← WorldM.callFromWorker standard bridge id args
  WorldM.releaseAll (args.flatMap Value.handles)
  return result

/-- Calls to the gate, one for each caller; those that shutdown refuses are absent. -/
def requests (bridge : Nat) (gate : Identifier) :
    List Nat → WorldM HostCode EngineCode (List (Option OutboundCall))
  | [] => return []
  | caller :: rest =>
    return (← WorldM.request bridge gate [.int32 (.ofNat caller)]) :: (← requests bridge gate rest)

def dispatchAll : List (Option OutboundCall) → WorldM HostCode EngineCode Unit
  | [] => return
  | none :: rest => dispatchAll rest
  | some c :: rest => do
    WorldM.dispatch c
    dispatchAll rest

def collectAll : List (Option OutboundCall) → WorldM HostCode EngineCode (List (Option Value))
  | [] => return []
  | none :: rest => return none :: (← collectAll rest)
  | some c :: rest => return (← WorldM.collect c) :: (← collectAll rest)

def pendingCount (bridge : Nat) : WorldM HostCode EngineCode Nat := do
  return ((← get).bridge bridge).pending.length

/-- Several callers at the gate, then, with nobody waiting any more, one more call. What is to happen
meanwhile also happens if no call comes to the gate. -/
def holdUp (gate : Handle) (callers : Nat) (interruption : Option Interruption) :
    WorldM HostCode EngineCode Answer := do
  let w ← get
  let id := Identifier.ofText "block"
  set { w with gate := interruption }
  let calls ← requests w.current id (List.range callers)
  let before ← pendingCount w.current
  dispatchAll calls
  WorldM.drain standard
  Routine.interrupt standard
  let results ← collectAll calls
  let remaining ← pendingCount w.current
  let last ← WorldM.callFromWorker standard w.current id [.string "after"]
  let invocations := (← get).entered.count gate
  return .fields [
    ("results", .list (results.map (.option .value))),
    ("pending_before", .count before),
    ("pending", .count remaining),
    ("after", .option .value last),
    ("invocations", .count invocations),
    ("max_in_flight", .count (min 1 invocations))]

def perform : CallStep → SessionM Answer
  | .resolve id script args saveAs handleAs => do
    let session ← get
    let body : CodeM (Except ResolveError Raw) := do
      let id ← Run.onHost (hostId id)
      ScriptBoundary.resolve standard id script (args.map session.raw)
    inThread body fun outcome => do
      match outcome with
      | .ok raw => return .fields [("ok", ← ValueStep.answerNative saveAs handleAs raw)]
      | .error e => return describeError e
  | .call true id args saveAs => do
    let session ← get
    inThread (callInThread session.world.current session.values id args) (answerResult saveAs)
  | .call false id args saveAs => do
    let session ← get
    answerResult saveAs (← onWorld (callFromEngine session.world.current session.values id args))
  | .pending => do return .count (← currentBridge).pending.length
  | .shutDown => do return .flag (← currentBridge).shutDown
  | .onHostThread => return .flag false
  | .destroy => do
    onWorld (WorldM.destroyBridge (← get).world.current)
    return .flag (← currentBridge).shutDown
  | .blocked callers interruption fails => do
    let gate ← onHost (Host.defineFunction "block" (.gated fails))
    onWorld (holdUp gate callers interruption)

end CallStep

end ScriptBoundary.Session
