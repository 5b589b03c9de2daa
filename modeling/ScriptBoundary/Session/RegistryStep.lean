import ScriptBoundary.Session.CallStep
import ScriptBoundary.Session.EntryStep

/-!
Steps on the gateway, as the host takes them, and on a registry, as the engine takes them.
-/

namespace ScriptBoundary.Session

inductive GatewayStep where
  /-- Opens a gateway in place of an earlier one. -/
  | openWith (settings : Settings)
  | close
  | hasMethod (id : IdLiteral)
  | hasProperty (id : IdLiteral)
  | removeProperty (id : IdLiteral)
  | getProperty (id : IdLiteral) (saveAs : Option String)
  | setProperty (id : IdLiteral) (value : RawLiteral)
  | ids
  | invoke (id : IdLiteral) (args : List RawLiteral) (saveAs : Option String)
  | invokeDefault
  | destroy

/-- Steps on the registry that stands on its own if there is one, else on the gateway's. -/
inductive ObjectStep where
  /-- A registry of its own, on the session's bridge. -/
  | create
  | setProperty (id : Identifier) (value : ValueLiteral)
  | hasProperty (id : Identifier)
  | removeProperty (id : Identifier)
  | getProperty (id : Identifier) (saveAs : Option String)
  | setMethod (id : Identifier) (code : Action ValueLiteral)
  | hasMethod (id : Identifier)
  | removeMethod (id : Identifier)
  | identifiers
  | properties
  | invoke (id : Identifier) (args : List ValueLiteral) (saveAs : Option String)
  | call (id : Identifier) (args : List ValueLiteral) (saveAs : Option String)
  | raise (message : String)
  | destroy
  | debug

abbrev EngineRegistry := Registry EngineCode

def describeCall (value : Answer) (handled : Bool) : Answer :=
  .fields [("handled", .flag handled), ("value", value)]

namespace GatewayStep

/-- Does something with the gateway on the host thread; nothing without a gateway. -/
def withGateway {α : Type} (body : EngineRegistry → CodeM α) (answer : α → SessionM Answer) :
    SessionM Answer := do
  let gateway := (← get).world.gateway
  inThread (gateway.elim (return none) fun r => some <$> body r) fun result => do
    match result with
    | none => return .nothing
    | some a => answer a

def answerFlag (b : Bool) : SessionM Answer := return .flag b

def answerCall (saveAs : Option String) (result : Bool × Option Raw) : SessionM Answer := do
  return describeCall (← EntryStep.answerRaw saveAs result.2) result.1

def perform : GatewayStep → SessionM Answer
  | .openWith settings =>
    inThread (Run.always (WorldM.openGateway standard settings)) fun _ => do
      return .flag (← CallStep.currentBridge).marshalsExceptions
  | .close => inThread (Run.always (WorldM.dropGateway standard)) answerFlag
  | .hasMethod id =>
    withGateway (fun r => Run.onHost do Gateway.hasMethod (← hostId id) r) answerFlag
  | .hasProperty id =>
    withGateway (fun r => Run.onHost do Gateway.hasProperty (← hostId id) r) answerFlag
  | .removeProperty id =>
    withGateway (fun r => do
      let id ← Run.onHost (hostId id)
      Run.always (WorldM.changeGateway (Gateway.removeProperty id) r)) answerFlag
  | .getProperty id saveAs =>
    withGateway (fun r => do Gateway.getProperty standard (← Run.onHost (hostId id)) r)
      (EntryStep.answerRaw saveAs)
  | .setProperty id value => do
    let value := (← get).raw value
    withGateway (fun r => do
      let id ← Run.onHost (hostId id)
      Run.always (WorldM.changeGateway (Gateway.setProperty id value) r)) answerFlag
  | .ids =>
    withGateway (fun r => Run.onHost (Gateway.ids r.identifiers)) fun ids => do
      let names := (← heap).names
      return .list (ids.map (.hostId names))
  | .invoke id args saveAs => do
    let args := args.map (← get).raw
    withGateway (fun r => do Gateway.invoke standard (← Run.onHost (hostId id)) args r)
      (answerCall saveAs)
  | .invokeDefault => withGateway (fun _ => return Gateway.invokeDefault) (answerCall none)
  | .destroy =>
    withGateway (fun r => Run.always do
      WorldM.destroyBridge r.bridge
      r.isShutDown) answerFlag

end GatewayStep

namespace ObjectStep

/-- The registry that the steps are about. -/
def subject? (w : World HostCode EngineCode) : Option EngineRegistry := w.object <|> w.gateway

def withRegistry {α : Type} (body : EngineRegistry → CodeM α) (answer : α → SessionM Answer) :
    SessionM Answer := do
  let subject := subject? (← get).world
  inThread (subject.elim (return none) fun r => some <$> body r) fun result => do
    match result with
    | none => return .nothing
    | some a => answer a

/-- Replaces the registry by what an operation makes of it. -/
def changing {α : Type} (operation : EngineRegistry → WorldM HostCode EngineCode (α × EngineRegistry))
    (r : EngineRegistry) : CodeM α := Run.always do
  let (a, r) ← operation r
  modify fun w =>
    if w.object.isSome then { w with object := some r } else { w with gateway := some r }
  return a

def answerFlag (b : Bool) : SessionM Answer := return .flag b

/-- A registry as text. -/
def debugText (shutDown : Bool) (r : EngineRegistry) : String :=
  "ScriptObject \x7b properties: " ++ r.properties.debug ++ ", methods: [" ++
    ", ".intercalate (r.methods.keys.map Identifier.debug) ++ "], shutting_down: " ++
    Scalar.booleanText shutDown ++ " \x7d"

/-- Puts an empty registry in place of an earlier one, which is given up. -/
def createObject : WorldM HostCode EngineCode Unit := do
  let old := (← get).object
  modify fun w => { w with object := some (Registry.empty w.current) }
  match old with
  | none => return
  | some old => old.discard standard

def perform : ObjectStep → SessionM Answer
  | .create => inThread (Run.always createObject) fun _ => return .nothing
  | .setProperty id literal => do
    let values := (← get).values
    withRegistry (changing fun r => do r.bindProperty id (← build values literal)) answerFlag
  | .hasProperty id => withRegistry (fun r => return r.properties.contains id) answerFlag
  | .removeProperty id => withRegistry (changing (Registry.unbindProperty id)) answerFlag
  | .getProperty id saveAs =>
    withRegistry (fun r => Run.always (r.copyProperty id)) (CallStep.answerResult saveAs)
  | .setMethod id code => do
    let values := (← get).values
    withRegistry (changing fun r => do
      let code ← code.mapM (build values)
      r.bindMethod standard id (.code code)) answerFlag
  | .hasMethod id => withRegistry (fun r => return r.methods.contains id) answerFlag
  | .removeMethod id => withRegistry (changing (Registry.unbindMethod standard id)) answerFlag
  | .identifiers =>
    withRegistry (fun r => return r.identifiers) fun ids => return .list (ids.map .identifier)
  | .properties => withRegistry (fun r => return r.properties) fun bag => return .bag bag
  | .invoke id args saveAs => do
    let values := (← get).values
    withRegistry (fun r => do
      let args ← Run.always (buildAll values args)
      Run.holding (args.flatMap Value.handles) (r.call standard id args)) fun result => do
        match result with
        | none => return .nothing
        | some result =>
          return describeCall (← CallStep.answerResult saveAs result.value) result.handled
  | .call id args saveAs => do
    let values := (← get).values
    withRegistry (fun r => CallStep.callInThread r.bridge values id args)
      (CallStep.answerResult saveAs)
  | .raise message =>
    withRegistry (fun r => Run.always (r.raise message)) fun _ => do
      return .count (← heap).exceptions.length
  | .destroy =>
    withRegistry (fun r => Run.always do
      WorldM.destroyBridge r.bridge
      r.isShutDown) answerFlag
  | .debug =>
    withRegistry (fun r => return debugText (← Run.always r.isShutDown) r) fun text =>
      return .text text

end ObjectStep

end ScriptBoundary.Session
