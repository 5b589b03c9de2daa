import ScriptBoundary.Call.Outbound
import ScriptBoundary.Settings

/-!
The registry in use. Its own operations keep account of the references in what is bound, replaced
and removed; the gateway offers them to the host, through host identifiers and values in host form.
-/

namespace ScriptBoundary

variable {ρ μ : Type}

/-- The references kept by the code of a method. -/
def Method.handles (β : Behaviour ρ μ) : Method μ → List Handle
  | .legacy _ => []
  | .code body => β.keeps body

namespace Registry

def isShutDown (r : Registry μ) : WorldM ρ μ Bool := do
  return ((← get).bridge r.bridge).shutDown

/-- Binds a value and says whether it was accepted. What is held no longer is given back: a refused
value, else the one it replaces. -/
def bindProperty (id : Identifier) (value : Value) (r : Registry μ) :
    WorldM ρ μ (Bool × Registry μ) := do
  let shutDown ← r.isShutDown
  WorldM.releaseAll (if shutDown then value.handles else r.properties.lostBySet id)
  return (!shutDown, r.setProperty shutDown id value)

def unbindProperty (id : Identifier) (r : Registry μ) : WorldM ρ μ (Bool × Registry μ) := do
  let shutDown ← r.isShutDown
  WorldM.releaseAll (if shutDown then [] else r.properties.lostByRemove id)
  return r.removeProperty shutDown id

/-- A copy of a property, with references of its own. -/
def copyProperty (id : Identifier) (r : Registry μ) : WorldM ρ μ (Option Value) := do
  let value := r.properties.find? id
  WorldM.retainAll (value.elim [] Value.handles)
  return value

variable (β : Behaviour ρ μ)

def methodHandles (id : Identifier) (r : Registry μ) : List Handle :=
  (r.methods.find? id).elim [] (Method.handles β)

/-- Binds a method and says whether it was accepted. -/
def bindMethod (id : Identifier) (method : Method μ) (r : Registry μ) :
    WorldM ρ μ (Bool × Registry μ) := do
  let shutDown ← r.isShutDown
  WorldM.releaseAll (if shutDown then method.handles β else r.methodHandles β id)
  return (!shutDown, r.setMethod shutDown id method)

def unbindMethod (id : Identifier) (r : Registry μ) : WorldM ρ μ (Bool × Registry μ) := do
  let shutDown ← r.isShutDown
  WorldM.releaseAll (if shutDown then [] else r.methodHandles β id)
  return r.removeMethod shutDown id

/-- Runs the method bound to an identifier; nothing runs if there is none. -/
def call (id : Identifier) (args : List Value) (r : Registry μ) : Run ρ μ (Option CallResult) := do
  match r.methods.find? id with
  | none => return none
  | some (.legacy verb) => return some verb.result
  | some (.code body) => return some (← β.answer body r id args)

/-- Raises a script exception if the session marshals exceptions. -/
def raise (message : String) (r : Registry μ) : WorldM ρ μ Unit := do
  if ((← get).bridge r.bridge).marshalsExceptions then WorldM.onHost (Host.raise message)

/-- Every reference held by properties and methods. -/
def handles (r : Registry μ) : List Handle :=
  r.properties.handles ++ r.methods.values.flatMap (Method.handles β)

/-- The end of a registry. -/
def discard (r : Registry μ) : WorldM ρ μ Unit := WorldM.releaseAll (r.handles β)

end Registry

namespace Gateway

/-- Copies properties of the element object under the same names. -/
def copyFrom (element : Handle) : List String → Registry μ → WorldM ρ μ (Registry μ)
  | [], r => return r
  | name :: rest, r => do
    let id ← WorldM.onHost (Host.intern name)
    match ← WorldM.onHost (Host.getProperty element id) with
    | none => copyFrom element rest r
    | some raw =>
      let value ← WorldM.onHost (Marshal.read raw)
      WorldM.releaseAll raw.handles
      let (_, r) ← r.bindProperty (.ofText name) value
      copyFrom element rest r

def copyElementIds (r : Registry μ) : WorldM ρ μ (Registry μ) := do
  match ← WorldM.onHost Host.elementObject with
  | none => return r
  | some element =>
    let r ← copyFrom element ["id", "name"] r
    WorldM.releaseAll [element]
    return r

/-- A registry with the verbs of older pages. -/
def withLegacyVerbs (r : Registry μ) : Registry μ :=
  LegacyVerb.all.foldl (fun r verb => r.setMethod false (.ofText verb.name) (.legacy verb)) r

/-- A new registry on a new bridge, with its first properties and methods. -/
def start (settings : Settings) : WorldM ρ μ (Registry μ) := do
  let number := (← get).bridges.length
  modify fun w => { w with bridges := w.bridges ++ [Bridge.start settings.marshalExceptions] }
  let r := (Registry.empty number).setProperty false (.ofText "$version") (.string settings.version)
  let r := if settings.legacyMethods then withLegacyVerbs r else r
  if settings.exposeElementIds then copyElementIds r else return r

def hasMethod (id : HostId) (r : Registry μ) : HostM ρ Bool := do
  return r.methods.contains (← Host.identifierOf id)

def hasProperty (id : HostId) (r : Registry μ) : HostM ρ Bool := do
  return r.properties.contains (← Host.identifierOf id)

/-- Every identifier, properties first. -/
def ids : List Identifier → HostM ρ (List HostId)
  | [] => return []
  | id :: rest => return (← Host.idOf id) :: (← ids rest)

def setProperty (id : HostId) (raw : Raw) (r : Registry μ) : WorldM ρ μ (Bool × Registry μ) := do
  let id ← WorldM.onHost (Host.identifierOf id)
  let value ← WorldM.onHost (Marshal.readLent raw)
  r.bindProperty id value

def removeProperty (id : HostId) (r : Registry μ) : WorldM ρ μ (Bool × Registry μ) := do
  r.unbindProperty (← WorldM.onHost (Host.identifierOf id))

variable (β : Behaviour ρ μ)

/-- Reads a property; the host owns the reference in the result. -/
def getProperty (id : HostId) (r : Registry μ) : Run ρ μ (Option Raw) := do
  match ← Run.always (r.copyProperty (← Run.onHost (Host.identifierOf id))) with
  | none => return none
  | some value => Run.holding value.handles (some <$> Marshal.writeForHost β value)

/-- The value of a call in host form; the host owns the reference in it. -/
def answerForHost (result : CallResult) : Run ρ μ (Bool × Option Raw) :=
  Run.holding result.handles do
    match result.value with
    | none => return (result.handled, none)
    | some value => return (result.handled, some (← Marshal.writeForHost β value))

/-- Calls a method. An unknown one is not handled and answers nothing. -/
def invoke (id : HostId) (args : List Raw) (r : Registry μ) : Run ρ μ (Bool × Option Raw) := do
  let id ← Run.onHost (Host.identifierOf id)
  let values ← Run.onHost (Marshal.readAllLent args)
  Run.holding (values.flatMap Value.handles) do
    match ← r.call β id values with
    | none => return (false, none)
    | some result => answerForHost β result

/-- The gateway itself cannot be called. -/
def invokeDefault : Bool × Option Raw := (false, none)

end Gateway

namespace WorldM

/-- The end of a gateway begins shutdown of its bridge and gives back what its registry held. -/
def closeGateway (β : Behaviour ρ μ) (r : Registry μ) : WorldM ρ μ Unit := do
  destroyBridge r.bridge
  r.discard β

/-- Opens a gateway in place of an earlier one; its bridge becomes the session's. -/
def openGateway (β : Behaviour ρ μ) (settings : Settings) : WorldM ρ μ Unit := do
  let r ← Gateway.start settings
  let old := (← get).gateway
  modify fun w => { w with gateway := some r, current := r.bridge }
  match old with
  | some old => closeGateway β old
  | none => return

/-- Replaces the gateway's registry by what an operation makes of it. -/
def changeGateway {α : Type} (operation : Registry μ → WorldM ρ μ (α × Registry μ))
    (r : Registry μ) : WorldM ρ μ α := do
  let (a, r) ← operation r
  modify fun w => { w with gateway := some r }
  return a

/-- Closes the gateway; says whether there was one. -/
def dropGateway (β : Behaviour ρ μ) : WorldM ρ μ Bool := do
  match (← get).gateway with
  | none => return false
  | some r =>
    modify fun w => { w with gateway := none }
    closeGateway β r
    return true

end WorldM

end ScriptBoundary
