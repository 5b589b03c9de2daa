import ScriptBoundary.Session.Answer
import ScriptBoundary.Session.Behaviour

/-!
The state of a session: the world it acts on, and what it has saved under names. Values and host
values written down in a step may mention what is saved.
-/

namespace ScriptBoundary

/-- A session owns its saved values and natives. Saved handles own nothing. -/
structure Session where
  world : World Session.HostCode Session.EngineCode
  handles : Table String Handle
  values : Table String Value
  natives : Table String Raw

abbrev SessionM := StateM Session

namespace Session

inductive Target where
  | number (n : Nat)
  | saved (name : String)

inductive RawLiteral where
  | scalar (s : Scalar)
  | object (target : Target)

inductive IdLiteral where
  | name (text : String)
  | integer (i : Int32)
  | number (n : Nat)

inductive ValueLiteral where
  | scalar (s : Scalar)
  | bag (shape : Shape) (props : List (Identifier × ValueLiteral))
  /-- A copy of a saved value. -/
  | saved (name : String)

/-- A fresh session. The global and element objects are saved from the start. -/
def start (element : Option (String × String)) (marshalsExceptions : Bool) : Session :=
  let host := Host.start element
  { world := World.start host marshalsExceptions
    handles := .ofList (("global", Host.global) :: (host.element.map (("element", ·))).toList)
    values := .empty
    natives := .empty }

def target (session : Session) : Target → Handle
  | .number n => ⟨n⟩
  | .saved name => (session.handles.find? name).getD ⟨0⟩

def raw (session : Session) : RawLiteral → Raw
  | .scalar s => .scalar s
  | .object t => .object (session.target t)

/-- The host identifier that is meant; a name is interned. -/
def hostId : IdLiteral → HostM HostCode HostId
  | .name text => Host.intern text
  | .integer i => return .ofInt32 i
  | .number n => return .ofNumber n

/-! Building a value copies the saved values in it. A bag is built by writing its properties in
order, so the last one of an identifier stays. -/

mutual

def build (saved : Table String Value) : ValueLiteral → WorldM HostCode EngineCode Value
  | .scalar s => return .scalar s
  | .bag shape props => do
    let bag ← buildProps saved (Bag.ofShape shape) props
    return .object bag
  | .saved name => do
    let value := (saved.find? name).getD .void
    WorldM.retainAll value.handles
    return value

def buildProps (saved : Table String Value) (bag : Bag Value) :
    List (Identifier × ValueLiteral) → WorldM HostCode EngineCode (Bag Value)
  | [] => return bag
  | (id, literal) :: rest => do
    let value ← build saved literal
    WorldM.releaseAll (bag.lostBySet id)
    buildProps saved (bag.set id value) rest

end

def buildAll (saved : Table String Value) :
    List ValueLiteral → WorldM HostCode EngineCode (List Value)
  | [] => return []
  | literal :: rest => return (← build saved literal) :: (← buildAll saved rest)

def onWorld {α : Type} (operation : WorldM HostCode EngineCode α) : SessionM α := fun session =>
  let (a, world) := operation.run session.world
  (a, { session with world := world })

def onHost {α : Type} (operation : HostM HostCode α) : SessionM α :=
  onWorld (WorldM.onHost operation)

def onHeap {α : Type} (operation : Heap HostCode → α × Heap HostCode) : SessionM α :=
  onHost (Host.onHeap operation)

def heap : SessionM (Heap HostCode) := return (← get).world.host.heap

def releaseAll (hs : List Handle) : SessionM Unit := onWorld (WorldM.releaseAll hs)

def buildValue (literal : ValueLiteral) : SessionM Value := do
  onWorld (build (← get).values literal)

/-- Saves a handle if there is a name for it. -/
def saveHandle (name : Option String) (h : Handle) : SessionM Unit :=
  match name with
  | none => return
  | some name => modify fun session => { session with handles := session.handles.insert name h }

/-- Saves a value, in place of an earlier one, or gives it up if there is no name for it. -/
def saveValue (name : Option String) (value : Value) : SessionM Unit := do
  match name with
  | none => releaseAll value.handles
  | some name =>
    let old := (← get).values.find? name
    modify fun session => { session with values := session.values.insert name value }
    releaseAll (old.elim [] Value.handles)

/-- Saves the value of a call, if it had one. -/
def saveResult (name : Option String) (result : Option Value) : SessionM Unit := do
  match result with
  | none => return
  | some value => saveValue name value

/-- Saves an owned host value, or gives it up if there is no name for it. -/
def saveNative (name : Option String) (raw : Raw) : SessionM Unit := do
  match name with
  | none => releaseAll raw.handles
  | some name =>
    let old := (← get).natives.find? name
    modify fun session => { session with natives := session.natives.insert name raw }
    releaseAll (old.elim [] Raw.handles)

/-- Does something on the host thread and goes on with what came out of it, unless the thread is
dead or the computation panics. -/
def inThread {α : Type} (body : CodeM α) (answer : α → SessionM Answer) : SessionM Answer := do
  if (← get).world.hostGone then return .hostGone
  match ← onWorld body.run with
  | .ok a => answer a
  | .error (.panic text) => return .panic text
  | .error .tooDeep => return .panic "calls are nested too deep"

end Session

end ScriptBoundary
