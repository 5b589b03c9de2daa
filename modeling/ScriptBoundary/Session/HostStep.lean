import ScriptBoundary.Session.State

/-!
Steps that reach the host past the boundary: they set up its objects and look at them. Each may be
taken on any thread.
-/

namespace ScriptBoundary.Session

inductive Failure where
  | noGlobal
  | dropsTasks
  | refusesWrites
  | noEnumeration
deriving DecidableEq

def Failure.switch (on : Bool) (failures : Failures) : Failure → Failures
  | .noGlobal => { failures with noGlobal := on }
  | .dropsTasks => { failures with dropsTasks := on }
  | .refusesWrites => { failures with refusesWrites := on }
  | .noEnumeration => { failures with noEnumeration := on }

inductive HostStep where
  | newObject (saveAs : Option String)
  | newArray (elements : List RawLiteral) (saveAs : Option String)
  | newFunction (code : Routine RawLiteral) (saveAs : Option String)
  /-- A function under a name of the global object. -/
  | define (name : String) (code : Routine RawLiteral) (saveAs : Option String)
  | put (target : Target) (name : String) (value : RawLiteral)
  | peek (target : Target) (name : String)
  | setGlobal (name : String) (value : RawLiteral)
  | expression (script : String) (value : RawLiteral)
  | elements (target : Target)
  | refs (target : Target)
  | releases (target : Target)
  | live
  | exceptions
  | retain (target : Target)
  | release (target : Target)
  | setFailure (failure : Failure) (on : Bool)

namespace HostStep

/-- Saves a new object and answers its handle. -/
def created (saveAs : Option String) (h : Handle) : SessionM Answer := do
  saveHandle saveAs h
  return .handle h

def change (operation : Heap HostCode → Heap HostCode) : SessionM Unit :=
  onHeap fun heap => ((), operation heap)

def perform : HostStep → SessionM Answer
  | .newObject saveAs => do created saveAs (← onHeap (Heap.alloc .plain))
  | .newArray items saveAs => do
    let items := items.map (← get).raw
    created saveAs (← onHeap (Heap.allocArray items))
  | .newFunction code saveAs => do
    let code := code.map (← get).raw
    created saveAs (← onHeap (Heap.alloc (.function code)))
  | .define name code saveAs => do
    let code := code.map (← get).raw
    created saveAs (← onHost (Host.defineFunction name code))
  | .put target name value => do
    let session ← get
    return .flag (← onHeap (Heap.put (session.target target) name (session.raw value)))
  | .peek target name => do
    return .option .raw (← onHeap (Heap.peek ((← get).target target) name))
  | .setGlobal name value => do
    let _ ← onHeap (Heap.put Host.global name ((← get).raw value))
    return .nothing
  | .expression script value => do
    change (Heap.defineExpression script ((← get).raw value))
    return .nothing
  | .elements target => do
    let items? := (← heap).elements? ((← get).target target)
    return .option (fun items => .list (items.toList.map .raw)) items?
  | .refs target => do return .count ((← heap).refs ((← get).target target))
  | .releases target => do return .count ((← heap).releaseCount ((← get).target target))
  | .live => do return .count (← heap).objects.size
  | .exceptions => do return .texts (← heap).exceptions
  | .retain target => do
    let h := (← get).target target
    change (Heap.retain h)
    return .count ((← heap).refs h)
  | .release target => do
    let h := (← get).target target
    change (Heap.release h)
    return .count ((← heap).refs h)
  | .setFailure failure on => do
    onHost (modify fun host => { host with failures := failure.switch on host.failures })
    return .nothing

end HostStep

end ScriptBoundary.Session
