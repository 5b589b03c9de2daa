import ScriptBoundary.Host.Expressions

/-!
A host as the boundary sees it: its heap, its global and element objects, and the ways in which it
can be made to fail. What the host hands out carries one reference for the caller; what it is given
it only borrows.
-/

namespace ScriptBoundary

/-- Failures that a host can be switched to. -/
structure Failures where
  /-- There is no global object. -/
  noGlobal : Bool
  /-- Tasks for the host thread are dropped. -/
  dropsTasks : Bool
  /-- Properties cannot be written. -/
  refusesWrites : Bool
  /-- Objects do not list their properties. -/
  noEnumeration : Bool
deriving DecidableEq

namespace Failures

def none : Failures := ⟨false, false, false, false⟩

end Failures

structure Host (ρ : Type) where
  heap : Heap ρ
  element : Option Handle
  failures : Failures

/-- Work on a host that always finishes. -/
abbrev HostM (ρ : Type) := StateM (Host ρ)

namespace Host

variable {ρ : Type}

/-- The global object is the first object of every host. -/
def global : Handle := ⟨1⟩

/-- A fresh host, with an element object that carries an `id` and a `name` if these are given. -/
def start (element : Option (String × String)) : Host ρ :=
  let heap := (Heap.empty.alloc .plain).2
  match element with
  | none => ⟨heap, none, .none⟩
  | some (id, name) =>
    let (h, heap) := heap.alloc .plain
    let (idKey, heap) := heap.intern "id"
    let (nameKey, heap) := heap.intern "name"
    let heap := (heap.store h idKey (.string id)).2
    let heap := (heap.store h nameKey (.string name)).2
    ⟨heap, some h, .none⟩

/-- Runs an operation of the heap that answers something. -/
def onHeap {α : Type} (operation : Heap ρ → α × Heap ρ) : HostM ρ α := do
  let host ← get
  let (a, heap) := operation host.heap
  set { host with heap := heap }
  return a

/-- Changes the heap. -/
def changeHeap (change : Heap ρ → Heap ρ) : HostM ρ Unit :=
  modify fun host => { host with heap := change host.heap }

def retainAll (hs : List Handle) : HostM ρ Unit := changeHeap (Heap.retainAll hs)

def releaseAll (hs : List Handle) : HostM ρ Unit := changeHeap (Heap.releaseAll hs)

def globalObject : HostM ρ (Option Handle) := do
  if (← get).failures.noGlobal then return none
  retainAll [global]
  return some global

def elementObject : HostM ρ (Option Handle) := do
  match (← get).element with
  | none => return none
  | some h =>
    retainAll [h]
    return some h

def evaluate (target : Handle) (script : String) : HostM ρ (Option Raw) :=
  onHeap (Heap.evaluate target script)

def getProperty (target : Handle) (id : HostId) : HostM ρ (Option Raw) := do
  let value := (← get).heap.lookup target id
  retainAll (value.elim [] Raw.handles)
  return value

def setProperty (target : Handle) (id : HostId) (value : Raw) : HostM ρ Bool := do
  if (← get).failures.refusesWrites then return false
  onHeap (Heap.store target id value)

def propertyIds (target : Handle) : HostM ρ (Option (List HostId)) := do
  let host ← get
  if host.failures.noEnumeration then return none
  return host.heap.propertyIds? target

def intern (text : String) : HostM ρ HostId := onHeap (Heap.intern text)

/-- The engine identifier of a host identifier. -/
def identifierOf (id : HostId) : HostM ρ Identifier := do
  return (← get).heap.names.identifier id

/-- The host identifier of an engine identifier. -/
def idOf (id : Identifier) : HostM ρ HostId :=
  onHeap fun heap =>
    let (id, names) := heap.names.ofIdentifier id
    (id, { heap with names := names })

/-- Puts a new function under a name of the global object, which alone holds it then. -/
def defineFunction (name : String) (code : ρ) : HostM ρ Handle := do
  let h ← onHeap (Heap.alloc (.function code))
  let _ ← onHeap (Heap.put global name (.object h))
  releaseAll [h]
  return h

/-- Raises a script exception. -/
def raise (message : String) : HostM ρ Unit :=
  changeHeap fun heap => { heap with exceptions := heap.exceptions ++ [message] }

end Host

end ScriptBoundary
