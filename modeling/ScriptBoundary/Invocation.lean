import ScriptBoundary.World

/-!
Calling into the host: methods of objects and objects that are functions themselves.
-/

namespace ScriptBoundary

variable {ρ μ : Type}

/-- What a method call on a host object comes down to. -/
inductive Callee (ρ : Type) where
  /-- Append to the target, an array. -/
  | push
  /-- Allocate an empty object. -/
  | construct (shape : Shape)
  | function (object : Handle) (code : ρ)

namespace Heap

/-- The method `push` of an array comes first, then a property that holds a function, then the
constructors of the global object. A property that holds another object hides a constructor. -/
def callee? (heap : Heap ρ) (target : Handle) (id : HostId) : Option (Callee ρ) :=
  match heap.objects.find? target with
  | none => none
  | some _ =>
    let name := heap.names.text? id
    if (heap.elements? target).isSome && name = some "push" then some .push
    else
      match heap.lookup target id with
      | some (.object f) => (heap.code? f).map (.function f)
      | _ =>
        if target = Host.global then
          if name = some "Array" then some (.construct .array)
          else if name = some "Object" then some (.construct .plain)
          else none
        else none

end Heap

namespace Run

variable (β : Behaviour ρ μ)

def enter (object : Handle) (code : ρ) (args : List Raw) : Run ρ μ (Option Raw) := do
  modify fun w => { w with entered := w.entered ++ [object] }
  β.enter code args

/-- Calls a method of an object. -/
def invoke (target : Handle) (id : HostId) (args : List Raw) : Run ρ μ (Option Raw) := do
  match (← get).host.heap.callee? target id with
  | none => return none
  | some .push => onHost (Host.onHeap (Heap.pushAll target args))
  | some (.construct shape) =>
    let form : Form ρ :=
      match shape with
      | .plain => .plain
      | .array => .array #[]
    let h ← onHost (Host.onHeap (Heap.alloc form))
    return some (.object h)
  | some (.function object code) => enter β object code args

/-- Calls an object as a function. -/
def invokeDefault (target : Handle) (args : List Raw) : Run ρ μ (Option Raw) := do
  match (← get).host.heap.code? target with
  | none => return none
  | some code => enter β target code args

end Run

end ScriptBoundary
