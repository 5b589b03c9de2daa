import ScriptBoundary.Host.Heap

/-!
Reading, writing and listing the properties of host objects.
-/

namespace ScriptBoundary

variable {ρ : Type}

/-- Writes an element; a gap between the old end and the index is filled with void. -/
def setElement (elements : Array Raw) (index : Nat) (value : Raw) : Array Raw :=
  if h : index < elements.size then elements.set index value
  else (elements ++ Array.replicate (index - elements.size) Raw.void).push value

/-- An object after a write, and the value that was overwritten. -/
def Entry.write (e : Entry ρ) (id : HostId) (value : Raw) : Entry ρ × Option Raw :=
  match e.form, id.elementIndex? with
  | .array elements, some i => ({ e with form := .array (setElement elements i value) }, elements[i]?)
  | _, _ => ({ e with props := e.props.insert id value }, e.props.find? id)

/-- An array with more elements. -/
def Entry.append (values : List Raw) : Entry ρ → Entry ρ
  | ⟨refs, .array elements, props⟩ => ⟨refs, .array (elements ++ values), props⟩
  | e => e

namespace Heap

def retainValue (raw : Raw) (heap : Heap ρ) : Heap ρ := heap.retainAll raw.handles

/-- Reads a property without taking a reference. On an array a non-negative integer reads an
element, and the name `length` reads the number of elements. -/
def lookup (heap : Heap ρ) (target : Handle) (id : HostId) : Option Raw :=
  match heap.objects.find? target with
  | none => none
  | some e =>
    match e.form with
    | .array elements =>
      match id.elementIndex? with
      | some i => elements[i]?
      | none =>
        if heap.names.text? id = some "length" then some (.int32 (.ofNat elements.size))
        else e.props.find? id
    | _ => e.props.find? id

/-- Writes a property of a live object. The object holds a reference to the new value and gives
back the one to the old value. -/
def store (target : Handle) (id : HostId) (value : Raw) (heap : Heap ρ) : Bool × Heap ρ :=
  if heap.isLive target then
    let heap := heap.retainValue value
    match heap.objects.find? target with
    | none => (false, heap)
    | some e =>
      let (written, old) := e.write id value
      let heap := { heap with objects := heap.objects.update target fun _ => written }
      (true, heap.releaseAll (old.elim [] Raw.handles))
  else (false, heap)

/-- The enumerable properties: the indices of an array, all keys of any other object. -/
def propertyIds? (heap : Heap ρ) (target : Handle) : Option (List HostId) :=
  (heap.objects.find? target).map fun e =>
    match e.form with
    | .array elements => HostId.indices elements.size
    | _ => e.props.keys

/-- The elements of an array. -/
def elements? (heap : Heap ρ) (target : Handle) : Option (Array Raw) :=
  match heap.objects.find? target with
  | some ⟨_, .array elements, _⟩ => some elements
  | _ => none

def code? (heap : Heap ρ) (target : Handle) : Option ρ :=
  match heap.objects.find? target with
  | some ⟨_, .function code, _⟩ => some code
  | _ => none

/-- Interns a name. -/
def intern (text : String) (heap : Heap ρ) : HostId × Heap ρ :=
  let (id, names) := heap.names.intern text
  (id, { heap with names := names })

/-- The identifier of a property name; integer text is an integer. -/
def key (text : String) (heap : Heap ρ) : HostId × Heap ρ :=
  let (id, names) := heap.names.key text
  (id, { heap with names := names })

/-- Writes a property by name. -/
def put (target : Handle) (name : String) (value : Raw) (heap : Heap ρ) : Bool × Heap ρ :=
  let (id, heap) := heap.key name
  heap.store target id value

/-- Reads a property by name, without taking a reference. -/
def peek (target : Handle) (name : String) (heap : Heap ρ) : Option Raw × Heap ρ :=
  let (id, heap) := heap.key name
  (heap.lookup target id, heap)

/-- A new array that holds the elements, with one reference for the caller. -/
def allocArray (elements : List Raw) (heap : Heap ρ) : Handle × Heap ρ :=
  (heap.retainAll (elements.flatMap Raw.handles)).alloc (.array elements.toArray)

/-- Appends to an array. -/
def pushAll (target : Handle) (values : List Raw) (heap : Heap ρ) : Option Raw × Heap ρ :=
  let heap := heap.retainAll (values.flatMap Raw.handles)
  match heap.elements? target with
  | none => (none, heap)
  | some elements =>
    (some (.int32 (.ofNat (elements.size + values.length))),
      { heap with objects := heap.objects.update target (Entry.append values) })

end Heap

end ScriptBoundary
