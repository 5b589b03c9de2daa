import ScriptBoundary.Invocation

/-!
Writing engine values in host form. A backed bag is handed over as the object it stands for; any
other bag is rebuilt, an array with the host's `Array` and `push`, a plain object with `Object` and
one write for each property. The caller owns the reference in the result.
-/

namespace ScriptBoundary.Marshal

variable {ρ μ : Type}

/-- How to write one value, and the references that the value holds. -/
structure Writer (ρ μ : Type) where
  write : Run ρ μ Raw
  handles : List Handle

variable (β : Behaviour ρ μ)

def constructorName : Shape → String
  | .array => "Array"
  | .plain => "Object"

/-- Calls a constructor of the global object. -/
def construct (global : Handle) (shape : Shape) : Run ρ μ (Option Handle) := do
  let id ← Run.onHost (Host.intern (constructorName shape))
  match ← Run.invoke β global id [] with
  | some (.object h) => return some h
  | _ => return none

/-- Pushes elements one by one. Each is copied first, and the copy discarded afterwards. -/
def pushElements (h : Handle) (push : HostId) : List (Writer ρ μ) → Run ρ μ Unit
  | [] => return
  | element :: rest => do
    Run.retainAll element.handles
    Run.holding element.handles do
      let raw ← element.write
      Run.holding raw.handles do
        let answer ← Run.invoke β h push [raw]
        Run.releaseAll (answer.elim [] Raw.handles)
    pushElements h push rest

/-- Writes properties one by one; the host may refuse some. -/
def writeProperties (h : Handle) : List (Identifier × Writer ρ μ) → Run ρ μ Unit
  | [] => return
  | (id, value) :: rest => do
    let raw ← value.write
    Run.holding raw.handles do
      let id ← Run.onHost (Host.idOf id)
      let _ ← Run.onHost (Host.setProperty h id raw)
    writeProperties h rest

def fill (h : Handle) (shape : Shape) (props : Table Identifier (Writer ρ μ)) : Run ρ μ Unit := do
  match shape with
  | .array =>
    let push ← Run.onHost (Host.intern "push")
    pushElements β h push (Bag.elements ⟨shape, props, none⟩ ⟨return .void, []⟩)
  | .plain => writeProperties h props.entries

/-- Builds a new host object. Null stands for one that the host could not construct. -/
def build (shape : Shape) (props : Table Identifier (Writer ρ μ)) : Run ρ μ Raw := do
  match ← Run.onHost Host.globalObject with
  | none => return .null
  | some global =>
    Run.holding [global] do
      match ← construct β global shape with
      | none => return .null
      | some h =>
        Run.guarding [h] (fill β h shape props)
        return .object h

mutual

def write : Value → Run ρ μ Raw
  | .scalar s => return .scalar s
  | .object ⟨shape, ⟨entries⟩, backing⟩ =>
    match backing with
    | some h => do
      Run.retainAll [h]
      return .object h
    | none => build β shape ⟨writers entries⟩

def writers : List (Identifier × Value) → List (Identifier × Writer ρ μ)
  | [] => []
  | (id, value) :: rest => (id, ⟨write value, value.handles⟩) :: writers rest

end

/-- Writes values and owns what was written while a computation uses it. -/
def withWritten {α : Type} (use : List Raw → Run ρ μ α) : List Value → Run ρ μ α
  | [] => use []
  | value :: rest => do
    let raw ← write β value
    Run.holding raw.handles (withWritten (fun raws => use (raw :: raws)) rest)

/-- Writes a value for the host to keep. The reference is taken anew before the owner's is given
back. -/
def writeForHost (value : Value) : Run ρ μ Raw := do
  let raw ← write β value
  Run.retainAll raw.handles
  Run.releaseAll raw.handles
  return raw

end ScriptBoundary.Marshal
