import ScriptBoundary.Host.EntryPoints
import ScriptBoundary.Value.Basic

/-!
Reading host values into engine form. An object becomes a bag backed by it, with everything that
can be reached from it; an object met again below itself becomes an empty bag backed by it, and
objects nested too deep become void.
-/

namespace ScriptBoundary.Marshal

variable {ρ : Type}

/-- How many containers may be read inside each other. -/
def depthLimit : Nat := 64

/-- Reads the readable properties among `ids` and lists them before those `done`, the last one first,
each with its engine identifier. What the host hands out is given back once read. -/
def readProperties (child : Raw → HostM ρ Value) (h : Handle) (done : List (HostId × Identifier × Value)) :
    List HostId → HostM ρ (List (HostId × Identifier × Value))
  | [] => return done
  | id :: rest => do
    match ← Host.getProperty h id with
    | none => readProperties child h done rest
    | some raw =>
      let key ← Host.identifierOf id
      let value ← child raw
      Host.releaseAll raw.handles
      readProperties child h ((id, key, value) :: done) rest

/-- Collects entries, the last one first. Of two with the same identifier the last one counts; the
references of the other are given back. -/
def gather (table : Table Identifier Value) :
    List (Identifier × Value) → HostM ρ (Table Identifier Value)
  | [] => return table
  | (key, value) :: earlier => do
    match table.insertNew? key value with
    | some table => gather table earlier
    | none =>
      Host.releaseAll value.handles
      gather table earlier

/-- The object answers an integer `length`. -/
def hasIntegerLength (h : Handle) : HostM ρ Bool := do
  let id ← Host.intern "length"
  match ← Host.getProperty h id with
  | some (.int32 _) => return true
  | some raw =>
    Host.releaseAll raw.handles
    return false
  | none => return false

/-- An object with integer keys alone is an array if it answers a length that it did not list. -/
def shapeOf (h : Handle) (ids : List HostId) : HostM ρ Shape := do
  if ids.any HostId.isName then return .plain
  if ← hasIntegerLength h then return .array
  return .plain

/-- A bag that stands for an object whose contents are not read. -/
def unexpanded (h : Handle) : HostM ρ (Bag Value) := do
  Host.retainAll [h]
  return Bag.plain.backedBy h

/-- Reads an object; `path` holds the objects being read around it. -/
def readObject (child : Raw → HostM ρ Value) (path : List Handle) (h : Handle) :
    HostM ρ (Bag Value) := do
  if path.contains h then unexpanded h
  else
    match ← Host.propertyIds h with
    | none => unexpanded h
    | some ids =>
      let properties ← readProperties child h [] ids
      let shape ← shapeOf h (properties.map (·.1))
      let table ← gather .empty (properties.map (·.2))
      Host.retainAll [h]
      return ⟨shape, table, some h⟩

/-- Reads a value with room for `room` more containers inside those of `path`. -/
def readAt : Nat → List Handle → Raw → HostM ρ Value
  | _, _, .scalar s => return .scalar s
  | 0, _, .object _ => return .void
  | room + 1, path, .object h => return .object (← readObject (readAt room (h :: path)) path h)

def read (raw : Raw) : HostM ρ Value := readAt depthLimit [] raw

/-- Reads an object as a bag. -/
def readBag (h : Handle) : HostM ρ (Bag Value) := readObject (readAt (depthLimit - 1) [h]) [] h

/-- Reads a value that the host only lends. -/
def readLent (raw : Raw) : HostM ρ Value := do
  Host.retainAll raw.handles
  let value ← read raw
  Host.releaseAll raw.handles
  return value

/-- Reads values that the host only lends. -/
def readAllLent : List Raw → HostM ρ (List Value)
  | [] => return []
  | raw :: rest => return (← readLent raw) :: (← readAllLent rest)

end ScriptBoundary.Marshal
