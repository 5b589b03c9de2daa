import ScriptBoundary.Host.Names
import ScriptBoundary.Host.Raw
import ScriptBoundary.Table

/-!
The objects of a host, with a count of the references to each. Giving back the last reference frees
an object and gives back the references its contents held. Code of functions is opaque here.
-/

namespace ScriptBoundary

variable {ρ : Type}

inductive Form (ρ : Type) where
  | plain
  /-- Dense elements. The length is derived from them and is not a property. -/
  | array (elements : Array Raw)
  | function (code : ρ)

namespace Form

def elements : Form ρ → List Raw
  | .array elements => elements.toList
  | _ => []

end Form

structure Entry (ρ : Type) where
  refs : Nat
  form : Form ρ
  props : Table HostId Raw

namespace Entry

/-- The references held by an object: those of its properties in key order, then its elements. -/
def contents (e : Entry ρ) : List Handle :=
  (e.props.values ++ e.form.elements).filterMap Raw.handle?

end Entry

structure Heap (ρ : Type) where
  objects : Table Handle (Entry ρ)
  /-- The number of the newest handle; numbers are never used again. -/
  lastHandle : Nat
  names : Names
  /-- What script expressions evaluate to, by their text without outer parentheses. -/
  expressions : Table String Raw
  /-- How often a reference to each handle was given back, also after the object was freed. -/
  releases : Table Handle Nat
  /-- Script exceptions raised so far. -/
  exceptions : List String

namespace Heap

def empty : Heap ρ := ⟨.empty, 0, .empty, .empty, .empty, []⟩

def isLive (heap : Heap ρ) (h : Handle) : Bool := heap.objects.contains h

/-- Zero once the object is freed. -/
def refs (heap : Heap ρ) (h : Handle) : Nat := (heap.objects.find? h).elim 0 Entry.refs

def releaseCount (heap : Heap ρ) (h : Handle) : Nat := (heap.releases.find? h).getD 0

/-- A new object, with one reference for the caller. -/
def alloc (form : Form ρ) (heap : Heap ρ) : Handle × Heap ρ :=
  let h : Handle := ⟨heap.lastHandle + 1⟩
  (h, { heap with
    objects := heap.objects.insert h ⟨1, form, .empty⟩
    lastHandle := heap.lastHandle + 1 })

/-- Takes a reference; a freed object has none to take. -/
def retain (h : Handle) (heap : Heap ρ) : Heap ρ :=
  { heap with objects := heap.objects.update h fun e => { e with refs := e.refs + 1 } }

def retainAll (hs : List Handle) (heap : Heap ρ) : Heap ρ :=
  hs.foldl (fun heap h => heap.retain h) heap

def countRelease (h : Handle) (heap : Heap ρ) : Heap ρ :=
  { heap with releases := heap.releases.insert h (heap.releaseCount h + 1) }

/-- The number of references held by objects. -/
def held (heap : Heap ρ) : Nat := (heap.objects.values.flatMap Entry.contents).length

theorem held_update_refs (heap : Heap ρ) (h : Handle) (f : Entry ρ → Nat) :
    ({ heap with objects := heap.objects.update h fun e => { e with refs := f e } } : Heap ρ).held
      = heap.held := by
  simp only [held, Table.update, Table.values, List.map_map]
  generalize heap.objects.entries = entries
  induction entries with
  | nil => rfl
  | cons e rest ih =>
    simp only [List.map_cons, List.flatMap_cons, List.length_append, ih, Function.comp]
    split <;> rfl

theorem filter_contents_le (p : Handle × Entry ρ → Bool) (entries : List (Handle × Entry ρ)) :
    (((entries.filter p).map (·.2)).flatMap Entry.contents).length
      ≤ ((entries.map (·.2)).flatMap Entry.contents).length := by
  induction entries with
  | nil => simp
  | cons e rest ih =>
    simp only [List.filter_cons]
    split <;> simp only [List.map_cons, List.flatMap_cons, List.length_append] <;> omega

theorem held_erase {heap : Heap ρ} {h : Handle} {e : Entry ρ} (found : heap.objects.find? h = some e) :
    ({ heap with objects := heap.objects.erase h } : Heap ρ).held + e.contents.length
      ≤ heap.held := by
  simp only [held, Table.erase, Table.values]
  simp only [Table.find?] at found
  generalize heap.objects.entries = entries at found ⊢
  induction entries with
  | nil => simp [Table.lookup] at found
  | cons d rest ih =>
    simp only [Table.lookup] at found
    simp only [List.filter_cons]
    split at found
    next same =>
      cases found
      have := filter_contents_le (fun e => compare h e.1 != .eq) rest
      simp only [same, bne_self_eq_false, Bool.false_eq_true, if_false, List.map_cons,
        List.flatMap_cons, List.length_append]
      omega
    next other =>
      have := ih found
      have kept : (compare h d.1 != .eq) = true := bne_iff_ne.2 other
      simp only [kept, if_true, List.map_cons, List.flatMap_cons, List.length_append]
      omega

/-- Gives back references, the first of the list first. When an object is freed the references in
it come next, the last of its contents first. -/
def releaseAll (pending : List Handle) (heap : Heap ρ) : Heap ρ :=
  match pending with
  | [] => heap
  | h :: rest =>
    match _found : heap.objects.find? h with
    | none => releaseAll rest (heap.countRelease h)
    | some e =>
      if e.refs ≤ 1 then
        releaseAll (e.contents.reverse ++ rest)
          { heap.countRelease h with objects := heap.objects.erase h }
      else
        releaseAll rest
          { heap.countRelease h with
            objects := heap.objects.update h fun e => { e with refs := e.refs - 1 } }
termination_by heap.held + pending.length
decreasing_by
  · simp [countRelease, held]
  · have := held_erase _found
    simp [held] at this ⊢
    omega
  · have := held_update_refs heap h fun e => e.refs - 1
    simp [held] at this ⊢
    omega

def release (h : Handle) (heap : Heap ρ) : Heap ρ := heap.releaseAll [h]

end Heap

end ScriptBoundary
