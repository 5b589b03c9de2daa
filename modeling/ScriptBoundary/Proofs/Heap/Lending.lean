import ScriptBoundary.Host.EntryPoints
import ScriptBoundary.Proofs.Heap.Contents

/-!
Heaps that differ in their counts alone. A heap that has lent references is the heap it was, but that
each of them counts once more; when they are given back it is as before.
-/

namespace ScriptBoundary

variable {ρ : Type}

namespace Heap

/-- The heap that `base` becomes while the references `held` are out, and names may be added. There is
nothing to count for an object that does not live. -/
structure Lends (base : Heap ρ) (held : List Handle) (heap : Heap ρ) : Prop where
  objects : ∀ h, heap.objects.find? h
    = (base.objects.find? h).map fun e => { e with refs := e.refs + held.count h }
  names : heap.names.Extends base.names
  expressions : heap.expressions = base.expressions
  lastHandle : heap.lastHandle = base.lastHandle
  exceptions : heap.exceptions = base.exceptions

namespace Lends

variable {base heap : Heap ρ} {held hs : List Handle}

theorem refl (heap : Heap ρ) : heap.Lends [] heap :=
  ⟨fun h => by simp, .refl _, rfl, rfl, rfl⟩

theorem alike (lends : base.Lends held heap) : base.Alike heap where
  objects h := by
    rw [lends.objects]
    cases base.objects.find? h <;> rfl
  names := lends.names
  expressions := lends.expressions
  lastHandle := lends.lastHandle
  exceptions := lends.exceptions

theorem congr (lends : base.Lends held heap) {held' : List Handle}
    (same : ∀ h, held.count h = held'.count h) : base.Lends held' heap :=
  { lends with objects := fun h => by rw [lends.objects, same] }

theorem perm (lends : base.Lends held heap) {held' : List Handle} (perm : held.Perm held') :
    base.Lends held' heap := lends.congr fun h => perm.count_eq h

theorem positive (lends : base.Lends held heap) (positive : base.Positive) : heap.Positive := by
  intro h e found
  rw [lends.objects] at found
  obtain ⟨e, was, rfl⟩ := Option.map_eq_some_iff.1 found
  exact Nat.le_add_right_of_le (positive h e was)

theorem withNames (lends : base.Lends held heap) {names : Names} (more : names.Extends heap.names) :
    base.Lends held { heap with names := names } :=
  { lends with names := more.trans lends.names }

theorem intern (lends : base.Lends held heap) (text : String) : base.Lends held (heap.intern text).2 :=
  lends.withNames (heap.names.extends_intern text)

theorem retainAll (lends : base.Lends held heap) (hs : List Handle) :
    base.Lends (hs ++ held) (heap.retainAll hs) where
  objects h := by
    rw [find?_retainAll, lends.objects, Option.map_map]
    congr 1
    funext e
    simp only [Function.comp, List.count_append, Entry.mk.injEq, and_self, and_true]
    omega
  names := (alike_retainAll heap hs).names.trans lends.names
  expressions := (alike_retainAll heap hs).expressions.trans lends.expressions
  lastHandle := (alike_retainAll heap hs).lastHandle.trans lends.lastHandle
  exceptions := (alike_retainAll heap hs).exceptions.trans lends.exceptions

theorem releaseGone {h : Handle} (lends : base.Lends (h :: held) heap)
    (absent : heap.objects.find? h = none) : base.Lends held (heap.countRelease h) := by
  refine { lends with objects := fun x => ?_ }
  have found := lends.objects x
  by_cases here : x = h
  · subst here
    have never : base.objects.find? x = none := Option.map_eq_none_iff.1 (found.symm.trans absent)
    change heap.objects.find? x = _
    rw [absent, never]
    rfl
  · rw [List.count_cons_of_ne (Ne.symm here)] at found
    exact found

theorem releaseKept {h : Handle} (lends : base.Lends (h :: held) heap) :
    base.Lends held { heap.countRelease h with
      objects := heap.objects.update h fun e => { e with refs := e.refs - 1 } } := by
  refine { lends with objects := fun x => ?_ }
  simp only [Table.find?_update, lends.objects]
  split
  next here =>
    subst here
    rw [Option.map_map]
    congr 1
    funext e
    simp
  next other => rw [List.count_cons_of_ne (Ne.symm other)]

/-- What was lent comes back, and frees nothing. -/
theorem releases {heap' : Heap ρ} (released : Releases hs heap heap') (positive : base.Positive)
    (lends : base.Lends (hs ++ held) heap) : base.Lends held heap' := by
  induction released with
  | done => exact lends
  | gone absent _ ih => exact ih (lends.releaseGone absent)
  | @last heap _ h rest e found one _ ih =>
    -- The object's own references and the one that was lent make two.
    rw [lends.objects] at found
    obtain ⟨e', was, rfl⟩ := Option.map_eq_some_iff.1 found
    have := positive h e' was
    simp only [List.cons_append, List.count_cons_self] at one
    omega
  | kept _ _ _ ih => exact ih lends.releaseKept

theorem releaseAll (lends : base.Lends (hs ++ held) heap) (positive : base.Positive) :
    base.Lends held (heap.releaseAll hs) :=
  releases (releases_releaseAll (lends.positive positive) hs) positive lends

/-- Nothing is out, and every object is as it was. -/
theorem restored (lends : base.Lends [] heap) (h : Handle) :
    heap.objects.find? h = base.objects.find? h := by
  rw [lends.objects]
  simp

/-- An object that lives counts each reference that is out. -/
theorem refs (lends : base.Lends held heap) {h : Handle} (live : base.isLive h) :
    heap.refs h = base.refs h + held.count h := by
  obtain ⟨e, found⟩ := Table.contains_iff.1 live
  simp [Heap.refs, lends.objects, found]

end Lends

end Heap

/-- The host while references are out. -/
structure Host.Lends (base : Host ρ) (held : List Handle) (host : Host ρ) : Prop where
  heap : base.heap.Lends held host.heap
  element : host.element = base.element
  failures : host.failures = base.failures

namespace Host.Lends

variable {base host : Host ρ} {held hs : List Handle}

theorem refl (host : Host ρ) : host.Lends [] host := ⟨.refl _, rfl, rfl⟩

theorem withHeap (lends : base.Lends held host) {held' : List Handle} {heap : Heap ρ}
    (next : base.heap.Lends held' heap) : base.Lends held' { host with heap := heap } :=
  ⟨next, lends.element, lends.failures⟩

theorem perm (lends : base.Lends held host) {held' : List Handle} (perm : held.Perm held') :
    base.Lends held' host := { lends with heap := lends.heap.perm perm }

theorem retainAll (lends : base.Lends held host) (hs : List Handle) :
    base.Lends (hs ++ held) ((Host.retainAll hs).run host).2 :=
  lends.withHeap (lends.heap.retainAll hs)

theorem releaseAll (lends : base.Lends (hs ++ held) host) (positive : base.heap.Positive) :
    base.Lends held ((Host.releaseAll hs).run host).2 :=
  lends.withHeap (lends.heap.releaseAll positive)

theorem intern (lends : base.Lends held host) (text : String) :
    base.Lends held ((Host.intern text).run host).2 := lends.withHeap (lends.heap.intern text)

theorem getProperty (lends : base.Lends held host) (h : Handle) (id : HostId) :
    base.Lends ((host.heap.lookup h id).elim [] Raw.handles ++ held)
      ((Host.getProperty h id).run host).2 := lends.retainAll _

end Host.Lends

end ScriptBoundary
