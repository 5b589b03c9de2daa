import Mathlib.Data.List.Basic
import Mathlib.Data.List.Perm.Basic
import ScriptBoundary.Host.Expressions
import ScriptBoundary.Proofs.Heap.Accounting

/-!
What each operation of a heap does to the references: which it takes over from an owner, and which
it hands out to one.
-/

namespace ScriptBoundary

variable {ρ : Type}

@[simp] theorem Raw.handles_scalar (s : Scalar) : (Raw.scalar s).handles = [] := rfl

@[simp] theorem Raw.handles_object (h : Handle) : (Raw.object h).handles = [h] := rfl

theorem flatMap_handles (values : List Raw) :
    values.flatMap Raw.handles = values.filterMap Raw.handle? :=
  (List.filterMap_eq_flatMap_toList _ _).symm

theorem handles_of_elim (value : Option Raw) :
    value.elim [] Raw.handles = value.toList.flatMap Raw.handles := by cases value <;> simp

/-! ## Contents of objects -/

/-- A write puts a value in place of another. -/
theorem setElement_perm (elements : Array Raw) (index : Nat) (value : Raw) :
    ((setElement elements index value).toList ++ elements[index]?.toList).Perm
      (value :: elements.toList ++ List.replicate (index - elements.size) Raw.void) := by
  obtain ⟨elements⟩ := elements
  simp only [setElement, List.size_toArray, List.getElem?_toArray]
  split
  next inside =>
    have fewer : index - elements.length = 0 := by omega
    simp only [List.set_toArray, fewer, List.replicate_zero, List.append_nil,
      List.getElem?_eq_getElem inside, Option.toList_some]
    apply ((List.set_perm_cons_eraseIdx inside value).append_right _).trans
    refine List.Perm.cons _ (List.perm_append_comm.trans ?_)
    exact List.getElem_cons_eraseIdx_perm inside
  next outside =>
    have absent : elements[index]? = none := List.getElem?_eq_none (by omega)
    simp only [absent, Option.toList_none, List.append_nil, Array.toList_push, Array.toList_append,
      Array.toList_replicate]
    exact List.perm_append_singleton _ _

namespace Entry

theorem contents_eq (e : Entry ρ) :
    e.contents = (e.props.values ++ e.form.elements).flatMap Raw.handles :=
  (flatMap_handles _).symm

theorem contents_write {e : Entry ρ} (sorted : e.props.Sorted) (id : HostId) (value : Raw) :
    ((e.write id value).1.contents ++ (e.write id value).2.elim [] Raw.handles).Perm
      (value.handles ++ e.contents) := by
  obtain ⟨refs, form, props⟩ := e
  simp only [contents_eq, handles_of_elim]
  rw [← List.flatMap_append, ← List.flatMap_cons]
  have asProperty : (((props.insert id value).values ++ form.elements
      ++ (props.find? id).toList).flatMap Raw.handles).Perm
        ((value :: (props.values ++ form.elements)).flatMap Raw.handles) := by
    apply List.Perm.flatMap_right _
    have written := (Table.values_insert_perm sorted id value).append_right form.elements
    refine List.Perm.trans ?_ written
    simp only [List.append_assoc]
    exact List.perm_append_comm.append_left _
  cases form with
  | plain => exact asProperty
  | function => exact asProperty
  | array elements =>
    simp only [write]
    cases id.elementIndex? with
    | none => exact asProperty
    | some i =>
      have written := ((setElement_perm elements i value).append_left props.values).flatMap_right
        Raw.handles
      have voids : (List.replicate (i - elements.size) Raw.void).flatMap Raw.handles = [] := by
        simp [List.flatMap_replicate, Raw.handles, Raw.handle?]
      simp only [Form.elements, List.append_assoc, List.flatMap_append, List.flatMap_cons, voids,
        List.append_nil] at written ⊢
      exact written.trans (List.perm_append_comm_assoc _ _ _)

theorem contents_append {values : List Raw} {refs : Nat} {elements : Array Raw}
    {props : Table HostId Raw} :
    (append values (⟨refs, .array elements, props⟩ : Entry ρ)).contents
      = (⟨refs, .array elements, props⟩ : Entry ρ).contents ++ values.flatMap Raw.handles := by
  simp [append, contents_eq, Form.elements]

@[simp] theorem refs_write (e : Entry ρ) (id : HostId) (value : Raw) :
    (e.write id value).1.refs = e.refs := by
  simp only [write]
  split <;> rfl

theorem sorted_write {e : Entry ρ} (sorted : e.props.Sorted) (id : HostId) (value : Raw) :
    (e.write id value).1.props.Sorted := by
  simp only [write]
  split
  · exact sorted
  · exact Table.sorted_insert sorted id value

end Entry

namespace Heap

variable {gone : Handle → Prop} {heap : Heap ρ} {owned : List Handle}

/-! ## Names -/

theorem Sound.withNames (sound : heap.Sound gone owned) (names : Names) :
    ({ heap with names := names } : Heap ρ).Sound gone owned := sound.of_eq rfl rfl rfl

theorem Sound.intern (sound : heap.Sound gone owned) (text : String) :
    (heap.intern text).2.Sound gone owned := sound.withNames _

theorem Sound.key (sound : heap.Sound gone owned) (text : String) :
    (heap.key text).2.Sound gone owned := sound.withNames _

/-! ## Reading -/

theorem mem_stored_of_lookup {target : Handle} {id : HostId} {raw : Raw}
    (found : heap.lookup target id = some raw) {h : Handle} (inside : h ∈ raw.handles) :
    h ∈ heap.stored := by
  simp only [lookup] at found
  split at found
  next => cases found
  next e live =>
    have written : raw ∈ e.props.values ++ e.form.elements := by
      split at found
      next elements array =>
        split at found
        next i _ =>
          have := Array.mem_of_getElem? found
          simp [array, Form.elements, this]
        next =>
          split at found
          · cases found
            simp [Raw.handles, Raw.handle?] at inside
          · exact List.mem_append_left _ (List.mem_map.2 ⟨_, Table.mem_of_find? found, rfl⟩)
      next => exact List.mem_append_left _ (List.mem_map.2 ⟨_, Table.mem_of_find? found, rfl⟩)
    apply mem_stored_of_find? live
    rw [Entry.contents_eq]
    exact List.mem_flatMap.2 ⟨raw, written, inside⟩

theorem Sound.live_of_lookup (sound : heap.Sound gone owned) {target : Handle} {id : HostId}
    {h : Handle} (inside : h ∈ (heap.lookup target id).elim [] Raw.handles) :
    gone h ∨ ∃ e, heap.objects.find? h = some e := by
  cases found : heap.lookup target id with
  | none => rw [found] at inside; cases inside
  | some raw =>
    rw [found] at inside
    exact sound.live_of_mem (List.mem_append_left _ (mem_stored_of_lookup found inside))

/-- Looking up a value and taking a reference to it, as every read does. -/
theorem Sound.retainLookup (sound : heap.Sound gone owned) (target : Handle) (id : HostId) :
    (heap.retainAll ((heap.lookup target id).elim [] Raw.handles)).Sound gone
      ((heap.lookup target id).elim [] Raw.handles ++ owned) :=
  sound.retainAll fun _ inside => sound.live_of_lookup inside

theorem mem_stored_of_expression {text : String} {raw : Raw}
    (found : heap.expressions.find? text = some raw) {h : Handle} (inside : h ∈ raw.handles) :
    h ∈ heap.stored :=
  List.mem_append_right _ (List.mem_flatMap.2
    ⟨raw, List.mem_map.2 ⟨(text, raw), Table.mem_of_find? found, rfl⟩, inside⟩)

theorem Sound.evaluate (sound : heap.Sound gone owned) (target : Handle) (script : String) :
    (heap.evaluate target script).2.Sound gone
      ((heap.evaluate target script).1.elim [] Raw.handles ++ owned) := by
  simp only [Heap.evaluate]
  split
  next value found =>
    exact sound.retainAll fun h inside =>
      sound.live_of_mem (List.mem_append_left _ (mem_stored_of_expression found inside))
  next => exact (sound.key _).retainLookup _ _

/-! ## Writing -/

theorem Sound.write (sound : heap.Sound gone (value.handles ++ owned)) {target : Handle} {e : Entry ρ}
    (found : heap.objects.find? target = some e) (id : HostId) :
    ({ heap with objects := heap.objects.update target fun _ => (e.write id value).1 } : Heap ρ).Sound
      gone ((e.write id value).2.elim [] Raw.handles ++ owned) := by
  have sorted := sound.ordered.props found
  refine sound.update found _ (Entry.sorted_write sorted id value) ?_ fun x => ?_
  · rw [Entry.refs_write]
    exact sound.positive target e found
  · have moved := (Entry.contents_write sorted id value).count_eq x
    simp only [List.count_append, Entry.refs_write] at moved ⊢
    omega

/-- A write borrows the value it is given. -/
theorem Sound.store (sound : heap.Sound gone owned) {value : Raw}
    (live : ∀ h ∈ value.handles, gone h ∨ ∃ e, heap.objects.find? h = some e) (target : Handle)
    (id : HostId) : (heap.store target id value).2.Sound gone owned := by
  simp only [Heap.store]
  split
  next alive =>
    have retained : (heap.retainValue value).Sound gone (value.handles ++ owned) :=
      sound.retainAll live
    split
    next absent =>
      obtain ⟨e, found⟩ := Table.contains_iff.1 alive
      simp [retainValue, find?_retainAll, found] at absent
    next e found => exact (retained.write found id).releaseAll
  next => exact sound

theorem Sound.put (sound : heap.Sound gone owned) {value : Raw}
    (live : ∀ h ∈ value.handles, gone h ∨ ∃ e, heap.objects.find? h = some e) (target : Handle)
    (name : String) : (heap.put target name value).2.Sound gone owned :=
  (sound.key name).store live target _

theorem Sound.define (sound : heap.Sound gone (value.handles ++ owned)) (text : String) :
    ({ heap with expressions := heap.expressions.insert text value } : Heap ρ).Sound gone
      ((heap.expressions.find? text).elim [] Raw.handles ++ owned) where
  ordered :=
    { sound.ordered with
      expressions := Table.sorted_insert sound.ordered.expressions text value }
  positive := sound.positive
  issued := sound.issued
  freed := sound.freed
  accounted := by
    intro x alive
    have before := sound.accounted alive
    have moved := ((Table.values_insert_perm sound.ordered.expressions text value).flatMap_right
      Raw.handles).count_eq x
    simp only [List.flatMap_append, List.flatMap_cons, List.count_append] at moved
    change heap.refs x = _
    simp only [before, stored, List.count_append, handles_of_elim]
    omega

theorem Sound.defineExpression (sound : heap.Sound gone owned) {value : Raw}
    (live : ∀ h ∈ value.handles, gone h ∨ ∃ e, heap.objects.find? h = some e) (script : String) :
    (heap.defineExpression script value).Sound gone owned := by
  have retained : (heap.retainValue value).Sound gone (value.handles ++ owned) := sound.retainAll live
  exact (retained.define (expressionKey script)).releaseAll

/-- An array is made from what it is given to hold, which it borrows. -/
theorem Sound.allocArray (sound : heap.Sound gone owned) {elements : List Raw}
    (live : ∀ h ∈ elements.flatMap Raw.handles, gone h ∨ ∃ e, heap.objects.find? h = some e) :
    (heap.allocArray elements).2.Sound gone ((heap.allocArray elements).1 :: owned) := by
  have retained := sound.retainAll live
  have held : (Form.array elements.toArray : Form ρ).elements.filterMap Raw.handle?
      = elements.flatMap Raw.handles := (flatMap_handles elements).symm
  exact Sound.alloc (held ▸ retained)

theorem elements?_eq_some {heap : Heap ρ} {target : Handle} {elements : Array Raw} :
    heap.elements? target = some elements ↔
      ∃ e, heap.objects.find? target = some e ∧ e.form = .array elements := by
  simp only [elements?]
  constructor
  · intro found
    split at found
    next refs items props live =>
      cases found
      exact ⟨_, live, rfl⟩
    next => cases found
  · rintro ⟨⟨refs, form, props⟩, found, rfl⟩
    simp [found]

theorem handles_pushAll (heap : Heap ρ) (target : Handle) (values : List Raw) :
    (heap.pushAll target values).1.elim [] Raw.handles = [] := by
  simp only [pushAll]
  split <;> rfl

/-- An array borrows what is appended to it. -/
theorem Sound.pushAll (sound : heap.Sound gone owned) {values : List Raw}
    (live : ∀ h ∈ values.flatMap Raw.handles, gone h ∨ ∃ e, heap.objects.find? h = some e)
    {target : Handle} (array : (heap.elements? target).isSome) :
    (heap.pushAll target values).2.Sound gone owned := by
  have retained := sound.retainAll live
  obtain ⟨elements, was⟩ := Option.isSome_iff_exists.1 array
  obtain ⟨⟨refs, form, props⟩, found, rfl⟩ := elements?_eq_some.1 was
  have found' : (heap.retainAll (values.flatMap Raw.handles)).objects.find? target
      = some ⟨refs + (values.flatMap Raw.handles).count target, .array elements, props⟩ := by
    simp [find?_retainAll, found]
  have is : (heap.retainAll (values.flatMap Raw.handles)).elements? target = some elements :=
    elements?_eq_some.2 ⟨_, found', rfl⟩
  simp only [Heap.pushAll, is]
  refine retained.update found' (Entry.append values) ?_ ?_ fun x => ?_
  · exact (sound.ordered.props found : props.Sorted)
  · exact Nat.le_add_right_of_le (sound.positive target _ found)
  · simp only [Entry.contents_append, List.count_append]
    simp only [Entry.append]
    omega

end Heap

end ScriptBoundary
