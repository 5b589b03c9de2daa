import ScriptBoundary.Proofs.Heap.Ownership
import ScriptBoundary.Proofs.Host.Names

/-!
Heaps with the same contents: the same objects with the same properties and elements, whatever their
counts. Names may have been added.
-/

namespace ScriptBoundary

variable {ρ : Type}

/-- What an object holds, without its count. -/
def Entry.body (e : Entry ρ) : Form ρ × Table HostId Raw := (e.form, e.props)

theorem Entry.contents_of_body {e e' : Entry ρ} (same : e.body = e'.body) :
    e.contents = e'.contents := by
  obtain ⟨refs, form, props⟩ := e
  obtain ⟨refs', form', props'⟩ := e'
  cases same
  rfl

namespace Heap

structure Alike (base heap : Heap ρ) : Prop where
  objects : ∀ h, (heap.objects.find? h).map Entry.body = (base.objects.find? h).map Entry.body
  names : heap.names.Extends base.names
  expressions : heap.expressions = base.expressions
  lastHandle : heap.lastHandle = base.lastHandle
  exceptions : heap.exceptions = base.exceptions

variable {base heap : Heap ρ} {gone : Handle → Prop} {owned : List Handle}

theorem Alike.refl (heap : Heap ρ) : heap.Alike heap :=
  ⟨fun _ => rfl, .refl _, rfl, rfl, rfl⟩

theorem Alike.trans {next : Heap ρ} (first : base.Alike heap) (second : heap.Alike next) :
    base.Alike next where
  objects h := (second.objects h).trans (first.objects h)
  names := second.names.trans first.names
  expressions := second.expressions.trans first.expressions
  lastHandle := second.lastHandle.trans first.lastHandle
  exceptions := second.exceptions.trans first.exceptions

theorem Alike.find?_some (alike : base.Alike heap) {h : Handle} {e : Entry ρ}
    (found : base.objects.find? h = some e) :
    ∃ e', heap.objects.find? h = some e' ∧ e'.body = e.body := by
  have same := alike.objects h
  rw [found] at same
  exact Option.map_eq_some_iff.1 same

theorem Alike.find?_none (alike : base.Alike heap) {h : Handle}
    (absent : base.objects.find? h = none) : heap.objects.find? h = none := by
  have same := alike.objects h
  rwa [absent, Option.map_none, Option.map_eq_none_iff] at same

theorem Alike.symm_find?_some (alike : base.Alike heap) {h : Handle} {e : Entry ρ}
    (found : heap.objects.find? h = some e) :
    ∃ e', base.objects.find? h = some e' ∧ e.body = e'.body := by
  have same := alike.objects h
  rw [found] at same
  obtain ⟨e', was, body⟩ := Option.map_eq_some_iff.1 same.symm
  exact ⟨e', was, body.symm⟩

theorem mem_stored_iff (ordered : heap.Ordered) {x : Handle} :
    x ∈ heap.stored ↔ (∃ h e, heap.objects.find? h = some e ∧ x ∈ e.contents) ∨
      x ∈ heap.expressions.values.flatMap Raw.handles := by
  simp only [stored, List.mem_append, List.mem_flatMap (l := heap.objects.values)]
  constructor
  · rintro (⟨e, inside, holds⟩ | there)
    · obtain ⟨⟨h, e⟩, entry, rfl⟩ := List.mem_map.1 inside
      exact .inl ⟨h, e, Table.find?_of_mem ordered.objects entry, holds⟩
    · exact .inr there
  · rintro (⟨h, e, found, holds⟩ | there)
    · exact .inl ⟨e, List.mem_map.2 ⟨(h, e), Table.mem_of_find? found, rfl⟩, holds⟩
    · exact .inr there

theorem Alike.mem_stored (alike : base.Alike heap) (ordered : heap.Ordered) {x : Handle}
    (inside : x ∈ heap.stored) : x ∈ base.stored := by
  rcases (mem_stored_iff ordered).1 inside with ⟨h, e, found, holds⟩ | there
  · obtain ⟨e', was, body⟩ := alike.symm_find?_some found
    exact mem_stored_of_find? was (Entry.contents_of_body body ▸ holds)
  · exact List.mem_append_right _ (alike.expressions ▸ there)

theorem Alike.stored_mem (alike : base.Alike heap) (ordered : base.Ordered) {x : Handle}
    (inside : x ∈ base.stored) : x ∈ heap.stored := by
  rcases (mem_stored_iff ordered).1 inside with ⟨h, e, found, holds⟩ | there
  · obtain ⟨e', is, body⟩ := alike.find?_some found
    exact mem_stored_of_find? is (Entry.contents_of_body body ▸ holds)
  · exact List.mem_append_right _ (alike.expressions ▸ there)

/-! ## Operations that keep the contents -/

theorem alike_update_refs (heap : Heap ρ) (h : Handle) (f : Entry ρ → Nat) :
    heap.Alike { heap with objects := heap.objects.update h fun e => { e with refs := f e } } where
  objects x := by
    simp only [Table.find?_update]
    split
    · cases heap.objects.find? x <;> rfl
    · rfl
  names := .refl _
  expressions := rfl
  lastHandle := rfl
  exceptions := rfl

theorem alike_retainAll (heap : Heap ρ) (hs : List Handle) : heap.Alike (heap.retainAll hs) := by
  induction hs generalizing heap with
  | nil => exact .refl heap
  | cons h rest ih => exact (alike_update_refs heap h _).trans (ih _)

theorem alike_withNames (heap : Heap ρ) {names : Names} (more : names.Extends heap.names) :
    heap.Alike { heap with names := names } := ⟨fun _ => rfl, more, rfl, rfl, rfl⟩

theorem alike_intern (heap : Heap ρ) (text : String) : heap.Alike (heap.intern text).2 :=
  alike_withNames heap (heap.names.extends_intern text)

theorem alike_countRelease (heap : Heap ρ) (h : Handle) : heap.Alike (heap.countRelease h) :=
  ⟨fun _ => rfl, .refl _, rfl, rfl, rfl⟩

/-! Names change only where they are interned, the last handle where an object is made and expressions
where they are defined. -/

/-- Nothing but objects changes when references are taken. -/
theorem exists_retainAll (heap : Heap ρ) (hs : List Handle) : ∃ objects,
    heap.retainAll hs = { heap with objects := objects } := by
  induction hs generalizing heap with
  | nil => exact ⟨heap.objects, rfl⟩
  | cons h rest ih => exact ih (heap.retain h)

/-- Nothing but objects and the counts of what was given back changes when references are given back. -/
theorem exists_releaseAll (heap : Heap ρ) (hs : List Handle) : ∃ objects releases,
    heap.releaseAll hs = { heap with objects := objects, releases := releases } := by
  fun_induction Heap.releaseAll hs heap with
  | case1 heap => exact ⟨heap.objects, heap.releases, rfl⟩
  | case2 heap h rest absent ih => exact ih
  | case3 heap h rest e found few ih => exact ih
  | case4 heap h rest e found many ih => exact ih

/-- A write takes references and gives some back. -/
theorem exists_store (heap : Heap ρ) (target : Handle) (id : HostId) (value : Raw) : ∃ objects releases,
    (heap.store target id value).2 = { heap with objects := objects, releases := releases } := by
  obtain ⟨objects, retained⟩ := heap.exists_retainAll value.handles
  simp only [store, retainValue, retained]
  split
  · split
    · exact ⟨objects, heap.releases, rfl⟩
    · exact exists_releaseAll _ _
  · exact ⟨heap.objects, heap.releases, rfl⟩

theorem names_retainAll (heap : Heap ρ) (hs : List Handle) : (heap.retainAll hs).names = heap.names := by
  obtain ⟨_, is⟩ := heap.exists_retainAll hs
  rw [is]

theorem names_releaseAll (heap : Heap ρ) (hs : List Handle) :
    (heap.releaseAll hs).names = heap.names := by
  obtain ⟨_, _, is⟩ := heap.exists_releaseAll hs
  rw [is]

theorem names_store (heap : Heap ρ) (target : Handle) (id : HostId) (value : Raw) :
    (heap.store target id value).2.names = heap.names := by
  obtain ⟨_, _, is⟩ := heap.exists_store target id value
  rw [is]

theorem lastHandle_retainAll (heap : Heap ρ) (hs : List Handle) :
    (heap.retainAll hs).lastHandle = heap.lastHandle := (alike_retainAll heap hs).lastHandle

theorem lastHandle_releaseAll (heap : Heap ρ) (hs : List Handle) :
    (heap.releaseAll hs).lastHandle = heap.lastHandle := by
  obtain ⟨_, _, is⟩ := heap.exists_releaseAll hs
  rw [is]

theorem lastHandle_store (heap : Heap ρ) (target : Handle) (id : HostId) (value : Raw) :
    (heap.store target id value).2.lastHandle = heap.lastHandle := by
  obtain ⟨_, _, is⟩ := heap.exists_store target id value
  rw [is]

theorem expressions_releaseAll (heap : Heap ρ) (hs : List Handle) :
    (heap.releaseAll hs).expressions = heap.expressions := by
  obtain ⟨_, _, is⟩ := heap.exists_releaseAll hs
  rw [is]

theorem expressions_store (heap : Heap ρ) (target : Handle) (id : HostId) (value : Raw) :
    (heap.store target id value).2.expressions = heap.expressions := by
  obtain ⟨_, _, is⟩ := heap.exists_store target id value
  rw [is]

theorem expressions_pushAll (heap : Heap ρ) (target : Handle) (values : List Raw) :
    (heap.pushAll target values).2.expressions = heap.expressions := by
  simp only [pushAll]
  split <;> exact (alike_retainAll heap _).expressions

/-- What lives after references were given back is as it was. -/
theorem find?_releaseAll {heap : Heap ρ} {hs : List Handle} {h : Handle} {e : Entry ρ}
    (left : (heap.releaseAll hs).objects.find? h = some e) :
    ∃ e', heap.objects.find? h = some e' ∧ e.body = e'.body := by
  fun_induction Heap.releaseAll hs heap with
  | case1 heap => exact ⟨e, left, rfl⟩
  | case2 heap k rest absent ih => exact ih left
  | case3 heap k rest freed found few ih =>
    obtain ⟨e', was, same⟩ := ih left
    simp only [Table.find?_erase] at was
    split at was
    · cases was
    · exact ⟨e', was, same⟩
  | case4 heap k rest kept found many ih =>
    obtain ⟨e', was, same⟩ := ih left
    obtain ⟨e'', is, body⟩ := (alike_update_refs heap k fun e => e.refs - 1).symm_find?_some was
    exact ⟨e'', is, same.trans body⟩

theorem alike_of_releases {pending : List Handle} {heap' : Heap ρ} (released : Releases pending heap heap')
    (sound : heap.Sound gone (pending ++ owned))
    (held : ∀ h ∈ pending, h ∈ heap.stored ++ owned) : heap.Alike heap' := by
  induction released with
  | done heap => exact .refl heap
  | @gone heap heap' h rest absent next ih =>
    exact (alike_countRelease heap h).trans
      (ih (sound.releaseGone absent) (List.forall_mem_cons.1 held).2)
  | @last heap heap' h rest e found one next ih =>
    -- The reference itself and the one that is held make two.
    have live : ¬ gone h := fun was => by
      rw [(sound.freed was).2] at found
      cases found
    have counted := sound.accounted live
    have held : 0 < (heap.stored ++ owned).count h :=
      List.count_pos_iff.2 (held h List.mem_cons_self)
    rw [refs_of_find? found] at counted
    simp only [List.cons_append, List.count_cons_self, List.count_append] at counted held
    omega
  | @kept heap heap' h rest e found more next ih =>
    have alike := (alike_countRelease heap h).trans
      (alike_update_refs (heap.countRelease h) h fun e => e.refs - 1)
    refine alike.trans (ih (sound.releaseKept found more) fun x inside => ?_)
    rcases List.mem_append.1 (held x (List.mem_cons_of_mem _ inside)) with there | there
    · exact List.mem_append_left _ (alike.stored_mem sound.ordered there)
    · exact List.mem_append_right _ there

/-- References that are not the last ones to their objects can be given back without a change. -/
theorem Sound.alike_releaseAll {hs : List Handle} (sound : heap.Sound gone (hs ++ owned))
    (held : ∀ h ∈ hs, h ∈ heap.stored ++ owned) : heap.Alike (heap.releaseAll hs) :=
  alike_of_releases (releases_releaseAll sound.positive hs) sound held

end Heap

end ScriptBoundary
