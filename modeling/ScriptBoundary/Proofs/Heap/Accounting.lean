import ScriptBoundary.Host.Heap
import ScriptBoundary.Proofs.Table

/-!
Accounts of references. A heap is sound for a list of references owned outside of it if the count of
every object is the number of its occurrences in live objects, in the table of expressions and in
that list. Taking, giving back and moving references keeps a heap sound.
-/

namespace ScriptBoundary

variable {ρ : Type}

namespace Heap

/-- The handles written down in live objects and in the table of expressions. -/
def stored (heap : Heap ρ) : List Handle :=
  heap.objects.values.flatMap Entry.contents ++ heap.expressions.values.flatMap Raw.handles

/-- The host has handed out the handle, whether or not its object still lives. -/
def Issued (heap : Heap ρ) (h : Handle) : Prop := 0 < h.number ∧ h.number ≤ heap.lastHandle

def Freed (heap : Heap ρ) (h : Handle) : Prop := heap.Issued h ∧ heap.objects.find? h = none

/-- No object is kept with a count of zero. -/
def Positive (heap : Heap ρ) : Prop := ∀ h e, heap.objects.find? h = some e → 1 ≤ e.refs

structure Ordered (heap : Heap ρ) : Prop where
  objects : heap.objects.Sorted
  props : ∀ {h e}, heap.objects.find? h = some e → e.props.Sorted
  expressions : heap.expressions.Sorted

/-- `gone` are handles whose objects were freed earlier. They may be written down still, and nobody
counts them. -/
structure Sound (gone : Handle → Prop) (heap : Heap ρ) (owned : List Handle) : Prop where
  ordered : heap.Ordered
  positive : heap.Positive
  issued : ∀ {h e}, heap.objects.find? h = some e → heap.Issued h
  freed : ∀ {h}, gone h → heap.Freed h
  accounted : ∀ {h}, ¬ gone h → heap.refs h = heap.stored.count h + owned.count h

theorem refs_of_find? {heap : Heap ρ} {h : Handle} {e : Entry ρ}
    (found : heap.objects.find? h = some e) : heap.refs h = e.refs := by simp [refs, found]

theorem refs_of_absent {heap : Heap ρ} {h : Handle} (absent : heap.objects.find? h = none) :
    heap.refs h = 0 := by simp [refs, absent]

/-! ## What is stored -/

def without (h : Handle) (heap : Heap ρ) : Heap ρ := { heap with objects := heap.objects.erase h }

theorem count_stored_of_perm (heap heap' : Heap ρ) {h : Handle} {e : Entry ρ}
    (objects : heap.objects.entries.Perm ((h, e) :: heap'.objects.entries))
    (expressions : heap.expressions = heap'.expressions) (x : Handle) :
    heap.stored.count x = e.contents.count x + heap'.stored.count x := by
  have contents := ((objects.map (·.2)).flatMap_right Entry.contents).count_eq x
  simp only [List.map_cons, List.flatMap_cons, List.count_append] at contents
  simp only [stored, Table.values, List.count_append, contents, expressions]
  omega

theorem count_stored {heap : Heap ρ} (ordered : heap.Ordered) {h : Handle} {e : Entry ρ}
    (found : heap.objects.find? h = some e) (x : Handle) :
    heap.stored.count x = e.contents.count x + (heap.without h).stored.count x :=
  count_stored_of_perm heap (heap.without h) (Table.perm_erase ordered.objects found) rfl x

theorem count_stored_update {heap : Heap ρ} (ordered : heap.Ordered) {h : Handle} {e : Entry ρ}
    (found : heap.objects.find? h = some e) (f : Entry ρ → Entry ρ) (x : Handle) :
    ({ heap with objects := heap.objects.update h f } : Heap ρ).stored.count x
      = (f e).contents.count x + (heap.without h).stored.count x :=
  count_stored_of_perm { heap with objects := heap.objects.update h f } (heap.without h)
    (Table.perm_update ordered.objects f found) rfl x

theorem count_stored_insert {heap : Heap ρ} (ordered : heap.Ordered) {h : Handle}
    (absent : heap.objects.find? h = none) (e : Entry ρ) (x : Handle) :
    ({ heap with objects := heap.objects.insert h e } : Heap ρ).stored.count x
      = e.contents.count x + heap.stored.count x := by
  have perm := Table.perm_insert ordered.objects h e
  rw [Table.erase_of_absent absent] at perm
  exact count_stored_of_perm { heap with objects := heap.objects.insert h e } heap perm rfl x

theorem mem_stored_of_find? {heap : Heap ρ} {h x : Handle} {e : Entry ρ}
    (found : heap.objects.find? h = some e) (inside : x ∈ e.contents) : x ∈ heap.stored := by
  refine List.mem_append_left _ (List.mem_flatMap.2 ⟨e, ?_, inside⟩)
  exact List.mem_map.2 ⟨(h, e), Table.mem_of_find? found, rfl⟩

/-! ## Giving back references -/

/-- References are given back one after another, as a work list. Wherever a count goes down it was
positive; the last reference frees its object, whose contents come next. -/
inductive Releases : List Handle → Heap ρ → Heap ρ → Prop where
  | done (heap : Heap ρ) : Releases [] heap heap
  | gone {heap heap' : Heap ρ} {h : Handle} {rest : List Handle}
      (absent : heap.objects.find? h = none)
      (next : Releases rest (heap.countRelease h) heap') : Releases (h :: rest) heap heap'
  | last {heap heap' : Heap ρ} {h : Handle} {rest : List Handle} {e : Entry ρ}
      (found : heap.objects.find? h = some e) (one : e.refs = 1)
      (next : Releases (e.contents.reverse ++ rest) ((heap.countRelease h).without h) heap') :
      Releases (h :: rest) heap heap'
  | kept {heap heap' : Heap ρ} {h : Handle} {rest : List Handle} {e : Entry ρ}
      (found : heap.objects.find? h = some e) (more : 1 < e.refs)
      (next : Releases rest
        { heap.countRelease h with
          objects := heap.objects.update h fun e => { e with refs := e.refs - 1 } } heap') :
      Releases (h :: rest) heap heap'

@[simp] theorem releaseAll_nil (heap : Heap ρ) : heap.releaseAll [] = heap := by simp [releaseAll]

/-- A reference that is not the last one is given back and nothing is freed. -/
theorem releaseAll_kept {heap : Heap ρ} {h : Handle} {e : Entry ρ}
    (found : heap.objects.find? h = some e) (more : 1 < e.refs) :
    heap.releaseAll [h] = { heap.countRelease h with
      objects := heap.objects.update h fun e => { e with refs := e.refs - 1 } } := by
  rw [releaseAll]
  split
  next absent => cases found.symm.trans absent
  next e' is =>
    cases found.symm.trans is
    rw [if_neg (Nat.not_le_of_lt more), releaseAll_nil]

theorem positive_without {heap : Heap ρ} (positive : heap.Positive) (h : Handle) :
    (heap.without h).Positive := by
  intro x e found
  simp only [without, Table.find?_erase] at found
  split at found
  · cases found
  · exact positive x e found

theorem positive_update {heap : Heap ρ} (positive : heap.Positive) {h : Handle} {f : Entry ρ → Entry ρ}
    (after : ∀ e, heap.objects.find? h = some e → 1 ≤ (f e).refs) :
    ({ heap with objects := heap.objects.update h f } : Heap ρ).Positive := by
  intro x e found
  simp only [Table.find?_update] at found
  split at found
  next here =>
    subst here
    obtain ⟨before, was, rfl⟩ := Option.map_eq_some_iff.1 found
    exact after before was
  next => exact positive x e found

/-- In a heap without idle objects no count goes below zero, whatever is given back. -/
theorem releases_releaseAll {heap : Heap ρ} (positive : heap.Positive) (pending : List Handle) :
    Releases pending heap (heap.releaseAll pending) := by
  fun_induction releaseAll pending heap with
  | case1 heap => exact .done heap
  | case2 heap h rest absent ih => exact .gone absent (ih positive)
  | case3 heap h rest e found few ih =>
    have one : e.refs = 1 := Nat.le_antisymm few (positive h e found)
    exact .last found one (ih (positive_without positive h))
  | case4 heap h rest e found many ih =>
    refine .kept found (by omega) (ih (positive_update positive ?_))
    intro e' found'
    have same : e' = e := Option.some.inj (found'.symm.trans found)
    simp only [same]
    omega

/-! ## Soundness -/

variable {gone : Handle → Prop} {heap : Heap ρ} {owned owned' : List Handle}

/-- Only the number of references to each object matters, not who owns them. -/
theorem Sound.congr (sound : heap.Sound gone owned)
    (same : ∀ h, owned.count h = owned'.count h) : heap.Sound gone owned' :=
  { sound with accounted := fun alive => by rw [sound.accounted alive, same] }

theorem Sound.perm (sound : heap.Sound gone owned) (perm : owned.Perm owned') :
    heap.Sound gone owned' := sound.congr fun h => perm.count_eq h

/-- A handle that is owned or written down is that of a live object, unless it was gone before. -/
theorem Sound.live_of_mem (sound : heap.Sound gone owned) {h : Handle}
    (inside : h ∈ heap.stored ++ owned) : gone h ∨ ∃ e, heap.objects.find? h = some e := by
  by_cases was : gone h
  · exact .inl was
  · right
    have counted := sound.accounted was
    have some_ : 0 < (heap.stored ++ owned).count h := List.count_pos_iff.2 inside
    rw [List.count_append] at some_
    cases found : heap.objects.find? h with
    | some e => exact ⟨e, rfl⟩
    | none => rw [refs_of_absent found] at counted; omega

/-- Nothing but the objects, the expressions and the last handle matters. -/
theorem Sound.of_eq {heap' : Heap ρ} (sound : heap.Sound gone owned)
    (objects : heap'.objects = heap.objects) (expressions : heap'.expressions = heap.expressions)
    (last : heap'.lastHandle = heap.lastHandle) : heap'.Sound gone owned := by
  obtain ⟨objects', last', names', expressions', releases', exceptions'⟩ := heap'
  subst objects expressions last
  exact ⟨⟨sound.ordered.objects, sound.ordered.props, sound.ordered.expressions⟩, sound.positive,
    sound.issued, sound.freed, sound.accounted⟩

/-- An object changes. What it holds more than before was owned, and what it holds no longer is owned
from now on. -/
theorem Sound.update (sound : heap.Sound gone owned) {h : Handle} {e : Entry ρ}
    (found : heap.objects.find? h = some e) (f : Entry ρ → Entry ρ) (sorted : (f e).props.Sorted)
    (positive : 1 ≤ (f e).refs)
    (balance : ∀ x, (f e).contents.count x + owned'.count x + (if x = h then e.refs else 0)
      = e.contents.count x + owned.count x + (if x = h then (f e).refs else 0)) :
    ({ heap with objects := heap.objects.update h f } : Heap ρ).Sound gone owned' where
  ordered :=
    { objects := Table.sorted_update sound.ordered.objects h f
      props := by
        intro x e' found'
        simp only [Table.find?_update] at found'
        split at found'
        next here =>
          subst here
          simp only [found, Option.map_some, Option.some.injEq] at found'
          exact found' ▸ sorted
        next => exact sound.ordered.props found'
      expressions := sound.ordered.expressions }
  positive := by
    apply positive_update sound.positive
    intro e' found'
    rw [found] at found'
    cases found'
    exact positive
  issued := by
    intro x e' found'
    simp only [Table.find?_update] at found'
    split at found'
    next here =>
      subst here
      exact (sound.issued found : heap.Issued x)
    next => exact sound.issued found'
  freed := by
    intro x was
    refine ⟨(sound.freed was).1, ?_⟩
    simp [Table.find?_update, (sound.freed was).2]
  accounted := by
    intro x alive
    have before := sound.accounted alive
    have balanced := balance x
    rw [count_stored sound.ordered found] at before
    rw [count_stored_update sound.ordered found]
    by_cases here : x = h
    · subst here
      simp only [refs, Table.find?_update, found, if_true, Option.map_some, Option.elim_some]
        at before balanced ⊢
      omega
    · simp only [refs, Table.find?_update, here, if_false] at before balanced ⊢
      omega

theorem not_issued_next (heap : Heap ρ) : ¬ heap.Issued ⟨heap.lastHandle + 1⟩ := by
  rintro ⟨_, known⟩
  exact absurd known (Nat.not_succ_le_self _)

/-- The next handle was never used. -/
theorem Sound.absent_next (sound : heap.Sound gone owned) :
    heap.objects.find? ⟨heap.lastHandle + 1⟩ = none := by
  cases found : heap.objects.find? ⟨heap.lastHandle + 1⟩ with
  | none => rfl
  | some e => exact absurd (sound.issued found) (not_issued_next heap)

/-- A new object. What it holds was owned, and its caller owns one reference to it. -/
theorem Sound.alloc {form : Form ρ}
    (sound : heap.Sound gone (form.elements.filterMap Raw.handle? ++ owned)) :
    (heap.alloc form).2.Sound gone ((heap.alloc form).1 :: owned) := by
  have absent := sound.absent_next
  have fresh : ¬ gone ⟨heap.lastHandle + 1⟩ := fun was => not_issued_next heap (sound.freed was).1
  constructor
  case ordered =>
    refine ⟨Table.sorted_insert sound.ordered.objects _ _, ?_, sound.ordered.expressions⟩
    intro x e found
    simp only [Heap.alloc, Table.find?_insert] at found
    split at found
    · cases found
      exact Table.sorted_empty
    · exact sound.ordered.props found
  case positive =>
    intro x e found
    simp only [Heap.alloc, Table.find?_insert] at found
    split at found
    · cases found
      exact Nat.le_refl 1
    · exact sound.positive x e found
  case issued =>
    intro x e found
    simp only [Heap.alloc, Table.find?_insert] at found
    split at found
    next here => subst here; exact ⟨Nat.succ_pos _, Nat.le_refl _⟩
    next =>
      have := sound.issued found
      exact ⟨this.1, Nat.le_succ_of_le this.2⟩
  case freed =>
    intro x was
    have := sound.freed was
    refine ⟨⟨this.1.1, Nat.le_succ_of_le this.1.2⟩, ?_⟩
    have other : x ≠ ⟨heap.lastHandle + 1⟩ := fun here => fresh (here ▸ was)
    simp [Heap.alloc, Table.find?_insert, other, this.2]
  case accounted =>
    intro x alive
    have before := sound.accounted alive
    have stored := count_stored_insert sound.ordered absent
      ⟨1, form, .empty⟩ x
    change heap.refs x = _ at before
    change ({ heap with objects := heap.objects.insert _ _ } : Heap ρ).refs x
      = ({ heap with objects := heap.objects.insert _ _ } : Heap ρ).stored.count x + _
    rw [stored]
    by_cases here : x = ⟨heap.lastHandle + 1⟩
    · subst here
      rw [refs_of_absent absent] at before
      simp [refs, Heap.alloc, Entry.contents, Table.values, Table.empty] at before ⊢
      omega
    · simp [refs, Heap.alloc, Table.find?_insert, here, Entry.contents, Table.values, Table.empty,
        Ne.symm here] at before ⊢
      omega

theorem find?_retain (heap : Heap ρ) (h x : Handle) :
    (heap.retain h).objects.find? x
      = if x = h then (heap.objects.find? x).map fun e => { e with refs := e.refs + 1 }
        else heap.objects.find? x := Table.find?_update _ _ _ _

theorem Sound.retain (sound : heap.Sound gone owned) {h : Handle}
    (live : gone h ∨ ∃ e, heap.objects.find? h = some e) : (heap.retain h).Sound gone (h :: owned) := by
  rcases live with was | ⟨e, found⟩
  · have absent := (sound.freed was).2
    have same : (heap.retain h) = heap := by
      simp [Heap.retain, Table.update_of_absent _ absent]
    rw [same]
    refine { sound with accounted := fun {x} alive => ?_ }
    have other : h ≠ x := fun here => alive (here ▸ was)
    rw [sound.accounted alive, List.count_cons_of_ne other]
  · refine sound.update found (fun e => { e with refs := e.refs + 1 })
      (sound.ordered.props found : e.props.Sorted) (Nat.le_add_left 1 _) fun x => ?_
    by_cases here : x = h
    · subst here
      simp [Entry.contents]
      omega
    · simp [here, Entry.contents, Ne.symm here]

theorem find?_retainAll (heap : Heap ρ) (hs : List Handle) (x : Handle) :
    (heap.retainAll hs).objects.find? x
      = (heap.objects.find? x).map fun e => { e with refs := e.refs + hs.count x } := by
  induction hs generalizing heap with
  | nil => simp [Heap.retainAll]
  | cons h rest ih =>
    change ((heap.retain h).retainAll rest).objects.find? x = _
    rw [ih, find?_retain]
    by_cases here : x = h
    · subst here
      simp [Option.map_map, Function.comp_def, Nat.add_assoc, Nat.add_comm 1]
    · simp [here, Ne.symm here]

theorem Sound.retainAll {hs : List Handle} (sound : heap.Sound gone owned)
    (live : ∀ h ∈ hs, gone h ∨ ∃ e, heap.objects.find? h = some e) :
    (heap.retainAll hs).Sound gone (hs ++ owned) := by
  induction hs generalizing heap owned with
  | nil => exact sound
  | cons h rest ih =>
    obtain ⟨first, others⟩ := List.forall_mem_cons.1 live
    have next := ih (sound.retain first) fun x inside => by
      apply (others x inside).imp_right
      rintro ⟨e, found⟩
      simp only [find?_retain, found]
      split <;> exact ⟨_, rfl⟩
    exact next.perm List.perm_middle

theorem Sound.without {h : Handle} (sound : heap.Sound gone (h :: owned)) {e : Entry ρ}
    (found : heap.objects.find? h = some e) (one : e.refs = 1) :
    (heap.without h).Sound gone (e.contents ++ owned) := by
  constructor
  case ordered =>
    refine ⟨Table.sorted_erase sound.ordered.objects h, fun {x e'} found' => ?_,
      sound.ordered.expressions⟩
    simp only [Heap.without, Table.find?_erase] at found'
    split at found'
    · cases found'
    · exact sound.ordered.props found'
  case positive => exact positive_without sound.positive h
  case issued =>
    intro x e' found'
    simp only [Heap.without, Table.find?_erase] at found'
    split at found'
    · cases found'
    · exact sound.issued found'
  case freed =>
    intro x was
    refine ⟨(sound.freed was).1, ?_⟩
    simp [Heap.without, Table.find?_erase, (sound.freed was).2]
  case accounted =>
    intro x alive
    have before := sound.accounted alive
    rw [count_stored sound.ordered found] at before
    rw [List.count_append]
    by_cases here : x = h
    · subst here
      rw [refs_of_find? found] at before
      simp [refs, Heap.without, Table.find?_erase] at before ⊢
      omega
    · simp [refs, Heap.without, Table.find?_erase, here, Ne.symm here] at before ⊢
      omega

/-! One turn of the work list, by what became of the object. -/

theorem Sound.releaseGone {h : Handle} (sound : heap.Sound gone (h :: owned))
    (absent : heap.objects.find? h = none) : (heap.countRelease h).Sound gone owned := by
  have was : gone h := by
    rcases sound.live_of_mem (List.mem_append_right _ List.mem_cons_self) with was | ⟨e, found⟩
    · exact was
    · rw [absent] at found
      cases found
  have counted : (heap.countRelease h).Sound gone (h :: owned) := sound.of_eq rfl rfl rfl
  refine { counted with accounted := fun {x} alive => ?_ }
  have other : h ≠ x := fun here => alive (here ▸ was)
  rw [counted.accounted alive, List.count_cons_of_ne other]

theorem Sound.releaseLast {h : Handle} {e : Entry ρ} (sound : heap.Sound gone (h :: owned))
    (found : heap.objects.find? h = some e) (one : e.refs = 1) :
    ((heap.countRelease h).without h).Sound gone (e.contents.reverse ++ owned) := by
  have counted : (heap.countRelease h).Sound gone (h :: owned) := sound.of_eq rfl rfl rfl
  exact (counted.without found one).congr fun x => by simp

theorem Sound.releaseKept {h : Handle} {e : Entry ρ} (sound : heap.Sound gone (h :: owned))
    (found : heap.objects.find? h = some e) (more : 1 < e.refs) :
    ({ heap.countRelease h with
      objects := heap.objects.update h fun e => { e with refs := e.refs - 1 } } : Heap ρ).Sound
      gone owned := by
  have counted : (heap.countRelease h).Sound gone (h :: owned) := sound.of_eq rfl rfl rfl
  refine counted.update found (fun e => { e with refs := e.refs - 1 })
    (sound.ordered.props found : e.props.Sorted) (Nat.le_sub_of_add_le more) fun x => ?_
  by_cases here : x = h
  · subst here
    simp [Entry.contents]
    omega
  · simp [here, Entry.contents, Ne.symm here]

theorem Sound.releases {pending : List Handle} {heap' : Heap ρ} (released : Releases pending heap heap')
    (sound : heap.Sound gone (pending ++ owned)) : heap'.Sound gone owned := by
  induction released with
  | done => exact sound
  | gone absent _ ih => exact ih (sound.releaseGone absent)
  | last found one _ ih => exact ih ((sound.releaseLast found one).congr fun x => by simp)
  | kept found more _ ih => exact ih (sound.releaseKept found more)

theorem Sound.releaseAll {hs : List Handle} (sound : heap.Sound gone (hs ++ owned)) :
    (heap.releaseAll hs).Sound gone owned :=
  Sound.releases (releases_releaseAll sound.positive hs) sound

end Heap

end ScriptBoundary
