import Mathlib.Data.List.Perm.Lattice
import ScriptBoundary.Proofs.Marshal.Holding

/-!
Heaps that grew. New objects are numbered after the old ones, each has one holder, and they hold
handles that were handed over and objects numbered after themselves. So they are all gone once the
references to them are given back, and the old objects are as they were.
-/

namespace ScriptBoundary

variable {ρ : Type}

namespace Heap

/-- What the objects hold that a condition picks out. -/
def within (p : Handle → Bool) (heap : Heap ρ) : List Handle :=
  (heap.objects.entries.filter fun e => p e.1).flatMap fun e => e.2.contents

variable {base heap heap' : Heap ρ} {p q : Handle → Bool} {gone : Handle → Prop} {owned : List Handle}

theorem within_true (heap : Heap ρ) :
    heap.within (fun _ => true) = heap.objects.values.flatMap Entry.contents := by
  rw [within, List.filter_true, Table.values, List.flatMap_map]

/-- Only what is in the objects that are picked out matters. -/
theorem within_perm (sorted : base.objects.Sorted) (sorted' : heap.objects.Sorted)
    (bodies : ∀ h, p h → heap.body? h = base.body? h) : (heap.within p).Perm (base.within p) := by
  have same : ((heap.objects.entries.filter fun e => p e.1).map fun e => (e.1, e.2.body)).Perm
      ((base.objects.entries.filter fun e => p e.1).map fun e => (e.1, e.2.body)) := by
    have distinct {t : Table Handle (Entry ρ)} (sorted : t.Sorted) :
        ((t.entries.filter fun e => p e.1).map fun e => (e.1, e.2.body)).Nodup :=
      List.pairwise_map.2 (((Table.different_of_ascending sorted).filter _).imp
        fun other same => other (Prod.mk.inj same).1)
    refine (List.perm_ext_iff_of_nodup (distinct sorted') (distinct sorted)).2 fun ⟨h, body⟩ => ?_
    have entry {heap : Heap ρ} (sorted : heap.objects.Sorted) :
        (h, body) ∈ (heap.objects.entries.filter fun e => p e.1).map (fun e => (e.1, e.2.body)) ↔
          p h ∧ heap.body? h = some body := by
      simp only [List.mem_map, List.mem_filter, Prod.mk.injEq, body?, Option.map_eq_some_iff]
      constructor
      · rintro ⟨e, ⟨inside, picked⟩, rfl, rfl⟩
        exact ⟨picked, e.2, Table.find?_of_mem sorted inside, rfl⟩
      · rintro ⟨picked, e, found, rfl⟩
        exact ⟨(h, e), ⟨Table.mem_of_find? found, picked⟩, rfl, rfl⟩
    rw [entry sorted', entry sorted]
    exact and_congr_right fun picked => by rw [bodies h picked]
  have held := same.flatMap_right fun b => (b.2.2.values ++ b.2.1.elements).filterMap Raw.handle?
  rw [List.flatMap_map, List.flatMap_map] at held
  exact held

theorem within_eq_nil (none_ : ∀ h e, heap.objects.find? h = some e → p h = false)
    (sorted : heap.objects.Sorted) : heap.within p = [] := by
  rw [within, List.filter_eq_nil_iff.2, List.flatMap_nil]
  intro e inside picked
  rw [none_ e.1 e.2 (Table.find?_of_mem sorted inside)] at picked
  cases picked

theorem within_split (heap : Heap ρ) (p q : Handle → Bool) :
    (heap.within p).Perm
      (heap.within (fun h => p h && q h) ++ heap.within fun h => p h && !q h) := by
  have parts := List.filter_append_perm (fun e => q e.1)
    (heap.objects.entries.filter fun e => p e.1)
  rw [List.filter_filter, List.filter_filter] at parts
  have held := (parts.flatMap_right fun e => e.2.contents).symm
  rw [List.flatMap_append] at held
  simpa only [within, Bool.and_comm] using held

/-- An object and the others. -/
theorem within_perm_contents (sorted : heap.objects.Sorted) {h : Handle} {e : Entry ρ}
    (found : heap.objects.find? h = some e) (picked : p h) :
    (heap.within p).Perm (e.contents ++ (heap.without h).within p) := by
  have perm := (Table.perm_erase sorted found).filter fun e => p e.1
  rw [List.filter_cons_of_pos (by exact picked)] at perm
  exact perm.flatMap_right fun e => e.2.contents

theorem body?_without (heap : Heap ρ) (h x : Handle) :
    (heap.without h).body? x = if x = h then none else heap.body? x := by
  simp only [body?, without, Table.find?_erase]
  split <;> rfl

/-! ## Old objects and new ones -/

/-- What the objects hold that are newer than those of `base`. -/
def fresh (base heap : Heap ρ) : List Handle := heap.within fun h => base.lastHandle < h.number

theorem Extends.stored_perm (more : heap.Extends base.lastHandle base)
    (expressions : heap.expressions = base.expressions) (was : base.Sound gone owned)
    (ordered : heap.Ordered) : heap.stored.Perm (base.stored ++ base.fresh heap) := by
  let old : Handle → Bool := fun h => !decide (base.lastHandle < h.number)
  have oldSame : (heap.within old).Perm (base.within old) :=
    within_perm was.ordered.objects ordered.objects fun h early => more.body h (by simpa [old] using early)
  have oldAll : (base.within old).Perm (base.within fun _ => true) := by
    have split := base.within_split (fun _ => true) old
    have none_ := within_eq_nil (p := fun h => true && !old h) (fun h e found => by
      have := (was.issued found).2
      simpa [old] using this) was.ordered.objects
    rw [none_, List.append_nil] at split
    simpa using split.symm
  have parts := heap.within_split (fun _ => true) old
  rw [within_true] at parts oldAll
  simp only [Bool.true_and, old, Bool.not_not] at parts
  rw [stored, stored, expressions]
  refine ((parts.trans ((oldSame.trans oldAll).append_right _)).append_right _).trans ?_
  rw [List.append_assoc, List.append_assoc]
  exact List.perm_append_comm.append_left _

/-- References that were taken on top of those to the old objects free none of them. -/
theorem Extends.releases {pending : List Handle} (released : Releases pending heap heap')
    (was : base.Sound gone owned) (sound : heap.Sound gone (pending ++ owned))
    (more : heap.Extends base.lastHandle base) (expressions : heap.expressions = base.expressions) :
    heap'.Extends base.lastHandle base := by
  induction released with
  | done => exact more
  | gone absent _ ih =>
    exact ih (sound.releaseGone absent) ⟨more.body, more.names, more.lastHandle⟩ expressions
  | @last heap heap' h rest e found one _ ih =>
    have new : base.lastHandle < h.number := by
      by_contra early
      -- The reference that is given back comes on top of those that were there.
      obtain ⟨e', was', _⟩ := Option.map_eq_some_iff.1
        ((more.body h (Nat.le_of_not_lt early)).symm.trans (by rw [body?, found]; rfl))
      have live : ¬ gone h := fun away => by
        rw [(sound.freed away).2] at found
        cases found
      have before := was.accounted live
      have now := sound.accounted live
      have stored := (more.stored_perm expressions was sound.ordered).count_eq h
      have positive := was.positive h e' was'
      rw [refs_of_find? was'] at before
      rw [refs_of_find? found, one] at now
      simp only [List.cons_append, List.count_cons_self, List.count_append] at now stored
      omega
    refine ih ((sound.releaseLast found one).perm (by simp)) ⟨fun x early => ?_, more.names, more.lastHandle⟩
      expressions
    change ((heap.without h).body? x) = _
    rw [body?_without, if_neg fun here => by
      rw [here] at early
      omega]
    exact more.body x early
  | @kept heap heap' h rest e found many _ ih =>
    refine ih (sound.releaseKept found many) ⟨fun x early => ?_, more.names, more.lastHandle⟩ expressions
    exact ((alike_update_refs heap h fun e => e.refs - 1).objects x).trans (more.body x early)

/-! ## Growth -/

/-- A heap grew out of `base`. The references `held` to it are out, and the handles `handed` were given
to it: together with the new objects, these are what `held` and the new objects hold. -/
structure Grown (base heap : Heap ρ) (held handed : List Handle) : Prop where
  more : heap.Extends base.lastHandle base
  expressions : heap.expressions = base.expressions
  owners : ∃ made, (held ++ base.fresh heap).Perm (handed ++ made) ∧ made.Nodup ∧
    ∀ x ∈ made, base.lastHandle < x.number ∧ x.number ≤ heap.lastHandle
  rising : ∀ {h e}, heap.objects.find? h = some e → base.lastHandle < h.number →
    ∀ x ∈ e.contents, x ∈ handed ∨ h.number < x.number

namespace Grown

variable {held handed held' handed' : List Handle}

theorem refl (sound : base.Sound gone owned) (hs : List Handle) : Grown base base hs hs where
  more := .refl base
  expressions := rfl
  owners := ⟨[], by
    rw [fresh, within_eq_nil (fun h e found => by simpa using (sound.issued found).2)
      sound.ordered.objects], List.nodup_nil, fun _ inside => nomatch inside⟩
  rising found new := absurd (sound.issued found).2 (Nat.not_le_of_lt new)

theorem perm (grown : Grown base heap held handed) (heldPerm : held.Perm held')
    (handedPerm : handed.Perm handed') : Grown base heap held' handed' where
  more := grown.more
  expressions := grown.expressions
  owners := grown.owners.imp fun _ => And.imp_left fun owners =>
    ((heldPerm.append_right _).symm.trans owners).trans (handedPerm.append_right _)
  rising found new x inside := (grown.rising found new x inside).imp_left handedPerm.mem_iff.1

/-- What is held was handed over, or is new. -/
theorem root (grown : Grown base heap held handed) {x : Handle} (inside : x ∈ held) :
    x ∈ handed ∨ base.lastHandle < x.number := by
  obtain ⟨made, owners, _, new⟩ := grown.owners
  rcases List.mem_append.1 (owners.mem_iff.1 (List.mem_append_left _ inside)) with there | there
  · exact .inl there
  · exact .inr (new x there).1

/-- Counts and names may change. -/
theorem alike (grown : Grown base heap held handed) (ordered : heap.Ordered) (ordered' : heap'.Ordered)
    (alike : heap.Alike heap') : Grown base heap' held handed where
  more := (alike.extended _).trans grown.more
  expressions := alike.expressions.trans grown.expressions
  owners := by
    have same : (base.fresh heap').Perm (base.fresh heap) :=
      within_perm ordered.objects ordered'.objects fun h _ => alike.objects h
    rw [alike.lastHandle]
    exact grown.owners.imp fun _ => And.imp_left ((same.append_left _).trans ·)
  rising found new x inside := by
    obtain ⟨e, was, body⟩ := alike.symm_find?_some found
    exact grown.rising was new x (Entry.contents_of_body body ▸ inside)

/-- An empty object is made. -/
theorem alloc (grown : Grown base heap held handed) (sound : heap.Sound gone owned) {form : Form ρ}
    (empty : form.elements = []) : Grown base (heap.alloc form).2 ((heap.alloc form).1 :: held) handed where
  more := ((heap.extends_alloc form).mono grown.more.lastHandle).trans grown.more
  expressions := grown.expressions
  owners := by
    obtain ⟨made, owners, distinct, new⟩ := grown.owners
    have early := grown.more.lastHandle
    have added : (base.fresh (heap.alloc form).2).Perm (base.fresh heap) := by
      have perm := Table.perm_insert sound.ordered.objects ⟨heap.lastHandle + 1⟩
        (⟨1, form, .empty⟩ : Entry ρ)
      rw [Table.erase_of_absent sound.absent_next] at perm
      have picked := (perm.filter fun e => decide (base.lastHandle < e.1.number)).flatMap_right
        fun e => e.2.contents
      rw [List.filter_cons_of_pos (by simpa using Nat.lt_succ_of_le early)] at picked
      have nothing : (⟨1, form, .empty⟩ : Entry ρ).contents = [] := by
        simp [Entry.contents, Table.values, Table.empty, empty]
      rw [List.flatMap_cons, nothing] at picked
      exact picked
    refine ⟨⟨heap.lastHandle + 1⟩ :: made, ?_, List.nodup_cons.2 ⟨fun there => ?_, distinct⟩, ?_⟩
    · exact (((added.append_left _).trans owners).cons _).trans List.perm_middle.symm
    · exact absurd (new _ there).2 (Nat.not_succ_le_self _)
    · refine List.forall_mem_cons.2 ⟨⟨Nat.lt_succ_of_le early, Nat.le_refl _⟩, fun x there => ?_⟩
      exact ⟨(new x there).1, Nat.le_succ_of_le (new x there).2⟩
  rising {h e} found new x inside := by
    simp only [Heap.alloc, Table.find?_insert] at found
    split at found
    · cases found
      simp [Entry.contents, Table.values, Table.empty, empty] at inside
    · exact grown.rising found new x inside

/-- A new object takes what was held. -/
theorem move {hs : List Handle} (grown : Grown base heap (hs ++ held) handed) (ordered : heap.Ordered)
    (ordered' : heap'.Ordered) {target : Handle} {e e' : Entry ρ}
    (was : heap.objects.find? target = some e) (is : heap'.objects.find? target = some e')
    (new : base.lastHandle < target.number) (contents : e'.contents.Perm (hs ++ e.contents))
    (others : ∀ x, x ≠ target → heap'.body? x = heap.body? x) (names : heap'.names = heap.names)
    (lastHandle : heap'.lastHandle = heap.lastHandle)
    (expressions : heap'.expressions = heap.expressions)
    (later : ∀ x ∈ hs, x ∈ handed ∨ target.number < x.number) : Grown base heap' held handed where
  more :=
    { body := fun h early => (others h fun here => by
        rw [here] at early
        omega).trans (grown.more.body h early)
      names := names ▸ grown.more.names
      lastHandle := lastHandle ▸ grown.more.lastHandle }
  expressions := expressions.trans grown.expressions
  owners := by
    have before := within_perm_contents (p := fun h => base.lastHandle < h.number) ordered.objects was
      (by simpa using new)
    have after := within_perm_contents (p := fun h => base.lastHandle < h.number) ordered'.objects is
      (by simpa using new)
    have rest : ((heap'.without target).within fun h => base.lastHandle < h.number).Perm
        ((heap.without target).within fun h => base.lastHandle < h.number) := by
      refine within_perm (Table.sorted_erase ordered.objects _) (Table.sorted_erase ordered'.objects _) ?_
      intro h _
      rw [body?_without, body?_without]
      split
      · rfl
      next other => exact others h other
    have moved : (base.fresh heap').Perm (hs ++ base.fresh heap) := by
      refine after.trans ((contents.append rest).trans ?_)
      rw [List.append_assoc]
      exact before.symm.append_left _
    rw [lastHandle]
    refine grown.owners.imp fun _ => And.imp_left fun owners => ?_
    refine ((moved.append_left _).trans ?_).trans owners
    rw [List.append_assoc]
    exact List.perm_append_comm_assoc _ _ _
  rising {h e₁} found fresh x inside := by
    by_cases here : h = target
    · subst here
      rw [is] at found
      cases found
      rcases List.mem_append.1 (contents.mem_iff.1 inside) with there | there
      · exact later x there
      · exact grown.rising was fresh x there
    · have same := others h here
      rw [body?, found] at same
      obtain ⟨e₀, was₀, body⟩ := Option.map_eq_some_iff.1 same.symm
      exact grown.rising was₀ fresh x (Entry.contents_of_body body ▸ inside)

theorem fresh_trans (first : heap.Extends base.lastHandle base)
    (second : heap'.Extends heap.lastHandle heap) (sound : heap.Sound gone owned)
    (ordered' : heap'.Ordered) : (base.fresh heap').Perm (heap.fresh heap' ++ base.fresh heap) := by
  let p : Handle → Bool := fun h => base.lastHandle < h.number
  let q : Handle → Bool := fun h => heap.lastHandle < h.number
  have newest : (fun h => p h && q h) = q := by
    funext h
    have := first.lastHandle
    simp only [p, q, Bool.and_eq_right_iff_imp, decide_eq_true_eq]
    omega
  have none_ : heap.within q = [] :=
    within_eq_nil (fun h e found => by simpa [q] using (sound.issued found).2) sound.ordered.objects
  have before := heap.within_split p q
  have after := heap'.within_split p q
  rw [newest] at before after
  rw [none_, List.nil_append] at before
  have kept : (heap'.within fun h => p h && !q h).Perm (heap.within fun h => p h && !q h) :=
    within_perm sound.ordered.objects ordered'.objects fun h picked => second.body h (by
      simp only [p, q, Bool.and_eq_true, Bool.not_eq_true', decide_eq_false_iff_not] at picked
      omega)
  exact after.trans ((kept.trans before.symm).append_left _)

/-- Growth goes on. -/
theorem trans (second : Grown heap heap' held' handed') (first : Grown base heap held handed)
    (sound : heap.Sound gone owned) (ordered' : heap'.Ordered) :
    Grown base heap' (held' ++ held) (handed' ++ handed) where
  more := (second.more.mono first.more.lastHandle).trans first.more
  expressions := second.expressions.trans first.expressions
  owners := by
    obtain ⟨made, owners, distinct, new⟩ := first.owners
    obtain ⟨made', owners', distinct', new'⟩ := second.owners
    have both := fresh_trans first.more second.more sound ordered'
    refine ⟨made' ++ made, List.perm_iff_count.2 fun x => ?_, List.nodup_append.2
      ⟨distinct', distinct, fun x there y here same => ?_⟩, fun x inside => ?_⟩
    · have := owners.count_eq x
      have := owners'.count_eq x
      have := both.count_eq x
      simp only [List.count_append] at *
      omega
    · have := new' x there
      have := new y here
      rw [same] at *
      omega
    · have := first.more.lastHandle
      have := second.more.lastHandle
      rcases List.mem_append.1 inside with there | here
      · have := new' x there
        omega
      · have := new x here
        omega
  rising {h e} found new x inside := by
    by_cases early : h.number ≤ heap.lastHandle
    · have same := second.more.body h early
      rw [body?, found] at same
      obtain ⟨e', was, body⟩ := Option.map_eq_some_iff.1 same.symm
      exact (first.rising was new x (Entry.contents_of_body body ▸ inside)).imp_left
        (List.mem_append_right _)
    · exact (second.rising found (Nat.lt_of_not_le early) x inside).imp_left (List.mem_append_left _)

/-! What was handed over is old. -/

theorem count_old (grown : Grown base heap held handed) {h : Handle}
    (old : h.number ≤ base.lastHandle) : (held ++ base.fresh heap).count h = handed.count h := by
  obtain ⟨made, owners, _, new⟩ := grown.owners
  have none_ : made.count h = 0 := List.count_eq_zero_of_not_mem fun there => by
    have := (new h there).1
    omega
  rw [owners.count_eq, List.count_append, none_, Nat.add_zero]

section Handed

variable (grown : Grown base heap held handed) (was : base.Sound gone owned)
  (sound : heap.Sound gone (held ++ owned))
include grown was sound

theorem refs {h : Handle} (lives : ¬ gone h) :
    heap.refs h = base.refs h + (held ++ base.fresh heap).count h := by
  have stored := (grown.more.stored_perm grown.expressions was sound.ordered).count_eq h
  have before := was.accounted lives
  have now := sound.accounted lives
  simp only [List.count_append] at *
  omega

/-- An old object counts once more for each time that it was handed over. -/
theorem find?_old {h : Handle} (old : h.number ≤ base.lastHandle) :
    heap.objects.find? h
      = (base.objects.find? h).map fun e => { e with refs := e.refs + handed.count h } := by
  have body := grown.more.body h old
  cases found : base.objects.find? h with
  | none =>
    rw [body?, body?, found] at body
    exact Option.map_eq_none_iff.1 body
  | some e =>
    rw [body?, body?, found] at body
    obtain ⟨⟨refs', form', props'⟩, is, same⟩ := Option.map_eq_some_iff.1 body
    have lives : ¬ gone h := fun away => by
      rw [(was.freed away).2] at found
      cases found
    have refs := grown.refs was sound lives
    rw [refs_of_find? is, refs_of_find? found, grown.count_old old] at refs
    obtain ⟨refs₀, form, props⟩ := e
    cases same
    simp only at refs
    rw [is, refs]
    rfl

variable (early : ∀ x ∈ handed, x.number ≤ base.lastHandle)
include early

/-- A new object has one holder. -/
theorem refs_new {h : Handle} {e : Entry ρ} (new : base.lastHandle < h.number)
    (found : heap.objects.find? h = some e) :
    e.refs = 1 ∧ (held ++ base.fresh heap).count h = 1 := by
  have lives : ¬ gone h := fun away => by
    rw [(sound.freed away).2] at found
    cases found
  have never : base.objects.find? h = none := by
    cases there : base.objects.find? h with
    | none => rfl
    | some e => exact absurd (was.issued there).2 (Nat.not_le_of_lt new)
  have counted := grown.refs was sound lives
  obtain ⟨made, owners, distinct, _⟩ := grown.owners
  have once := List.nodup_iff_count_le_one.1 distinct h
  have notHanded : handed.count h = 0 := List.count_eq_zero_of_not_mem fun there => by
    have := early h there
    omega
  have positive := sound.positive h e found
  rw [refs_of_find? found, refs_of_absent never] at counted
  have shared := owners.count_eq h
  rw [List.count_append, List.count_append, notHanded] at shared
  rw [List.count_append] at counted ⊢
  omega

/-- Once the references to them are given back the new objects are gone, and the old ones are as they
were. -/
theorem released (h : Handle) :
    (heap.releaseAll held).objects.find? h = base.objects.find? h := by
  have left {x : Handle} {e : Entry ρ} (found : (heap.releaseAll held).objects.find? x = some e) :
      ∃ e', heap.objects.find? x = some e' ∧ e.body = e'.body := find?_releaseAll found
  have after := sound.releaseAll
  have more := grown.more.releases (releases_releaseAll sound.positive held) was sound grown.expressions
  have expressions := (heap.expressions_releaseAll held).trans grown.expressions
  generalize heap.releaseAll held = heap' at left after more expressions
  have stored := (more.stored_perm expressions was after.ordered).count_eq
  -- A new object would be held by another one, with a lesser number.
  have none_ : ∀ n, ∀ h : Handle, h.number = n → base.lastHandle < n → heap'.objects.find? h = none := by
    intro n
    induction n using Nat.strongRecOn with
    | ind n ih =>
      intro h number new
      subst number
      cases found : heap'.objects.find? h with
      | none => rfl
      | some e =>
        exfalso
        have lives : ¬ gone h := fun away => by
          rw [(after.freed away).2] at found
          cases found
        have never : ¬ base.Issued h := fun issued => absurd issued.2 (Nat.not_le_of_lt new)
        have was_ := was.accounted lives
        have is := after.accounted lives
        have positive := after.positive h e found
        rw [refs_of_absent (Option.eq_none_iff_forall_not_mem.2 fun e there =>
          never (was.issued there))] at was_
        rw [refs_of_find? found, stored, List.count_append] at is
        have holder : h ∈ base.fresh heap' := List.count_pos_iff.1 (by omega)
        obtain ⟨⟨x, d⟩, there, holds⟩ := List.mem_flatMap.1 holder
        obtain ⟨there, fresh⟩ := List.mem_filter.1 there
        have live := Table.find?_of_mem after.ordered.objects there
        obtain ⟨d', live', body⟩ := left live
        have fresh : base.lastHandle < x.number := by simpa using fresh
        rcases grown.rising live' fresh h (Entry.contents_of_body body ▸ holds) with there | before
        · exact absurd (early h there) (Nat.not_le_of_lt new)
        · rw [ih x.number before x rfl fresh] at live
          cases live
  by_cases old : h.number ≤ base.lastHandle
  · have nothing : base.fresh heap' = [] :=
      within_eq_nil (fun x e found => by
        by_contra new
        rw [none_ _ x rfl (by simpa using new)] at found
        cases found) after.ordered.objects
    have grown' : Grown base heap' [] [] := by
      refine ⟨more, expressions, ⟨[], by rw [nothing], List.nodup_nil, List.forall_mem_nil _⟩, ?_⟩
      intro x e found new
      rw [none_ _ x rfl new] at found
      cases found
    have same := grown'.find?_old was after old
    simpa using same
  · rw [none_ _ h rfl (Nat.lt_of_not_le old)]
    cases found : base.objects.find? h with
    | none => rfl
    | some e => exact absurd (was.issued found).2 old

end Handed

end Grown

end Heap

end ScriptBoundary
