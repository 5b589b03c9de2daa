import Mathlib.Algebra.Order.BigOperators.Group.Finset
import Mathlib.Logic.Relation
import Mathlib.Order.Bounds.Basic
import ScriptBoundary.Proofs.Heap.Contents
import ScriptBoundary.Proofs.Host.Ownership

/-!
What giving back references frees. An object goes when every reference to it is one that is given back
or is held by an object that goes as well; the least such set is freed, whatever the order in which
the work list is gone through.
-/

namespace ScriptBoundary

open Relation (ReflTransGen)

variable {ρ : Type}

namespace Heap

/-- What an object holds; nothing, if it does not live. -/
def contentsOf (heap : Heap ρ) (h : Handle) : List Handle :=
  (heap.objects.find? h).elim [] Entry.contents

/-- How often a handle is written down in the objects of a set. -/
def heldIn (heap : Heap ρ) (S : Finset Handle) (x : Handle) : Nat :=
  ∑ h ∈ S, (heap.contentsOf h).count x

/-- Every reference to a live object is one of those that are given back, or is held in the set. -/
structure Unheld (heap : Heap ρ) (given : List Handle) (S : Finset Handle) (x : Handle) : Prop where
  live : heap.isLive x
  refs : heap.refs x = given.count x + heap.heldIn S x

/-- Nothing outside of the set is unheld. -/
def Closed (heap : Heap ρ) (given : List Handle) (S : Finset Handle) : Prop :=
  ∀ x, heap.Unheld given S x → x ∈ S

/-- One turn of the work list. Any reference in it may be the next to be given back. -/
inductive Turn : List Handle × Heap ρ → List Handle × Heap ρ → Prop where
  | gone {pending rest : List Handle} {heap : Heap ρ} {h : Handle} (picks : pending.Perm (h :: rest))
      (absent : heap.objects.find? h = none) : Turn (pending, heap) (rest, heap.countRelease h)
  | last {pending rest : List Handle} {heap : Heap ρ} {h : Handle} {e : Entry ρ}
      (picks : pending.Perm (h :: rest)) (found : heap.objects.find? h = some e) (one : e.refs = 1) :
      Turn (pending, heap) (e.contents.reverse ++ rest, (heap.countRelease h).without h)
  | kept {pending rest : List Handle} {heap : Heap ρ} {h : Handle} {e : Entry ρ}
      (picks : pending.Perm (h :: rest)) (found : heap.objects.find? h = some e) (more : 1 < e.refs) :
      Turn (pending, heap)
        (rest, { heap.countRelease h with
          objects := heap.objects.update h fun e => { e with refs := e.refs - 1 } })

/-! ## Turns come to an end -/

/-- The last in is the first out: one of the orders. -/
theorem turns_of_releases {pending : List Handle} {heap heap' : Heap ρ}
    (released : Releases pending heap heap') : ReflTransGen Turn (pending, heap) ([], heap') := by
  induction released with
  | done => exact .refl
  | gone absent _ ih => exact .head (.gone (.refl _) absent) ih
  | last found one _ ih => exact .head (.last (.refl _) found one) ih
  | kept found more _ ih => exact .head (.kept (.refl _) found more) ih

/-- Every turn takes a reference out of the work list or out of an object that is freed. -/
theorem Turn.less {s t : List Handle × Heap ρ} (turn : Turn s t) :
    t.2.held + t.1.length < s.2.held + s.1.length := by
  cases turn with
  | gone picks absent =>
    have fewer := picks.length_eq
    rw [List.length_cons] at fewer
    simp only [countRelease, held] at fewer ⊢
    omega
  | @last pending rest heap h e picks found one =>
    have fewer := picks.length_eq
    have freed := held_erase found
    rw [List.length_cons] at fewer
    simp only [without, countRelease, held, List.length_append, List.length_reverse] at freed fewer ⊢
    omega
  | @kept pending rest heap h e picks found more =>
    have fewer := picks.length_eq
    have same := held_update_refs heap h fun e => e.refs - 1
    rw [List.length_cons] at fewer
    simp only [held] at same fewer ⊢
    omega

theorem wellFounded_turn : WellFounded fun next state : List Handle × Heap ρ => Turn state next :=
  Subrelation.wf Turn.less (measure fun state : List Handle × Heap ρ => state.2.held + state.1.length).wf

/-- As long as something is left to give back, there is a turn to take. -/
theorem exists_turn {pending : List Handle} {heap : Heap ρ} (positive : heap.Positive)
    (left : pending ≠ []) : ∃ next, Turn (pending, heap) next := by
  obtain ⟨h, rest, rfl⟩ := List.exists_cons_of_ne_nil left
  cases found : heap.objects.find? h with
  | none => exact ⟨_, .gone (.refl _) found⟩
  | some e =>
    rcases (positive h e found).eq_or_lt with one | more
    · exact ⟨_, .last (.refl _) found one.symm⟩
    · exact ⟨_, .kept (.refl _) found more⟩

/-! ## What is held in a set -/

variable {base heap : Heap ρ} {gone : Handle → Prop} {given pending owned : List Handle}
  {freed S T : Finset Handle}

theorem contentsOf_of_body {h : Handle} (same : (heap.objects.find? h).map Entry.body
    = (base.objects.find? h).map Entry.body) : heap.contentsOf h = base.contentsOf h := by
  unfold contentsOf
  cases here : heap.objects.find? h <;> cases there : base.objects.find? h <;>
    simp only [here, there, Option.map_none, Option.map_some, reduceCtorEq, Option.some.injEq] at same
  · rfl
  · exact Entry.contents_of_body same

theorem heldIn_mono (heap : Heap ρ) (inside : S ⊆ T) (x : Handle) : heap.heldIn S x ≤ heap.heldIn T x :=
  Finset.sum_le_sum_of_subset inside

theorem heldIn_insert (heap : Heap ρ) {h : Handle} (new : h ∉ S) (x : Handle) :
    heap.heldIn (insert h S) x = (heap.contentsOf h).count x + heap.heldIn S x := Finset.sum_insert new

/-- What the objects of a set hold is written down in the heap. -/
theorem heldIn_le_stored (ordered : heap.Ordered) (S : Finset Handle) (x : Handle) :
    heap.heldIn S x ≤ heap.stored.count x := by
  induction S using Finset.induction_on generalizing heap with
  | empty => exact Nat.zero_le _
  | @insert h S new ih =>
    rw [heldIn_insert heap new]
    cases found : heap.objects.find? h with
    | none =>
      have nothing : heap.contentsOf h = [] := by simp [contentsOf, found]
      rw [nothing, List.count_nil, Nat.zero_add]
      exact ih ordered
    | some e =>
      have contents : heap.contentsOf h = e.contents := by simp [contentsOf, found]
      have others : (heap.without h).heldIn S x = heap.heldIn S x := by
        refine Finset.sum_congr rfl fun y inside => ?_
        have other : y ≠ h := fun same => new (same ▸ inside)
        simp [contentsOf, without, Table.find?_erase, other]
      have before : (heap.without h).Ordered := by
        refine ⟨Table.sorted_erase ordered.objects h, fun {y e'} found' => ?_, ordered.expressions⟩
        simp only [without, Table.find?_erase] at found'
        split at found'
        · cases found'
        · exact ordered.props found'
      have rest := ih before
      rw [contents, count_stored ordered found, ← others]
      omega

/-- In an account that adds up, references are never fewer than those given back and those held in a set. -/
theorem Sound.le_refs (sound : base.Sound gone (given ++ owned)) (S : Finset Handle) {x : Handle}
    (live : ¬ gone x) : given.count x + base.heldIn S x ≤ base.refs x := by
  have stored := heldIn_le_stored sound.ordered S x
  rw [sound.accounted live, List.count_append]
  omega

/-! ## Along the turns -/

/-- What has become of a heap when some objects are freed and some references are still to be given back. -/
structure Freeing (base : Heap ρ) (given : List Handle) (freed : Finset Handle) (pending : List Handle)
    (heap : Heap ρ) : Prop where
  survivors : ∀ x, x ∉ freed →
    (heap.objects.find? x).map Entry.body = (base.objects.find? x).map Entry.body
  dead : ∀ x ∈ freed, base.isLive x ∧ heap.objects.find? x = none
  /-- What was given back to an object is what it counts less. -/
  refs : ∀ x, base.isLive x →
    heap.refs x + given.count x + base.heldIn freed x = base.refs x + pending.count x
  releases : ∀ x, heap.releaseCount x + pending.count x
    = base.releaseCount x + given.count x + base.heldIn freed x
  least : ∀ S, base.Closed given S → freed ⊆ S
  names : heap.names = base.names
  expressions : heap.expressions = base.expressions
  lastHandle : heap.lastHandle = base.lastHandle
  exceptions : heap.exceptions = base.exceptions

theorem freeing_start (base : Heap ρ) (given : List Handle) : Freeing base given ∅ given base where
  survivors _ _ := rfl
  dead _ inside := absurd inside (Finset.notMem_empty _)
  refs x _ := by simp [heldIn]
  releases x := by simp [heldIn]
  least S _ := Finset.empty_subset S
  names := rfl
  expressions := rfl
  lastHandle := rfl
  exceptions := rfl

theorem releaseCount_countRelease (heap : Heap ρ) (h x : Handle) :
    (heap.countRelease h).releaseCount x = heap.releaseCount x + if x = h then 1 else 0 := by
  unfold countRelease releaseCount
  rw [Table.find?_insert]
  by_cases here : x = h
  · simp [here]
  · simp [here]

theorem count_of_picks {rest : List Handle} {h : Handle} (picks : pending.Perm (h :: rest)) (x : Handle) :
    pending.count x = rest.count x + if x = h then 1 else 0 := by
  rw [picks.count_eq, List.count_cons]
  by_cases here : x = h
  · simp [here]
  · simp [here, Ne.symm here]

theorem live_of_body {x : Handle} {e : Entry ρ} (found : heap.objects.find? x = some e)
    (same : (heap.objects.find? x).map Entry.body = (base.objects.find? x).map Entry.body) :
    base.isLive x := by
  rw [found] at same
  obtain ⟨e', was, _⟩ := Option.map_eq_some_iff.1 same.symm
  exact Table.contains_iff.2 ⟨e', was⟩

namespace Freeing

/-- A reference to an object that is gone changes nothing. -/
theorem releaseGone {rest : List Handle} {h : Handle} (freeing : Freeing base given freed pending heap)
    (picks : pending.Perm (h :: rest)) (absent : ¬ base.isLive h) :
    Freeing base given freed rest (heap.countRelease h) := by
  have less := count_of_picks picks
  constructor
  case survivors => exact freeing.survivors
  case dead => exact freeing.dead
  case refs =>
    intro x live
    have other : x ≠ h := fun same => absent (same ▸ live)
    have before := freeing.refs x live
    rw [less, if_neg other] at before
    exact before
  case releases =>
    intro x
    have before := freeing.releases x
    rw [less] at before
    rw [releaseCount_countRelease]
    omega
  case least => exact freeing.least
  case names => exact freeing.names
  case expressions => exact freeing.expressions
  case lastHandle => exact freeing.lastHandle
  case exceptions => exact freeing.exceptions

theorem releaseKept {rest : List Handle} {h : Handle} {e : Entry ρ}
    (freeing : Freeing base given freed pending heap) (picks : pending.Perm (h :: rest))
    (found : heap.objects.find? h = some e) (more : 1 < e.refs) :
    Freeing base given freed rest { heap.countRelease h with
      objects := heap.objects.update h fun e => { e with refs := e.refs - 1 } } := by
  have less := count_of_picks picks
  have alike := alike_update_refs heap h fun e => e.refs - 1
  constructor
  case survivors => exact fun x outside => (alike.objects x).trans (freeing.survivors x outside)
  case dead =>
    intro x inside
    obtain ⟨live, absent⟩ := freeing.dead x inside
    exact ⟨live, alike.find?_none absent⟩
  case refs =>
    intro x live
    have before := freeing.refs x live
    rw [less] at before
    by_cases here : x = h
    · subst here
      rw [refs_of_find? found] at before
      simp only [Heap.refs, Table.find?_update, found, if_true, Option.map_some, Option.elim_some]
        at before ⊢
      omega
    · simp only [Heap.refs, Table.find?_update, here, if_false] at before ⊢
      omega
  case releases =>
    intro x
    have before := freeing.releases x
    rw [less] at before
    have counted := releaseCount_countRelease heap h x
    change (heap.countRelease h).releaseCount x + _ = _
    omega
  case least => exact freeing.least
  case names => exact freeing.names
  case expressions => exact freeing.expressions
  case lastHandle => exact freeing.lastHandle
  case exceptions => exact freeing.exceptions

/-- The last reference frees its object. By then all references to it were given back or held in what
is freed already, so that it belongs to every closed set. -/
theorem releaseLast {rest : List Handle} {h : Handle} {e : Entry ρ} {gone : Handle → Prop}
    (freeing : Freeing base given freed pending heap) (before : base.Sound gone (given ++ owned))
    (sound : heap.Sound gone (pending ++ owned)) (picks : pending.Perm (h :: rest))
    (found : heap.objects.find? h = some e) (one : e.refs = 1) :
    Freeing base given (insert h freed) (e.contents.reverse ++ rest)
      ((heap.countRelease h).without h) := by
  have less := count_of_picks picks
  have new : h ∉ freed := fun inside => by
    rw [(freeing.dead h inside).2] at found
    cases found
  have live := live_of_body found (freeing.survivors h new)
  have contents : base.contentsOf h = e.contents := by
    rw [← contentsOf_of_body (freeing.survivors h new)]
    simp [contentsOf, found]
  have held (x : Handle) : base.heldIn (insert h freed) x = e.contents.count x + base.heldIn freed x := by
    rw [heldIn_insert base new, contents]
  constructor
  case survivors =>
    intro x outside
    rw [Finset.mem_insert, not_or] at outside
    simp only [without, countRelease, Table.find?_erase, outside.1, if_false]
    exact freeing.survivors x outside.2
  case dead =>
    intro x inside
    simp only [without, countRelease, Table.find?_erase]
    rcases Finset.mem_insert.1 inside with rfl | there
    · exact ⟨live, if_pos rfl⟩
    · obtain ⟨alive, absent⟩ := freeing.dead x there
      refine ⟨alive, ?_⟩
      split
      · rfl
      · exact absent
  case refs =>
    intro x alive
    have counted := freeing.refs x alive
    rw [less] at counted
    rw [held, List.count_append, List.count_reverse]
    by_cases here : x = h
    · subst here
      rw [refs_of_find? found] at counted
      have absent : ((heap.countRelease x).without x).objects.find? x = none := by
        simp [without, Table.find?_erase]
      rw [refs_of_absent absent]
      simp only [if_true] at counted
      omega
    · simp only [Heap.refs, without, countRelease, Table.find?_erase, here, if_false] at counted ⊢
      omega
  case releases =>
    intro x
    have counted := freeing.releases x
    rw [less] at counted
    have released := releaseCount_countRelease heap h x
    rw [held, List.count_append, List.count_reverse]
    change (heap.countRelease h).releaseCount x + _ = _
    omega
  case least =>
    intro S closed
    have inside := freeing.least S closed
    refine Finset.insert_subset (closed h ⟨live, ?_⟩) inside
    have alive : ¬ gone h := fun was => by
      rw [(sound.freed was).2] at found
      cases found
    have counted := freeing.refs h live
    have here := sound.accounted alive
    have atMost := before.le_refs S alive
    have more := heldIn_mono base inside h
    rw [refs_of_find? found, less, if_pos rfl] at counted
    rw [refs_of_find? found, List.count_append, less, if_pos rfl] at here
    omega
  case names => exact freeing.names
  case expressions => exact freeing.expressions
  case lastHandle => exact freeing.lastHandle
  case exceptions => exact freeing.exceptions

/-- Along any turns the account adds up, and what was freed so far had to be. -/
theorem of_turns {gone : Handle → Prop} (before : base.Sound gone (given ++ owned))
    {state : List Handle × Heap ρ} (turns : ReflTransGen Turn (given, base) state) :
    state.2.Sound gone (state.1 ++ owned) ∧ ∃ freed, Freeing base given freed state.1 state.2 := by
  induction turns with
  | refl => exact ⟨before, ∅, freeing_start base given⟩
  | tail _ turn ih =>
    obtain ⟨sound, freed, freeing⟩ := ih
    cases turn with
    | gone picks absent =>
      have picked := sound.perm (picks.append_right owned)
      have dead : ¬ base.isLive _ := fun live => by
        rcases picked.live_of_mem (List.mem_append_right _ List.mem_cons_self) with was | ⟨e, found⟩
        · obtain ⟨e, found⟩ := Table.contains_iff.1 live
          rw [(before.freed was).2] at found
          cases found
        · rw [absent] at found
          cases found
      exact ⟨picked.releaseGone absent, freed, freeing.releaseGone picks dead⟩
    | last picks found one =>
      have picked := sound.perm (picks.append_right owned)
      refine ⟨(picked.releaseLast found one).congr fun x => ?_, _, freeing.releaseLast before sound picks found one⟩
      simp [List.append_assoc]
    | kept picks found more =>
      have picked := sound.perm (picks.append_right owned)
      exact ⟨picked.releaseKept found more, freed, freeing.releaseKept picks found more⟩

end Freeing

/-! ## At the end -/

/-- A heap once references were given back: what is freed is the least set of objects of which nobody
else holds one, and the others are as they were, but for the references that are gone. -/
structure Released (base : Heap ρ) (given : List Handle) (freed : Finset Handle) (heap : Heap ρ) : Prop where
  least : IsLeast {S | base.Closed given S} freed
  dead : ∀ x, x ∈ freed ↔ base.isLive x ∧ ¬ heap.isLive x
  unheld : ∀ x, x ∈ freed ↔ base.Unheld given freed x
  survivors : ∀ x e, base.objects.find? x = some e → x ∉ freed →
    given.count x + base.heldIn freed x < e.refs ∧
      heap.objects.find? x = some { e with refs := e.refs - (given.count x + base.heldIn freed x) }
  absent : ∀ x, ¬ base.isLive x → ¬ heap.isLive x
  releases : ∀ x, heap.releaseCount x = base.releaseCount x + given.count x + base.heldIn freed x
  names : heap.names = base.names
  expressions : heap.expressions = base.expressions
  lastHandle : heap.lastHandle = base.lastHandle
  exceptions : heap.exceptions = base.exceptions

theorem Freeing.released (freeing : Freeing base given freed [] heap) (positive : heap.Positive) :
    Released base given freed heap := by
  have counted {x : Handle} (live : base.isLive x) :
      heap.refs x + given.count x + base.heldIn freed x = base.refs x := freeing.refs x live
  have unheld (x : Handle) : x ∈ freed ↔ base.Unheld given freed x := by
    constructor
    · intro inside
      obtain ⟨live, absent⟩ := freeing.dead x inside
      have given_ := counted live
      rw [refs_of_absent absent] at given_
      exact ⟨live, by omega⟩
    · intro free
      by_contra outside
      have same := freeing.survivors x outside
      obtain ⟨e, was⟩ := Table.contains_iff.1 free.live
      rw [was] at same
      obtain ⟨e', found, _⟩ := Option.map_eq_some_iff.1 same
      have given_ := counted free.live
      have one := positive x e' found
      rw [refs_of_find? found, free.refs] at given_
      omega
  constructor
  case least => exact ⟨fun x free => (unheld x).2 free, fun S closed => freeing.least S closed⟩
  case dead =>
    intro x
    constructor
    · intro inside
      obtain ⟨live, absent⟩ := freeing.dead x inside
      exact ⟨live, by simp [isLive, Table.contains, absent]⟩
    · rintro ⟨live, dead⟩
      by_contra outside
      obtain ⟨e, was⟩ := Table.contains_iff.1 live
      exact dead (live_of_body was (freeing.survivors x outside).symm)
  case unheld => exact unheld
  case survivors =>
    intro x e was outside
    have same := freeing.survivors x outside
    rw [was] at same
    obtain ⟨e', found, body⟩ := Option.map_eq_some_iff.1 same
    have given_ := counted (Table.contains_iff.2 ⟨e, was⟩)
    have one := positive x e' found
    rw [refs_of_find? found, refs_of_find? was] at given_
    refine ⟨by omega, ?_⟩
    rw [found]
    obtain ⟨refs, form, props⟩ := e
    obtain ⟨refs', form', props'⟩ := e'
    cases body
    simp only [Option.some.injEq, Entry.mk.injEq, and_true] at given_ ⊢
    omega
  case absent =>
    intro x dead live
    by_cases inside : x ∈ freed
    · exact dead (freeing.dead x inside).1
    · obtain ⟨e, found⟩ := Table.contains_iff.1 live
      exact dead (live_of_body found (freeing.survivors x inside))
  case releases =>
    intro x
    exact freeing.releases x
  case names => exact freeing.names
  case expressions => exact freeing.expressions
  case lastHandle => exact freeing.lastHandle
  case exceptions => exact freeing.exceptions

/-- Heaps that answer alike. -/
structure Same (heap heap' : Heap ρ) : Prop where
  objects : heap.objects = heap'.objects
  releases : ∀ x, heap.releaseCount x = heap'.releaseCount x
  names : heap.names = heap'.names
  expressions : heap.expressions = heap'.expressions
  lastHandle : heap.lastHandle = heap'.lastHandle
  exceptions : heap.exceptions = heap'.exceptions

/-- What giving back references comes to is determined. -/
theorem Released.unique {heap' : Heap ρ} {freed' : Finset Handle} (released : Released base given freed heap)
    (released' : Released base given freed' heap') (sorted : heap.objects.Sorted)
    (sorted' : heap'.objects.Sorted) : heap.Same heap' := by
  obtain rfl := released.least.unique released'.least
  constructor
  case objects =>
    apply Table.ext_find? sorted sorted'
    intro x
    have absent {heap : Heap ρ} (dead : ¬ heap.isLive x) : heap.objects.find? x = none := by
      simpa [isLive, Table.contains] using dead
    by_cases inside : x ∈ freed
    · rw [absent ((released.dead x).1 inside).2, absent ((released'.dead x).1 inside).2]
    · cases was : base.objects.find? x with
      | none =>
        have dead : ¬ base.isLive x := by simp [isLive, Table.contains, was]
        rw [absent (released.absent x dead), absent (released'.absent x dead)]
      | some e => rw [(released.survivors x e was inside).2, (released'.survivors x e was inside).2]
  case releases => exact fun x => (released.releases x).trans (released'.releases x).symm
  case names => exact released.names.trans released'.names.symm
  case expressions => exact released.expressions.trans released'.expressions.symm
  case lastHandle => exact released.lastHandle.trans released'.lastHandle.symm
  case exceptions => exact released.exceptions.trans released'.exceptions.symm

theorem exists_released {state : List Handle × Heap ρ} (before : base.Sound gone (given ++ owned))
    (turns : ReflTransGen Turn (given, base) state) (done : state.1 = []) :
    state.2.objects.Sorted ∧ ∃ freed, Released base given freed state.2 := by
  obtain ⟨sound, freed, freeing⟩ := Freeing.of_turns before turns
  rw [done] at freeing
  exact ⟨sound.ordered.objects, freed, freeing.released sound.positive⟩

/-- Giving back an owned reference frees exactly the least set of objects of which every reference is the
one that is given back or is held in the set. All others are as they were, but that they count those
references less. The work list may be gone through in any order: it never gets stuck, it comes to an end,
and the end is always the same. -/
theorem release_frees_unheld {h : Handle} (sound : heap.Sound gone (h :: owned)) :
    (∃ freed, Released heap [h] freed (heap.release h)) ∧
    ReflTransGen Turn ([h], heap) ([], heap.release h) ∧
    (∀ pending heap', ReflTransGen Turn ([h], heap) (pending, heap') → pending ≠ [] →
      ∃ next, Turn (pending, heap') next) ∧
    (WellFounded fun next state : List Handle × Heap ρ => Turn state next) ∧
    ∀ heap', ReflTransGen Turn ([h], heap) ([], heap') → heap'.Same (heap.release h) := by
  have before : heap.Sound gone ([h] ++ owned) := sound
  have inOrder := turns_of_releases (releases_releaseAll sound.positive [h])
  obtain ⟨sorted, freed, released⟩ := exists_released before inOrder rfl
  refine ⟨⟨freed, released⟩, inOrder, fun pending heap' turns left => ?_, wellFounded_turn,
    fun heap' turns => ?_⟩
  · exact exists_turn (Freeing.of_turns before turns).1.positive left
  · obtain ⟨sorted', freed', released'⟩ := exists_released before turns rfl
    exact released'.unique released sorted' sorted

/-- An array that holds an object twice gives back both references as it goes, and the object stays for
the reference that is left. -/
theorem release_frees_unheld_of_twice :
    ∃ heap : Heap Unit, heap.Sound (fun _ => False) [⟨2⟩, ⟨1⟩] ∧ heap.contentsOf ⟨2⟩ = [⟨1⟩, ⟨1⟩] ∧
      heap.refs ⟨1⟩ = 3 ∧ (∃ freed, Released heap [⟨2⟩] freed (heap.release ⟨2⟩)) ∧
      ¬ (heap.release ⟨2⟩).isLive ⟨2⟩ ∧ (heap.release ⟨2⟩).refs ⟨1⟩ = 1 := by
  let base : Heap Unit := (Heap.empty.allocArray []).2
  let heap := (base.allocArray [.object ⟨1⟩, .object ⟨1⟩]).2
  have one : base.Sound (fun _ => False) [⟨1⟩] := Ledger.sound_empty.allocArray fun _ inside => nomatch inside
  have sound : heap.Sound (fun _ => False) [⟨2⟩, ⟨1⟩] := by
    apply one.allocArray
    intro h inside
    simp only [List.flatMap_cons, List.flatMap_nil, Raw.handles_object, List.cons_append,
      List.nil_append, List.mem_cons, List.not_mem_nil, or_false, or_self] at inside
    subst inside
    exact .inr ⟨_, rfl⟩
  obtain ⟨released, -, -, -, anyOrder⟩ := release_frees_unheld sound
  have turns : ReflTransGen Turn ([⟨2⟩], heap) ([], _) :=
    .head (.last (.refl _) rfl rfl) <| .head (.kept (.refl _) rfl (by decide)) <|
      .head (.kept (.refl _) rfl (by decide)) .refl
  have objects := (anyOrder _ turns).objects
  refine ⟨heap, sound, rfl, rfl, released, ?_, ?_⟩
  · rw [isLive, ← objects]
    decide
  · rw [refs, ← objects]
    rfl

end Heap

end ScriptBoundary
