import ScriptBoundary.Proofs.Heap.Contents
import ScriptBoundary.Proofs.Value

/-!
What a heap looks like once values were built in it. Every bag has an object of its own; the objects of
a value are numbered one after another, a bag before what is in it. Objects that are made later do not
disturb it.
-/

namespace ScriptBoundary

variable {ρ : Type}

namespace Heap

/-- What an object holds, if it lives. -/
def body? (heap : Heap ρ) (h : Handle) : Option (Form ρ × Table HostId Raw) :=
  (heap.objects.find? h).map Entry.body

theorem find?_of_body? {heap : Heap ρ} {h : Handle} {form : Form ρ} {props : Table HostId Raw}
    (body : heap.body? h = some (form, props)) :
    ∃ refs, heap.objects.find? h = some ⟨refs, form, props⟩ := by
  obtain ⟨⟨refs, form', props'⟩, found, same⟩ := Option.map_eq_some_iff.1 body
  cases same
  exact ⟨refs, found⟩

/-- Up to the object `n` nothing has changed but counts; objects and names were added. -/
structure Extends (n : Nat) (heap base : Heap ρ) : Prop where
  body : ∀ h : Handle, h.number ≤ n → heap.body? h = base.body? h
  names : heap.names.Extends base.names
  lastHandle : base.lastHandle ≤ heap.lastHandle

namespace Extends

variable {n m : Nat} {heap base next : Heap ρ}

theorem refl (heap : Heap ρ) : heap.Extends n heap := ⟨fun _ _ => rfl, .refl _, Nat.le_refl _⟩

theorem trans (second : next.Extends n heap) (first : heap.Extends n base) : next.Extends n base where
  body h early := (second.body h early).trans (first.body h early)
  names := second.names.trans first.names
  lastHandle := Nat.le_trans first.lastHandle second.lastHandle

theorem mono (more : heap.Extends m base) (fewer : n ≤ m) : heap.Extends n base :=
  { more with body := fun h early => more.body h (Nat.le_trans early fewer) }

end Extends

theorem Alike.extended {base heap : Heap ρ} (alike : base.Alike heap) (n : Nat) : heap.Extends n base :=
  ⟨fun h _ => alike.objects h, alike.names, Nat.le_of_eq alike.lastHandle.symm⟩

/-- A new object, under the next number. -/
theorem extends_alloc (heap : Heap ρ) (form : Form ρ) :
    (heap.alloc form).2.Extends heap.lastHandle heap := by
  refine ⟨fun h early => ?_, .refl _, Nat.le_succ _⟩
  have other : h ≠ ⟨heap.lastHandle + 1⟩ := fun here => by
    rw [here] at early
    exact absurd early (Nat.not_succ_le_self _)
  rw [body?, alloc, Table.find?_insert_of_ne _ _ other, body?]

theorem body?_alloc (heap : Heap ρ) (form : Form ρ) :
    (heap.alloc form).2.body? ⟨heap.lastHandle + 1⟩ = some (form, .empty) := by
  simp [body?, alloc, Entry.body]

theorem body?_retainAll (heap : Heap ρ) (hs : List Handle) (h : Handle) :
    (heap.retainAll hs).body? h = heap.body? h := (alike_retainAll heap hs).objects h

theorem body?_update (heap : Heap ρ) (target h : Handle) (f : Entry ρ → Entry ρ) :
    ({ heap with objects := heap.objects.update target f } : Heap ρ).body? h
      = if h = target then (heap.objects.find? h).map fun e => (f e).body else heap.body? h := by
  simp only [body?, Table.find?_update]
  split
  · rw [Option.map_map]
    rfl
  · rfl

theorem mem_stored_of_body? {heap : Heap ρ} {h : Handle} {form : Form ρ} {props : Table HostId Raw}
    (body : heap.body? h = some (form, props)) {raw : Raw} (inside : raw ∈ props.values ++ form.elements)
    {x : Handle} (held : x ∈ raw.handles) : x ∈ heap.stored := by
  obtain ⟨refs, found⟩ := find?_of_body? body
  apply mem_stored_of_find? found
  rw [Entry.contents_eq]
  exact List.mem_flatMap.2 ⟨raw, inside, held⟩

/-- An append changes an array and nothing else. -/
theorem body?_pushAll {heap : Heap ρ} {target : Handle} {elements : Array Raw}
    {props : Table HostId Raw} (array : heap.body? target = some (.array elements, props))
    (values : List Raw) (h : Handle) :
    (heap.pushAll target values).2.body? h
      = if h = target then some (.array (elements ++ values), props) else heap.body? h := by
  obtain ⟨refs, found⟩ := find?_of_body? ((body?_retainAll heap _ target).trans array)
  have is : (heap.retainAll (values.flatMap Raw.handles)).elements? target = some elements :=
    elements?_eq_some.2 ⟨_, found, rfl⟩
  simp only [pushAll, is, body?_update, body?_retainAll]
  split
  next here =>
    subst here
    rw [found]
    rfl
  next => rfl

theorem names_pushAll (heap : Heap ρ) (target : Handle) (values : List Raw) :
    (heap.pushAll target values).2.names = heap.names := by
  simp only [pushAll]
  split <;> exact heap.names_retainAll _

theorem lastHandle_pushAll (heap : Heap ρ) (target : Handle) (values : List Raw) :
    (heap.pushAll target values).2.lastHandle = heap.lastHandle := by
  simp only [pushAll]
  split <;> exact heap.lastHandle_retainAll _

/-- A write of a new property changes one object and nothing else. -/
theorem body?_store {heap : Heap ρ} {target : Handle} {props : Table HostId Raw}
    (plain : heap.body? target = some (.plain, props)) {id : HostId} (new : props.find? id = none)
    (value : Raw) (h : Handle) :
    (heap.store target id value).2.body? h
      = if h = target then some (.plain, props.insert id value) else heap.body? h := by
  obtain ⟨refs, found⟩ := find?_of_body? plain
  obtain ⟨refs', found'⟩ := find?_of_body? ((body?_retainAll heap value.handles target).trans plain)
  have live : heap.isLive target := Table.contains_iff.2 ⟨_, found⟩
  simp only [store, live, if_true, retainValue, found', Entry.write, new, Option.elim_none,
    releaseAll_nil, body?_update, body?_retainAll]
  split
  next here =>
    subst here
    rw [found']
    rfl
  next => rfl

/-- One object changed. -/
theorem extends_of_body? {heap base : Heap ρ} {n : Nat} {body : Form ρ × Table HostId Raw}
    (bodies : ∀ h, heap.body? h = if h = ⟨n + 1⟩ then some body else base.body? h)
    (names : heap.names = base.names) (lastHandle : heap.lastHandle = base.lastHandle) :
    heap.Extends n base := by
  refine ⟨fun h early => ?_, names ▸ .refl _, Nat.le_of_eq lastHandle.symm⟩
  have other : h ≠ ⟨n + 1⟩ := fun here => by
    rw [here] at early
    exact absurd early (Nat.not_succ_le_self n)
  rw [bodies, if_neg other]

end Heap

namespace Marshal

/-- The heap holds values as host values, in objects numbered from the first number on to the second. -/
inductive Holds (heap : Heap ρ) : Nat → Nat → List Raw → List Value → Prop where
  | nil (n : Nat) : Holds heap n n [] []
  | scalar {n m : Nat} {raws : List Raw} {vs : List Value} (s : Scalar)
      (rest : Holds heap n m raws vs) : Holds heap n m (.scalar s :: raws) (.scalar s :: vs)
  | array {n k m : Nat} {raws elements : List Raw} {vs : List Value} {b : Bag Value}
      (shape : b.shape = .array) (sorted : b.props.Sorted)
      (body : heap.body? ⟨n + 1⟩ = some (.array elements.toArray, .empty))
      (inside : Holds heap (n + 1) k elements (b.elements .void)) (rest : Holds heap k m raws vs) :
      Holds heap n m (.object ⟨n + 1⟩ :: raws) (.object b :: vs)
  | plain {n k m : Nat} {raws : List Raw} {vs : List Value} {b : Bag Value} {props : Table HostId Raw}
      {fields : List (HostId × Raw)} (shape : b.shape = .plain) (sorted : b.props.Sorted)
      (body : heap.body? ⟨n + 1⟩ = some (.plain, props)) (listed : props.entries.Perm fields)
      (keys : List.Forall₂ (fun f e => heap.names.Denotes f.1 e.1) fields b.props.entries)
      (inside : Holds heap (n + 1) k (fields.map (·.2)) b.props.values)
      (rest : Holds heap k m raws vs) : Holds heap n m (.object ⟨n + 1⟩ :: raws) (.object b :: vs)

namespace Holds

variable {heap heap' : Heap ρ} {n m k : Nat} {raws raws' : List Raw} {vs vs' : List Value}

theorem le (holds : Holds heap n m raws vs) : n ≤ m := by
  induction holds with
  | nil => exact Nat.le_refl _
  | scalar _ _ ih => exact ih
  | array _ _ _ _ _ inside rest => omega
  | plain _ _ _ _ _ _ _ inside rest => omega

theorem length_eq (holds : Holds heap n m raws vs) : raws.length = vs.length := by
  induction holds with
  | nil => rfl
  | scalar _ _ ih => rw [List.length_cons, List.length_cons, ih]
  | array _ _ _ _ _ _ ih => rw [List.length_cons, List.length_cons, ih]
  | plain _ _ _ _ _ _ _ _ ih => rw [List.length_cons, List.length_cons, ih]

/-- Only the objects of the values matter. -/
theorem mono (holds : Holds heap n m raws vs) (names : heap'.names.Extends heap.names)
    (body : ∀ h : Handle, n < h.number → h.number ≤ m → heap'.body? h = heap.body? h) :
    Holds heap' n m raws vs := by
  induction holds with
  | nil n => exact .nil n
  | scalar s _ ih => exact .scalar s (ih body)
  | @array n k m _ _ _ _ shape sorted here inside rest insideHeld restHeld =>
    have := inside.le
    have := rest.le
    refine .array shape sorted ?_ (insideHeld fun h first last => body h ?_ ?_)
      (restHeld fun h first last => body h ?_ ?_)
    · rw [body ⟨n + 1⟩ (Nat.lt_succ_self n) (show n + 1 ≤ m by omega), here]
    all_goals omega
  | @plain n k m _ _ _ _ _ shape sorted here listed keys inside rest insideHeld restHeld =>
    have := inside.le
    have := rest.le
    refine .plain shape sorted ?_ listed (keys.imp fun _ _ => names.denotes)
      (insideHeld fun h first last => body h ?_ ?_) (restHeld fun h first last => body h ?_ ?_)
    · rw [body ⟨n + 1⟩ (Nat.lt_succ_self n) (show n + 1 ≤ m by omega), here]
    all_goals omega

theorem extended (holds : Holds heap n m raws vs) (more : heap'.Extends m heap) :
    Holds heap' n m raws vs := holds.mono more.names fun h _ last => more.body h last

theorem alike (holds : Holds heap n m raws vs) (alike : heap.Alike heap') : Holds heap' n m raws vs :=
  holds.extended (alike.extended m)

/-- One object changed, before those of the values. -/
theorem changed {body : Form ρ × Table HostId Raw} (holds : Holds heap (n + 1) m raws vs)
    (bodies : ∀ h, heap'.body? h = if h = ⟨n + 1⟩ then some body else heap.body? h)
    (names : heap'.names = heap.names) : Holds heap' (n + 1) m raws vs := by
  apply holds.mono (names ▸ .refl _)
  intro h after _
  have other : h ≠ ⟨n + 1⟩ := fun here => by
    rw [here] at after
    exact absurd after (Nat.lt_irrefl _)
  rw [bodies, if_neg other]

theorem append (first : Holds heap n m raws vs) (second : Holds heap m k raws' vs') :
    Holds heap n k (raws ++ raws') (vs ++ vs') := by
  induction first with
  | nil => exact second
  | scalar s _ ih => exact .scalar s (ih second)
  | array shape sorted here inside _ _ ih => exact .array shape sorted here inside (ih second)
  | plain shape sorted here listed keys inside _ _ ih =>
    exact .plain shape sorted here listed keys inside (ih second)

end Holds

end Marshal

end ScriptBoundary
