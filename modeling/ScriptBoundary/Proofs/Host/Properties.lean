import ScriptBoundary.Host.Expressions
import ScriptBoundary.Proofs.Heap.Contents
import ScriptBoundary.Proofs.Host.EntryPoints
import ScriptBoundary.Proofs.Host.Identity

/-!
Host objects as stores of properties. What was written is read until the next write, and a write concerns
no other property, but that an index past the end of an array brings the indices before it along. An
array lists its indices and nothing else, and its length is not a property that can be written.
-/

namespace ScriptBoundary

variable {ρ : Type}

/-! ## Elements -/

theorem size_setElement (elements : Array Raw) (i : Nat) (value : Raw) :
    (setElement elements i value).size = max elements.size (i + 1) := by
  rw [setElement]
  split
  · rw [Array.size_set]
    omega
  · rw [Array.size_push, Array.size_append, Array.size_replicate]
    omega

theorem getElem?_setElement (elements : Array Raw) (i j : Nat) (value : Raw) :
    (setElement elements i value)[j]?
      = if j = i then some value
        else if elements.size ≤ j ∧ j < i then some .void else elements[j]? := by
  rw [setElement]
  split
  next inside =>
    rw [if_neg (by omega : ¬ (elements.size ≤ j ∧ j < i)), Array.getElem?_set]
    simp only [eq_comm]
  next outside =>
    have length : (elements ++ Array.replicate (i - elements.size) Raw.void).size = i := by
      rw [Array.size_append, Array.size_replicate]
      omega
    rw [Array.getElem?_push, length]
    split
    next => rfl
    next other =>
      rw [Array.getElem?_append, Array.getElem?_replicate]
      split
      · rw [if_neg (by omega)]
      · split
        · rw [if_pos (by omega)]
        · rw [if_neg (by omega), Array.getElem?_eq_none (by omega)]

/-- How many elements an array has after a write. -/
def HostId.stretched (id : HostId) (size : Nat) : Nat :=
  id.elementIndex?.elim size fun i => max size (i + 1)

namespace Entry

/-! ## Objects -/

/-- The number of elements of an array. -/
def size? (e : Entry ρ) : Option Nat :=
  match e.form with
  | .array elements => some elements.size
  | _ => none

/-- What a property of the object reads. -/
def property? (names : Names) (e : Entry ρ) (id : HostId) : Option Raw :=
  match e.form with
  | .array elements =>
    match id.elementIndex? with
    | some i => elements[i]?
    | none =>
      if names.text? id = some "length" then some (.int32 (.ofNat elements.size))
      else e.props.find? id
  | _ => e.props.find? id

/-- The properties that the object lists. -/
def listing (e : Entry ρ) : List HostId :=
  match e.form with
  | .array elements => HostId.indices elements.size
  | _ => e.props.keys

/-- The property is the length of an array. -/
def Derives (names : Names) (e : Entry ρ) (id : HostId) : Prop :=
  e.size?.isSome ∧ names.text? id = some "length"

/-- A write at `id` lies past the end of an array and `id'` is concerned by it: it is a skipped index, or
the length. -/
def Stretches (names : Names) (e : Entry ρ) (id id' : HostId) : Prop :=
  ∃ size i, e.size? = some size ∧ id.elementIndex? = some i ∧ size ≤ i ∧
    (names.text? id' = some "length" ∨ ∃ j, id'.elementIndex? = some j ∧ size ≤ j ∧ j < i)

variable {names : Names} {e e' : Entry ρ} {id id' : HostId} {value : Raw}

/-- Either an element is written or a property. -/
theorem write_cases (e : Entry ρ) (id : HostId) (value : Raw) :
    (∃ elements i, e.form = .array elements ∧ id.elementIndex? = some i ∧
      (e.write id value).1 = { e with form := .array (setElement elements i value) }) ∨
    ((e.size? = none ∨ id.elementIndex? = none) ∧
      (e.write id value).1 = { e with props := e.props.insert id value }) := by
  obtain ⟨refs, form, props⟩ := e
  cases form with
  | plain => exact .inr ⟨.inl rfl, rfl⟩
  | function => exact .inr ⟨.inl rfl, rfl⟩
  | array elements =>
    cases index : id.elementIndex? with
    | none => exact .inr ⟨.inr rfl, by simp [write, index]⟩
    | some i => exact .inl ⟨elements, i, rfl, rfl, by simp [write, index]⟩

theorem size?_write (e : Entry ρ) (id : HostId) (value : Raw) :
    (e.write id value).1.size? = e.size?.map id.stretched := by
  obtain ⟨elements, i, form, index, is⟩ | ⟨none_, is⟩ := e.write_cases id value
  · rw [is, size?, size?, form, Option.map_some, HostId.stretched, index, Option.elim_some]
    exact congrArg some (size_setElement elements i value)
  · rw [is]
    change e.size? = _
    rcases none_ with plain | name
    · rw [plain, Option.map_none]
    · have same : id.stretched = fun size => size := by
        funext size
        rw [HostId.stretched, name, Option.elim_none]
      rw [same, Option.map_id_fun']
      rfl

/-- What was written is read. -/
theorem property?_write_self (plain : ¬ e.Derives names id) :
    (e.write id value).1.property? names id = some value := by
  obtain ⟨elements, i, form, index, is⟩ | ⟨none_, is⟩ := e.write_cases id value
  · simp only [is, property?, index]
    rw [getElem?_setElement, if_pos rfl]
  · obtain ⟨refs, form, props⟩ := e
    rw [is]
    cases form with
    | plain => exact Table.find?_insert_self props id value
    | function => exact Table.find?_insert_self props id value
    | array elements =>
      have index : id.elementIndex? = none := none_.resolve_left nofun
      have name : ¬ names.text? id = some "length" := fun length => plain ⟨rfl, length⟩
      simp only [property?, index, if_neg name]
      exact Table.find?_insert_self props id value

theorem property?_insert_of_ne (other : id' ≠ id) :
    ({ e with props := e.props.insert id value } : Entry ρ).property? names id' = e.property? names id' := by
  obtain ⟨refs, form, props⟩ := e
  have kept : (props.insert id value).find? id' = props.find? id' := Table.find?_insert_of_ne props value other
  simp only [property?, kept]

/-- No other property is concerned. -/
theorem property?_write_of_ne (issued : names.Issued id) (issued' : names.Issued id') (other : id' ≠ id)
    (apart : ¬ e.Stretches names id id') :
    (e.write id value).1.property? names id' = e.property? names id' := by
  obtain ⟨elements, i, form, index, is⟩ | ⟨_, is⟩ := e.write_cases id value
  · obtain ⟨refs, _, props⟩ := e
    cases form
    rw [is]
    simp only [property?]
    -- Beyond the old end the write would reach further than its own index.
    have within (reached : names.text? id' = some "length" ∨
        ∃ j, id'.elementIndex? = some j ∧ elements.size ≤ j ∧ j < i) : i < elements.size :=
      Nat.lt_of_not_le fun past => apart ⟨_, i, rfl, index, past, reached⟩
    cases index' : id'.elementIndex? with
    | some j =>
      have apart' : j ≠ i := fun same => other <| by
        rw [(issued'.of_elementIndex? index').2, (issued.of_elementIndex? index).2, same]
      simp only [getElem?_setElement, if_neg apart']
      rw [if_neg]
      rintro ⟨past, before⟩
      have := within (.inr ⟨j, index', past, before⟩)
      omega
    | none =>
      simp only [size_setElement]
      split
      next length => rw [Nat.max_eq_left (within (.inl length))]
      next => rfl
  · rw [is]
    exact property?_insert_of_ne other

/-- The indices that a write past the end skips are void. -/
theorem property?_write_gap {size i j : Nat} (array : e.size? = some size)
    (index : id.elementIndex? = some i) (index' : id'.elementIndex? = some j) (past : size ≤ j)
    (before : j < i) :
    e.property? names id' = none ∧ (e.write id value).1.property? names id' = some .void := by
  obtain ⟨elements, i', form, same, is⟩ | ⟨none_, _⟩ := e.write_cases id value
  · obtain ⟨refs, _, props⟩ := e
    cases form
    cases array
    cases index.symm.trans same
    rw [is]
    simp only [property?, index']
    exact ⟨Array.getElem?_eq_none past, by
      rw [getElem?_setElement, if_neg (by omega), if_pos ⟨past, before⟩]⟩
  · rcases none_ with plain | name
    · cases array.symm.trans plain
    · cases index.symm.trans name

theorem property?_length {size : Nat} (array : e.size? = some size)
    (length : names.text? id = some "length") :
    e.property? names id = some (.int32 (.ofNat size)) := by
  obtain ⟨refs, form, props⟩ := e
  cases form with
  | plain => cases array
  | function => cases array
  | array elements =>
    cases array
    have name : id.elementIndex? = none := by simp [HostId.elementIndex?, Names.isName_of_text? length]
    simp only [property?, name, if_pos length]

/-- Any other object lists what was written. -/
theorem mem_listing_write (plain : e.size? = none) : id ∈ (e.write id value).1.listing := by
  obtain ⟨elements, i, form, _, _⟩ | ⟨_, is⟩ := e.write_cases id value
  · rw [size?, form] at plain
    cases plain
  · obtain ⟨refs, form, props⟩ := e
    rw [is]
    have inside : id ∈ (props.insert id value).keys :=
      Table.contains_iff_mem_keys.1 (Table.contains_iff.2 ⟨value, Table.find?_insert_self props id value⟩)
    cases form with
    | array elements => cases plain
    | plain => exact inside
    | function => exact inside

/-- An array lists its indices and nothing else. -/
theorem mem_listing_array {size : Nat} (array : e.size? = some size) (small : size < 2 ^ 31)
    (issued : names.Issued id) : id ∈ e.listing ↔ ∃ i < size, id.elementIndex? = some i := by
  obtain ⟨refs, form, props⟩ := e
  cases form with
  | plain => cases array
  | function => cases array
  | array elements =>
    cases array
    constructor
    · intro inside
      obtain ⟨i, within, early, rfl⟩ := HostId.exists_of_mem_indices inside
      exact ⟨i, within, HostId.elementIndex?_ofNat early⟩
    · rintro ⟨i, within, index⟩
      change id ∈ HostId.indices elements.size
      rw [HostId.indices_of_small small, (issued.of_elementIndex? index).2]
      exact List.mem_map.2 ⟨i, List.mem_range.2 within, rfl⟩

theorem nodup_listing (sorted : e.props.Sorted) : e.listing.Nodup := by
  obtain ⟨refs, form, props⟩ := e
  cases form with
  | array elements => exact HostId.nodup_indices _
  | plain => exact Table.nodup_keys sorted
  | function => exact Table.nodup_keys sorted

/-! What an object reads and lists does not hang on its count. -/

theorem property?_of_body (same : e.body = e'.body) : e.property? names = e'.property? names := by
  obtain ⟨refs, form, props⟩ := e
  obtain ⟨refs', form', props'⟩ := e'
  cases same
  rfl

theorem listing_of_body (same : e.body = e'.body) : e.listing = e'.listing := by
  obtain ⟨refs, form, props⟩ := e
  obtain ⟨refs', form', props'⟩ := e'
  cases same
  rfl

theorem body_write_of_body (same : e.body = e'.body) (id : HostId) (value : Raw) :
    (e.write id value).1.body = (e'.write id value).1.body := by
  obtain ⟨refs, form, props⟩ := e
  obtain ⟨refs', form', props'⟩ := e'
  cases same
  cases form <;> cases index : id.elementIndex? <;> simp [write, index, body]

end Entry

namespace Heap

/-! ## Heaps -/

theorem lookup_eq (heap : Heap ρ) (h : Handle) (id : HostId) :
    heap.lookup h id = (heap.objects.find? h).bind fun e => e.property? heap.names id := by
  rw [lookup]
  cases heap.objects.find? h <;> rfl

theorem propertyIds?_eq (heap : Heap ρ) (h : Handle) :
    heap.propertyIds? h = (heap.objects.find? h).map Entry.listing := rfl

/-- After a write an object is the one that was written, or as it was. -/
theorem find?_store {heap later : Heap ρ} {target h : Handle} {id : HostId} {value : Raw} {e : Entry ρ}
    (ran : heap.store target id value = (true, later)) (left : later.objects.find? h = some e) :
    ∃ e', heap.objects.find? h = some e' ∧
      e.body = if h = target then (e'.write id value).1.body else e'.body := by
  have retained := heap.alike_retainAll value.handles
  simp only [store, retainValue] at ran
  split at ran
  next live =>
    split at ran
    next absent => cases ran
    next before found =>
      cases ran
      obtain ⟨e₁, there, same⟩ := find?_releaseAll left
      simp only [Table.find?_update] at there
      split at there
      next here =>
        subst here
        obtain ⟨_, _, rfl⟩ := Option.map_eq_some_iff.1 there
        obtain ⟨e', was, body⟩ := retained.symm_find?_some found
        exact ⟨e', was, by rw [if_pos rfl, same, Entry.body_write_of_body body]⟩
      next other =>
        obtain ⟨e', was, body⟩ := retained.symm_find?_some there
        exact ⟨e', was, by rw [if_neg other, same, body]⟩
  next => cases ran

/-! ## Whatever a host is asked to do -/

/-- An operation of a host on its heap. Nobody has to own what they give back or write. -/
inductive Operation : Heap ρ → Heap ρ → Prop where
  | alloc (heap : Heap ρ) (form : Form ρ) : Operation heap (heap.alloc form).2
  | retain (heap : Heap ρ) (h : Handle) : Operation heap (heap.retain h)
  | release (heap : Heap ρ) (h : Handle) : Operation heap (heap.release h)
  | intern (heap : Heap ρ) (text : String) : Operation heap (heap.intern text).2
  | store (heap : Heap ρ) (target : Handle) (id : HostId) (value : Raw) :
      Operation heap (heap.store target id value).2
  | push (heap : Heap ρ) (target : Handle) (values : List Raw) :
      Operation heap (heap.pushAll target values).2
  | define (heap : Heap ρ) (script : String) (value : Raw) :
      Operation heap (heap.defineExpression script value)
  | raise (heap : Heap ρ) (message : String) :
      Operation heap { heap with exceptions := heap.exceptions ++ [message] }

inductive Reachable (element : Option (String × String)) : Heap ρ → Prop where
  | start : Reachable element (Host.start element).heap
  | next {heap heap' : Heap ρ} (reached : Reachable element heap) (operation : Operation heap heap') :
      Reachable element heap'

/-- Properties are kept in the order of their identifiers. -/
def Arranged (heap : Heap ρ) : Prop := ∀ h e, heap.objects.find? h = some e → e.props.Sorted

variable {heap heap' : Heap ρ} {element : Option (String × String)}

theorem Arranged.update (arranged : heap.Arranged) (h : Handle) {f : Entry ρ → Entry ρ}
    (sorted : ∀ e, heap.objects.find? h = some e → (f e).props.Sorted) :
    ({ heap with objects := heap.objects.update h f } : Heap ρ).Arranged := by
  intro x e found
  simp only [Table.find?_update] at found
  split at found
  next here =>
    subst here
    obtain ⟨e', was, rfl⟩ := Option.map_eq_some_iff.1 found
    exact sorted e' was
  next => exact arranged x e found

theorem Arranged.alloc (arranged : heap.Arranged) (form : Form ρ) : (heap.alloc form).2.Arranged := by
  intro x e found
  simp only [Heap.alloc, Table.find?_insert] at found
  split at found
  · cases found
    exact Table.sorted_empty
  · exact arranged x e found

theorem Arranged.retainAll (arranged : heap.Arranged) (hs : List Handle) : (heap.retainAll hs).Arranged := by
  intro x e found
  obtain ⟨e', was, same⟩ := (heap.alike_retainAll hs).symm_find?_some found
  exact (Prod.mk.inj same).2 ▸ arranged x e' was

theorem Arranged.releaseAll (arranged : heap.Arranged) (hs : List Handle) : (heap.releaseAll hs).Arranged := by
  intro x e found
  obtain ⟨e', was, same⟩ := find?_releaseAll found
  exact (Prod.mk.inj same).2 ▸ arranged x e' was

theorem Arranged.store (arranged : heap.Arranged) (target : Handle) (id : HostId) (value : Raw) :
    (heap.store target id value).2.Arranged := by
  have retained : (heap.retainValue value).Arranged := arranged.retainAll _
  simp only [Heap.store]
  split
  · split
    · exact retained
    next before found =>
      refine Arranged.releaseAll (retained.update target fun _ _ => ?_) _
      exact Entry.sorted_write (retained target before found) id value
  · exact arranged

theorem Arranged.pushAll (arranged : heap.Arranged) (target : Handle) (values : List Raw) :
    (heap.pushAll target values).2.Arranged := by
  have retained : (heap.retainAll (values.flatMap Raw.handles)).Arranged := arranged.retainAll _
  simp only [Heap.pushAll]
  split
  · exact retained
  · refine retained.update target fun e found => ?_
    obtain ⟨refs, form, props⟩ := e
    have sorted : props.Sorted := retained target _ found
    cases form <;> exact sorted

theorem Operation.arranged (operation : Operation heap heap') (arranged : heap.Arranged) : heap'.Arranged := by
  cases operation with
  | alloc form => exact arranged.alloc form
  | retain h => exact arranged.retainAll [h]
  | release h => exact arranged.releaseAll [h]
  | intern text => exact arranged
  | store target id value => exact arranged.store target id value
  | push target values => exact arranged.pushAll target values
  | define script value =>
    have retained : ({ heap.retainValue value with
        expressions := (heap.retainValue value).expressions.insert (expressionKey script) value } :
          Heap ρ).Arranged := arranged.retainAll value.handles
    exact retained.releaseAll _
  | raise message => exact arranged

theorem arranged_of_reachable (reached : Reachable element heap) : heap.Arranged := by
  induction reached with
  | next _ operation ih => exact operation.arranged ih
  | start =>
    have empty : (Heap.empty : Heap ρ).Arranged := fun _ _ found => nomatch found
    have first := empty.alloc .plain
    cases element with
    | none => exact first
    | some given =>
      have named : ((((Heap.empty.alloc .plain).2.alloc .plain).2.intern "id").2.intern "name").2.Arranged :=
        first.alloc .plain
      exact (named.store _ _ _).store _ _ _

end Heap

namespace Host

def property? (host : Host ρ) (h : Handle) (id : HostId) : Option Raw := ((getProperty h id).run host).1

def listing? (host : Host ρ) (h : Handle) : Option (List HostId) := ((propertyIds h).run host).1

/-- What a write leaves behind, if the object was `was` before it. -/
structure Written (host later : Host ρ) (target : Handle) (was : Entry ρ) (id : HostId) (value : Raw) :
    Prop where
  read : ¬ was.Derives host.heap.names id → later.property? target id = some value
  /-- Every other property of every object that lives reads as before, but what is stretched. -/
  rest : ∀ h id', later.heap.isLive h = true → host.heap.names.Issued id' → (h, id') ≠ (target, id) →
    ¬ (h = target ∧ was.Stretches host.heap.names id id') → later.property? h id' = host.property? h id'
  gap : ∀ size i j, was.size? = some size → id.elementIndex? = some i → size ≤ j → j < i →
    host.property? target (.ofInt32 (.ofNat j)) = none ∧
    later.property? target (.ofInt32 (.ofNat j)) = some .void
  length : ∀ size, was.size? = some size → id.stretched size < 2 ^ 31 →
    ∀ name, host.heap.names.text? name = some "length" →
      ∃ n, later.property? target name = some (.int32 n) ∧ n.toInt = id.stretched size
  listed : was.size? = none → ∃ ids, later.listing? target = some ids ∧ id ∈ ids
  indices : ∀ size, was.size? = some size → id.stretched size < 2 ^ 31 →
    ∃ ids, later.listing? target = some ids ∧ (id ∈ ids ↔ id.elementIndex?.isSome)
  once : ∀ h ids, later.listing? h = some ids → ids.Nodup

section

variable {host later : Host ρ} {target : Handle} {id : HostId} {value : Raw} {was : Entry ρ}

theorem property?_of_find? {h : Handle} {e : Entry ρ} (found : host.heap.objects.find? h = some e)
    (id : HostId) : host.property? h id = e.property? host.heap.names id := by
  change host.heap.lookup h id = _
  rw [Heap.lookup_eq, found, Option.bind_some]

theorem listing?_of_find? (works : host.failures = .none) {h : Handle} {e : Entry ρ}
    (found : host.heap.objects.find? h = some e) : host.listing? h = some e.listing := by
  rw [listing?, run_propertyIds, works, Heap.propertyIds?_eq, found]
  rfl

theorem store_of_setProperty (ran : (setProperty target id value).run host = (true, later)) :
    host.heap.store target id value = (true, later.heap) ∧ later.failures = host.failures := by
  rw [run_setProperty] at ran
  split at ran
  · cases ran
  · obtain ⟨stored, rfl⟩ := Prod.mk.inj ran
    exact ⟨Prod.ext stored rfl, rfl⟩

/-- Whatever a host has been asked to do, a write to an object that is there after it is read and listed,
and no other property reads differently. -/
theorem property_written (element : Option (String × String)) (reached : host.heap.Reachable element)
    (works : host.failures = .none) (issued : host.heap.names.Issued id)
    (ran : (setProperty target id value).run host = (true, later))
    (stays : later.heap.isLive target = true) :
    ∃ was, host.heap.objects.find? target = some was ∧ host.Written later target was id value := by
  obtain ⟨stored, failures⟩ := store_of_setProperty ran
  have names := host.heap.names_store target id value
  have arranged := (Heap.arranged_of_reachable reached).store target id value
  rw [stored] at names arranged
  have works := failures.trans works
  obtain ⟨is, found⟩ := Table.contains_iff.1 stays
  obtain ⟨was, before, body⟩ := Heap.find?_store stored found
  rw [if_pos rfl] at body
  -- What the target reads and lists is what was written to it.
  have reads (id' : HostId) : later.property? target id'
      = (was.write id value).1.property? host.heap.names id' := by
    rw [property?_of_find? found, Entry.property?_of_body body, names]
  have lists : later.listing? target = some (was.write id value).1.listing := by
    rw [listing?_of_find? works found, Entry.listing_of_body body]
  have size := was.size?_write id value
  refine ⟨was, before, ?_⟩
  constructor
  case read => exact fun plain => (reads id).trans (Entry.property?_write_self plain)
  case rest =>
    intro h id' lives issued' other apart
    obtain ⟨e', found'⟩ := Table.contains_iff.1 lives
    obtain ⟨e, before', body'⟩ := Heap.find?_store stored found'
    rw [property?_of_find? found', property?_of_find? before']
    split at body'
    next here =>
      subst here
      cases before.symm.trans before'
      have other : id' ≠ id := fun same => other (same ▸ rfl)
      rw [Entry.property?_of_body body', names]
      exact Entry.property?_write_of_ne issued issued' other fun reach => apart ⟨rfl, reach⟩
    next => rw [Entry.property?_of_body body', names]
  case gap =>
    intro size i j array index past before_
    have small := (issued.of_elementIndex? index).1
    rw [property?_of_find? before, reads]
    exact Entry.property?_write_gap array index (HostId.elementIndex?_ofNat (by omega)) past before_
  case length =>
    intro n array small name named
    rw [array, Option.map_some] at size
    exact ⟨_, (reads name).trans (Entry.property?_length size named), HostId.toInt_ofNat small⟩
  case listed => exact fun plain => ⟨_, lists, Entry.mem_listing_write plain⟩
  case indices =>
    intro n array small
    rw [array, Option.map_some] at size
    refine ⟨_, lists, (Entry.mem_listing_array size small issued).trans ?_⟩
    rw [Option.isSome_iff_exists]
    refine ⟨fun ⟨i, _, index⟩ => ⟨i, index⟩, fun ⟨i, index⟩ => ⟨i, ?_, index⟩⟩
    rw [HostId.stretched, index, Option.elim_some]
    omega
  case once =>
    intro h ids listed
    cases found' : later.heap.objects.find? h with
    | none =>
      rw [listing?, run_propertyIds, works, Heap.propertyIds?_eq, found'] at listed
      cases listed
    | some e =>
      cases (listing?_of_find? works found').symm.trans listed
      exact Entry.nodup_listing (arranged h e found')

end

/-- A host with an empty array that was asked for two names. -/
def withArray : Host Unit where
  heap := ((((Host.start none).heap.alloc (.array #[])).2.intern "x").2.intern "length").2
  element := none
  failures := .none

theorem reachable_withArray : withArray.heap.Reachable none :=
  .next (.next (.next .start (.alloc _ _)) (.intern _ "x")) (.intern _ "length")

/-- The array after a write of a value that is no object. -/
theorem run_withArray (id : HostId) (scalar : Scalar) :
    ∃ later, (setProperty ⟨2⟩ id (.scalar scalar)).run withArray = (true, later) ∧
      later.failures = .none ∧ later.heap.names = withArray.heap.names ∧
      later.heap.objects.find? ⟨2⟩
        = some ((⟨1, .array #[], .empty⟩ : Entry Unit).write id (.scalar scalar)).1 := by
  have found : withArray.heap.objects.find? ⟨2⟩ = some ⟨1, .array #[], .empty⟩ := rfl
  have live : withArray.heap.isLive ⟨2⟩ = true := rfl
  have nothing : ((⟨1, .array #[], .empty⟩ : Entry Unit).write id (.scalar scalar)).2 = none := by
    cases index : id.elementIndex? <;> simp [Entry.write, index, Table.find?, Table.lookup, Table.empty]
  have stored : withArray.heap.store ⟨2⟩ id (.scalar scalar) = (true, { withArray.heap with
      objects := withArray.heap.objects.update ⟨2⟩ fun _ =>
        ((⟨1, .array #[], .empty⟩ : Entry Unit).write id (.scalar scalar)).1 }) := by
    have same : withArray.heap.retainValue (.scalar scalar) = withArray.heap := rfl
    simp only [Heap.store, live, same, if_true, found, nothing, Option.elim_none, Heap.releaseAll_nil]
  refine ⟨{ withArray with heap := (withArray.heap.store ⟨2⟩ id (.scalar scalar)).2 }, ?_, rfl, ?_, ?_⟩
  · rw [run_setProperty, stored]
    rfl
  · rw [stored]
  · rw [stored, Table.find?_update, if_pos rfl, found]
    rfl

/-- A write past the end of an empty array. -/
theorem property_written_of_gap : ∃ later,
    (setProperty ⟨2⟩ (.word 2) .null).run withArray = (true, later) ∧
      later.property? ⟨2⟩ (.word 2) = some .null ∧ later.property? ⟨2⟩ (.word 0) = some .void := by
  obtain ⟨later, ran, _, _, found⟩ := run_withArray (.word 2) .null
  have issued : withArray.heap.names.Issued (.word 2) := withArray.heap.names.issued_ofInt32 2
  obtain ⟨was, before, written⟩ := property_written none reachable_withArray rfl issued ran
    (Table.contains_iff.2 ⟨_, found⟩)
  cases before
  have read := written.read fun derived => nomatch derived.2
  exact ⟨later, ran, read, (written.gap 0 2 0 rfl rfl (Nat.le_refl 0) (by decide)).2⟩

/-- An array takes a property under a name and does not list it, and it takes a length that it does not
answer. -/
theorem array_property_unlisted :
    (∃ later, (setProperty ⟨2⟩ (.name 0) (.int32 5)).run withArray = (true, later) ∧
      later.heap.isLive ⟨2⟩ = true ∧ later.property? ⟨2⟩ (.name 0) = some (.int32 5) ∧
      later.listing? ⟨2⟩ = some []) ∧
    ∃ later, (setProperty ⟨2⟩ (.name 1) (.int32 7)).run withArray = (true, later) ∧
      later.heap.isLive ⟨2⟩ = true ∧ later.property? ⟨2⟩ (.name 1) = some (.int32 0) := by
  constructor
  · obtain ⟨later, ran, works, names, found⟩ := run_withArray (.name 0) (.int32 5)
    refine ⟨later, ran, Table.contains_iff.2 ⟨_, found⟩, ?_, listing?_of_find? works found⟩
    rw [property?_of_find? found, names]
    rfl
  · obtain ⟨later, ran, _, names, found⟩ := run_withArray (.name 1) (.int32 7)
    refine ⟨later, ran, Table.contains_iff.2 ⟨_, found⟩, ?_⟩
    rw [property?_of_find? found, names]
    rfl

end Host

end ScriptBoundary
