import ScriptBoundary.Marshal.Read
import ScriptBoundary.Proofs.Heap.Contents
import ScriptBoundary.Proofs.Host.EntryPoints
import ScriptBoundary.Proofs.Value

/-!
Reading looks at a host without changing what is there. Every reference taken on the way is given
back, and the value that is read owns one for each bag in it.
-/

namespace ScriptBoundary

variable {ρ α γ : Type}

/-- Reading cannot tell the hosts apart, but for names that were added. -/
structure Host.Alike (base host : Host ρ) : Prop where
  heap : base.heap.Alike host.heap
  element : host.element = base.element
  failures : host.failures = base.failures

theorem Host.Alike.refl (host : Host ρ) : host.Alike host := ⟨.refl _, rfl, rfl⟩

theorem Host.Alike.withHeap {base host : Host ρ} (alike : base.Alike host) {heap : Heap ρ}
    (next : host.heap.Alike heap) : base.Alike { host with heap := heap } :=
  ⟨alike.heap.trans next, alike.element, alike.failures⟩

theorem Host.Alike.trans {base host next : Host ρ} (first : base.Alike host)
    (second : host.Alike next) : base.Alike next :=
  ⟨first.heap.trans second.heap, second.element.trans first.element,
    second.failures.trans first.failures⟩

/-- The host with other names. -/
def Host.withNames (host : Host ρ) (names : Names) : Host ρ :=
  { host with heap := { host.heap with names := names } }

theorem Heap.Ordered.withNames {heap : Heap ρ} (ordered : heap.Ordered) (names : Names) :
    ({ heap with names := names } : Heap ρ).Ordered :=
  ⟨ordered.objects, ordered.props, ordered.expressions⟩

/-- A computation on hosts like `base` takes over the references `taken` from an owner and hands out
those of its result; the host stays as it is. -/
def Reads (base : Host ρ) (taken : List Handle) (op : HostM ρ α) (given : α → List Handle)
    (post : α → Prop) : Prop :=
  ∀ gone host owned, base.Alike host → host.heap.Sound gone (taken ++ owned) →
    base.Alike (op.run host).2 ∧ (op.run host).2.heap.Sound gone (given (op.run host).1 ++ owned) ∧
      post (op.run host).1

namespace Reads

variable {base : Host ρ} {taken : List Handle}

theorem pure {given : α → List Handle} {post : α → Prop} {a : α} (same : taken.Perm (given a))
    (holds : post a) : Reads base taken (Pure.pure a) given post :=
  fun _ _ _ alike sound => ⟨alike, sound.perm (same.append_right _), holds⟩

theorem bind {op : HostM ρ α} {next : α → HostM ρ γ} {mid : α → List Handle} {between : α → Prop}
    {given : γ → List Handle} {post : γ → Prop} (first : Reads base taken op mid between)
    (second : ∀ a, between a → Reads base (mid a) (next a) given post) :
    Reads base taken (op >>= next) given post := by
  intro gone host owned alike sound
  obtain ⟨alike', sound', holds⟩ := first gone host owned alike sound
  exact second _ holds gone _ owned alike' sound'

theorem perm {taken' : List Handle} {op : HostM ρ α} {given given' : α → List Handle}
    {post post' : α → Prop} (reads : Reads base taken op given post) (before : taken'.Perm taken)
    (after : ∀ a, post a → (given a).Perm (given' a)) (weaken : ∀ a, post a → post' a) :
    Reads base taken' op given' post' := by
  intro gone host owned alike sound
  obtain ⟨alike', sound', holds⟩ := reads gone host owned alike (sound.perm (before.append_right _))
  exact ⟨alike', sound'.perm ((after _ holds).append_right _), weaken _ holds⟩

/-- What is owned besides is left alone. -/
theorem frame {op : HostM ρ α} {given : α → List Handle} {post : α → Prop}
    (reads : Reads base taken op given post) (besides : List Handle) :
    Reads base (taken ++ besides) op (fun a => given a ++ besides) post := by
  intro gone host owned alike sound
  rw [List.append_assoc] at sound
  have := reads gone host _ alike sound
  simpa only [List.append_assoc] using this

end Reads

/-! ## The entry points that reading uses -/

section EntryPoints

variable {base : Host ρ}

theorem reads_retainAll (ordered : base.heap.Ordered) {hs : List Handle} (taken : List Handle)
    (held : ∀ h ∈ hs, h ∈ base.heap.stored ++ taken) :
    Reads base taken (Host.retainAll hs) (fun _ => hs ++ taken) fun _ => True := by
  intro gone host owned alike sound
  refine ⟨alike.withHeap (Heap.alike_retainAll host.heap hs), ?_, trivial⟩
  rw [List.append_assoc]
  refine sound.retainAll fun h inside => sound.live_of_mem ?_
  rcases List.mem_append.1 (held h inside) with there | there
  · exact List.mem_append_left _ (alike.heap.stored_mem ordered there)
  · exact List.mem_append_right _ (List.mem_append_left _ there)

theorem reads_releaseAll (ordered : base.heap.Ordered) {hs : List Handle} (taken : List Handle)
    (held : ∀ h ∈ hs, h ∈ base.heap.stored ++ taken) :
    Reads base (hs ++ taken) (Host.releaseAll hs) (fun _ => taken) fun _ => True := by
  intro gone host owned alike sound
  rw [List.append_assoc] at sound
  refine ⟨alike.withHeap (sound.alike_releaseAll fun h inside => ?_), sound.releaseAll, trivial⟩
  rcases List.mem_append.1 (held h inside) with there | there
  · exact List.mem_append_left _ (alike.heap.stored_mem ordered there)
  · exact List.mem_append_right _ (List.mem_append_left _ there)

variable {taken : List Handle}

theorem Heap.Alike.lookup {base heap : Heap ρ} (alike : base.Alike heap) (target : Handle)
    (id : HostId) :
    heap.lookup target id = ({ base with names := heap.names } : Heap ρ).lookup target id := by
  simp only [Heap.lookup]
  cases found : base.objects.find? target with
  | none => simp [alike.find?_none found]
  | some e =>
    obtain ⟨⟨refs', form', props'⟩, found', body⟩ := alike.find?_some found
    obtain ⟨refs, form, props⟩ := e
    cases body
    simp [found']

theorem Heap.Alike.propertyIds? {base heap : Heap ρ} (alike : base.Alike heap) (target : Handle) :
    heap.propertyIds? target = base.propertyIds? target := by
  simp only [Heap.propertyIds?]
  cases found : base.objects.find? target with
  | none => simp [alike.find?_none found]
  | some e =>
    obtain ⟨⟨refs', form', props'⟩, found', body⟩ := alike.find?_some found
    obtain ⟨refs, form, props⟩ := e
    cases body
    simp [found']

/-- What a read answers is what `base` answers, with some names known besides. -/
def Answers (base : Host ρ) (answer : Heap ρ → α) (a : α) : Prop :=
  ∃ names : Names, names.Extends base.heap.names ∧ a = answer { base.heap with names := names }

theorem reads_getProperty (h : Handle) (id : HostId) :
    Reads base taken (Host.getProperty h id) (fun value => value.elim [] Raw.handles ++ taken)
      fun value => Answers base (·.lookup h id) value ∧
        ∀ x ∈ value.elim [] Raw.handles, x ∈ base.heap.stored := by
  intro gone host owned alike sound
  refine ⟨alike.withHeap (Heap.alike_retainAll _ _), ?_, ?_, ?_⟩
  · rw [List.append_assoc]
    exact sound.retainLookup h id
  · exact ⟨host.heap.names, alike.heap.names, alike.heap.lookup h id⟩
  · intro x inside
    change x ∈ (host.heap.lookup h id).elim [] Raw.handles at inside
    cases found : host.heap.lookup h id with
    | none => rw [found] at inside; cases inside
    | some raw =>
      rw [found] at inside
      exact alike.heap.mem_stored sound.ordered (Heap.mem_stored_of_lookup found inside)

theorem reads_propertyIds (h : Handle) :
    Reads base taken (Host.propertyIds h) (fun _ => taken) fun ids =>
      ids = if base.failures.noEnumeration then none else base.heap.propertyIds? h := by
  intro gone host owned alike sound
  rw [Host.run_propertyIds, alike.failures, alike.heap.propertyIds?]
  exact ⟨alike, sound, rfl⟩

/-- A name that was interned is known to everything after it. -/
theorem Reads.bind_intern {text : String} {next : HostId → HostM ρ γ} {given : γ → List Handle}
    {post : γ → Prop}
    (reads : ∀ names : Names, names.Extends base.heap.names →
      Reads (base.withNames (names.intern text).2) taken (next (names.intern text).1) given post) :
    Reads base taken (Host.intern text >>= next) given post := by
  intro gone host owned alike sound
  have named : (base.withNames (host.heap.names.intern text).2).Alike
      { host with heap := (host.heap.intern text).2 } :=
    ⟨⟨alike.heap.objects, .refl _, alike.heap.expressions, alike.heap.lastHandle,
      alike.heap.exceptions⟩, alike.element, alike.failures⟩
  obtain ⟨after, sound', holds⟩ :=
    reads host.heap.names alike.heap.names gone _ owned named (sound.intern text)
  have more : base.Alike (base.withNames (host.heap.names.intern text).2) :=
    (Host.Alike.refl base).withHeap
      (Heap.alike_withNames base.heap
        ((host.heap.names.extends_intern text).trans alike.heap.names))
  exact ⟨more.trans after, sound', holds⟩

theorem reads_identifierOf (id : HostId) :
    Reads base taken (Host.identifierOf id) (fun _ => taken) fun key =>
      Answers base (·.names.identifier id) key := by
  intro gone host owned alike sound
  exact ⟨alike, sound, host.heap.names, alike.heap.names, rfl⟩

end EntryPoints

/-! ## Objects -/

namespace Heap

/-- The readable properties among `ids`, with their values. -/
def readable (heap : Heap ρ) (h : Handle) (ids : List HostId) : List (HostId × Raw) :=
  ids.filterMap fun id => (heap.lookup h id).map (id, ·)

/-- The value at a listed identifier does not hang on what names are known. -/
theorem lookup_withNames {heap : Heap ρ} {h : Handle} {ids : List HostId}
    (listed : heap.propertyIds? h = some ids) {id : HostId} (inside : id ∈ ids) (names : Names) :
    ({ heap with names := names } : Heap ρ).lookup h id = heap.lookup h id := by
  obtain ⟨⟨refs, form, props⟩, found, rfl⟩ := Option.map_eq_some_iff.1 listed
  simp only [lookup, found]
  cases form with
  | plain => rfl
  | function => rfl
  | array elements =>
    obtain ⟨i, _, _, rfl⟩ := HostId.exists_of_mem_indices inside
    simp [HostId.ofInt32, Names.text?, textAt?]

end Heap

theorem placeNew?_perm {κ ν : Type} [Ord κ] {k : κ} {v : ν} {entries placed : List (κ × ν)}
    (h : Table.placeNew? k v entries = some placed) : placed.Perm ((k, v) :: entries) := by
  induction entries generalizing placed with
  | nil => cases h; rfl
  | cons e rest ih =>
    simp only [Table.placeNew?] at h
    split at h
    · cases h; rfl
    · cases h
    · obtain ⟨tail, found, rfl⟩ := Option.map_eq_some_iff.1 h
      exact ((ih found).cons e).trans (List.Perm.swap _ _ _)

namespace Marshal

variable {base : Host ρ}

/-- References of entries that were read. -/
def entryHandles (entries : List (Identifier × Value)) : List Handle :=
  entries.flatMap fun e => e.2.handles

/-- A way of reading values stored in the host; `post` says what comes out. -/
def ReadsStored (base : Host ρ) (child : Raw → HostM ρ Value) (post : Raw → Value → Prop) : Prop :=
  ∀ raw : Raw, (∀ x ∈ raw.handles, x ∈ base.heap.stored) →
    Reads base raw.handles (child raw) (fun v => v.handles ++ raw.handles) (post raw)

/-- A property was read, under an engine identifier that names known at some time gave it. -/
def EntryRead (base : Host ρ) (post : Raw → Value → Prop) (found : HostId × Raw)
    (e : Identifier × Value) : Prop :=
  Answers base (·.names.identifier found.1) e.1 ∧ post found.2 e.2

def PropertyRead (base : Host ρ) (post : Raw → Value → Prop) (found : HostId × Raw)
    (p : HostId × Identifier × Value) : Prop :=
  p.1 = found.1 ∧ EntryRead base post found p.2

theorem reads_readProperties (ordered : base.heap.Ordered) {child : Raw → HostM ρ Value}
    {post : Raw → Value → Prop} (reads : ReadsStored base child post) (h : Handle)
    (ids : List HostId) (done : List (HostId × Identifier × Value))
    (fixed : ∀ id ∈ ids, ∀ names : Names,
      ({ base.heap with names := names } : Heap ρ).lookup h id = base.heap.lookup h id) :
    Reads base (entryHandles (done.map (·.2))) (readProperties child h done ids)
      (fun ps => entryHandles (ps.map (·.2))) fun ps =>
      ∃ new, ps = new.reverse ++ done ∧
        List.Forall₂ (PropertyRead base post) (base.heap.readable h ids) new := by
  induction ids generalizing done with
  | nil => exact .pure (.refl _) ⟨[], rfl, .nil⟩
  | cons id rest ih =>
    obtain ⟨here, fixed⟩ := List.forall_mem_cons.1 fixed
    apply (reads_getProperty h id).bind
    rintro value ⟨⟨names, _, answer⟩, stored⟩
    replace answer : value = base.heap.lookup h id := answer.trans (here names)
    have listed : base.heap.readable h (id :: rest)
        = (value.map (id, ·)).toList ++ base.heap.readable h rest := by
      rw [answer, Heap.readable, List.filterMap_cons]
      cases base.heap.lookup h id <;> rfl
    cases value with
    | none => exact (ih done fixed).perm (.refl _) (fun _ _ => .refl _) fun _ holds => by rwa [listed]
    | some raw =>
      apply (reads_identifierOf id).bind
      intro key keyed
      apply ((reads raw stored).frame (entryHandles (done.map (·.2)))).bind
      intro value holds
      have released := reads_releaseAll ordered (value.handles ++ entryHandles (done.map (·.2)))
        fun x inside => List.mem_append_left _ (stored x inside)
      refine (released.bind fun _ _ => ih ((id, key, value) :: done) fixed).perm ?_
        (fun _ _ => .refl _) ?_
      · rw [List.append_assoc]
        exact List.perm_append_comm_assoc _ _ _
      · rintro _ ⟨new, rfl, all⟩
        refine ⟨(id, key, value) :: new, by simp, ?_⟩
        rw [listed]
        exact .cons ⟨rfl, keyed, holds⟩ all

theorem entryHandles_insertNew? {table placed : Table Identifier Value} {id : Identifier}
    {value : Value} (new : table.insertNew? id value = some placed) :
    (Bag.entryHandles placed).Perm (value.handles ++ Bag.entryHandles table) := by
  obtain ⟨entries, found, rfl⟩ := Option.map_eq_some_iff.1 new
  exact ((placeNew?_perm found).map (·.2)).flatMap_right Value.handles

theorem reads_gather (ordered : base.heap.Ordered) (entries : List (Identifier × Value))
    (table : Table Identifier Value) (stored : ∀ x ∈ entryHandles entries, x ∈ base.heap.stored) :
    Reads base (Bag.entryHandles table ++ entryHandles entries) (gather table entries)
      Bag.entryHandles fun t => t = entries.foldl (fun t e => (t.insertNew? e.1 e.2).getD t) table := by
  induction entries generalizing table with
  | nil => exact .pure (by simp [entryHandles]) rfl
  | cons e earlier ih =>
    obtain ⟨key, value⟩ := e
    have earlierStored : ∀ x ∈ entryHandles earlier, x ∈ base.heap.stored :=
      fun x inside => stored x (List.mem_append_right _ inside)
    have besides : (Bag.entryHandles table ++ entryHandles ((key, value) :: earlier)).Perm
        (value.handles ++ (Bag.entryHandles table ++ entryHandles earlier)) :=
      List.perm_append_comm_assoc _ _ _
    rw [gather, List.foldl_cons]
    cases new : table.insertNew? key value with
    | some placed =>
      refine (ih placed earlierStored).perm (besides.trans ?_) (fun _ _ => .refl _) fun _ is => is
      rw [← List.append_assoc]
      exact (entryHandles_insertNew? new).symm.append_right _
    | none =>
      have released := reads_releaseAll ordered (Bag.entryHandles table ++ entryHandles earlier)
        fun x inside => List.mem_append_left _ (stored x (List.mem_append_left _ inside))
      exact (released.bind fun _ _ => ih table earlierStored).perm besides (fun _ _ => .refl _)
        fun _ is => is

/-- The shape of an object by its readable properties and its `length`, a name that is known by
then. -/
def ShapeRead (base : Host ρ) (h : Handle) (ids : List HostId) (shape : Shape) : Prop :=
  if ids.any HostId.isName then shape = .plain
  else ∃ names later : Names, names.Extends base.heap.names ∧
    later.Extends (names.intern "length").2 ∧
    (shape = .array ↔ ∃ i, ({ base.heap with names := later } : Heap ρ).lookup h
      (names.intern "length").1 = some (.int32 i))

theorem reads_hasIntegerLength (ordered : base.heap.Ordered) {taken : List Handle} (h : Handle) :
    Reads base taken (hasIntegerLength h) (fun _ => taken) fun is =>
      ∃ names later : Names, names.Extends base.heap.names ∧
        later.Extends (names.intern "length").2 ∧
        (is ↔ ∃ i, ({ base.heap with names := later } : Heap ρ).lookup h
          (names.intern "length").1 = some (.int32 i)) := by
  apply Reads.bind_intern
  intro names known
  refine (reads_getProperty h _).bind fun value ⟨⟨later, later_known, answer⟩, stored⟩ => ?_
  replace answer : value = ({ base.heap with names := later } : Heap ρ).lookup h
    (names.intern "length").1 := answer
  split
  next i => exact .pure (.refl _) ⟨names, later, known, later_known, by simp [← answer]⟩
  next raw other _ =>
    have ordered' : (base.withNames (names.intern "length").2).heap.Ordered := ordered.withNames _
    refine (reads_releaseAll ordered' taken fun x inside =>
      List.mem_append_left _ (stored x inside)).bind fun _ _ => ?_
    refine .pure (.refl _) ⟨names, later, known, later_known, ?_⟩
    simp only [← answer, Option.some.injEq, Bool.false_eq_true, false_iff, not_exists]
    exact other
  next => exact .pure (.refl _) ⟨names, later, known, later_known, by simp [← answer]⟩

theorem reads_shapeOf (ordered : base.heap.Ordered) {taken : List Handle} (h : Handle)
    (ids : List HostId) :
    Reads base taken (shapeOf h ids) (fun _ => taken) (ShapeRead base h ids) := by
  simp only [shapeOf]
  by_cases named : ids.any HostId.isName
  · rw [if_pos named]
    exact .pure (.refl _) (by simp [ShapeRead, named])
  · rw [if_neg named]
    apply (reads_hasIntegerLength ordered h).bind
    rintro is ⟨names, later, known, later_known, iff⟩
    cases is <;> refine .pure (.refl _) ?_ <;> rw [ShapeRead, if_neg named] <;>
      exact ⟨names, later, known, later_known, by simpa using iff⟩

theorem reads_unexpanded (ordered : base.heap.Ordered) (h : Handle) :
    Reads base [h] (unexpanded h) (fun b => b.handles ++ [h]) fun b => b = Bag.plain.backedBy h := by
  apply (reads_retainAll ordered [h] fun x inside => List.mem_append_right _ inside).bind
  intro _ _
  exact .pure (.refl _) rfl

/-- The properties that are read of an object. An object that is being read already, or that does
not list its properties, is not looked into. -/
def listed? (base : Host ρ) (path : List Handle) (h : Handle) : Option (List HostId) :=
  if path.contains h then none
  else if base.failures.noEnumeration then none
  else base.heap.propertyIds? h

/-- What reading an object answers. -/
def ObjectRead (base : Host ρ) (post : Raw → Value → Prop) (path : List Handle) (h : Handle)
    (b : Bag Value) : Prop :=
  match listed? base path h with
  | none => b = Bag.plain.backedBy h
  | some ids =>
    ∃ entries, List.Forall₂ (EntryRead base post) (base.heap.readable h ids) entries ∧
      b.props = Table.ofList entries ∧ b.backing = some h ∧
      ShapeRead base h ((base.heap.readable h ids).map (·.1)) b.shape

theorem ObjectRead.backing {post : Raw → Value → Prop} {path : List Handle} {h : Handle} {b : Bag Value}
    (read : ObjectRead base post path h b) : b.backing = some h := by
  unfold ObjectRead at read
  cases listed : listed? base path h with
  | none =>
    rw [listed] at read
    rw [show b = Bag.plain.backedBy h from read]
    rfl
  | some ids =>
    rw [listed] at read
    obtain ⟨_, _, _, backing, _⟩ := read
    exact backing

/-- What was read of the properties holds references to stored objects only. -/
theorem stored_of_read {post : Raw → Value → Prop} {found : List (HostId × Raw)}
    {entries : List (Identifier × Value)} (read : List.Forall₂ (EntryRead base post) found entries)
    (stored : ∀ p ∈ found, ∀ v, post p.2 v → ∀ x ∈ v.handles, x ∈ base.heap.stored) :
    ∀ x ∈ entryHandles entries, x ∈ base.heap.stored := by
  intro x inside
  obtain ⟨e, there, holds⟩ := List.mem_flatMap.1 inside
  obtain ⟨q, was, _, post⟩ := exists_of_mem_right read there
  exact stored q was e.2 post x holds

theorem stored_of_readable {h : Handle} {ids : List HostId} :
    ∀ p ∈ base.heap.readable h ids, ∀ x ∈ p.2.handles, x ∈ base.heap.stored := by
  intro p inside x holds
  obtain ⟨id, _, answer⟩ := List.mem_filterMap.1 inside
  obtain ⟨raw, found, rfl⟩ := Option.map_eq_some_iff.1 answer
  exact Heap.mem_stored_of_lookup found holds

/-- A way of reading whose results hold no more than stored references. -/
def Contained (base : Host ρ) (post : Raw → Value → Prop) : Prop :=
  ∀ raw v, post raw v → ∀ x ∈ v.handles, x ∈ base.heap.stored ++ raw.handles

theorem ShapeRead.reverse {h : Handle} {ids : List HostId} {shape : Shape}
    (read : ShapeRead base h ids.reverse shape) : ShapeRead base h ids shape := by
  simpa only [ShapeRead, List.any_reverse] using read

theorem PropertyRead.keys {post : Raw → Value → Prop} {found : List (HostId × Raw)}
    {properties : List (HostId × Identifier × Value)}
    (read : List.Forall₂ (PropertyRead base post) found properties) :
    properties.map (·.1) = found.map (·.1) := by
  induction read with
  | nil => rfl
  | cons first _ ih => rw [List.map_cons, List.map_cons, first.1, ih]

theorem PropertyRead.entries {post : Raw → Value → Prop} {found : List (HostId × Raw)}
    {properties : List (HostId × Identifier × Value)}
    (read : List.Forall₂ (PropertyRead base post) found properties) :
    List.Forall₂ (EntryRead base post) found (properties.map (·.2)) := by
  induction read with
  | nil => exact .nil
  | cons first _ ih => exact .cons first.2 ih

theorem reads_readObject (ordered : base.heap.Ordered) {child : Raw → HostM ρ Value}
    {post : Raw → Value → Prop} (reads : ReadsStored base child post)
    (contained : Contained base post) (path : List Handle) (h : Handle) :
    Reads base [h] (readObject child path h) (fun b => b.handles ++ [h])
      (ObjectRead base post path h) := by
  have closed (shut : listed? base path h = none) :
      Reads base [h] (unexpanded h) (fun b => b.handles ++ [h]) (ObjectRead base post path h) := by
    apply (reads_unexpanded ordered h).perm (.refl _) (fun _ _ => .refl _)
    intro b is
    rw [ObjectRead, shut]
    exact is
  by_cases met : path.contains h
  · rw [readObject, if_pos met]
    exact closed (if_pos met)
  rw [readObject, if_neg met]
  have looked : listed? base path h
      = if base.failures.noEnumeration then none else base.heap.propertyIds? h := if_neg met
  apply (reads_propertyIds h).bind
  intro listed lists
  rw [← looked] at lists
  cases listed with
  | none => exact closed lists.symm
  | some ids =>
    have owns : base.heap.propertyIds? h = some ids := by
      rw [looked] at lists
      split at lists
      · cases lists
      · exact lists.symm
    have fixed : ∀ id ∈ ids, ∀ names : Names,
        ({ base.heap with names := names } : Heap ρ).lookup h id = base.heap.lookup h id :=
      fun _ inside names => Heap.lookup_withNames owns inside names
    apply ((reads_readProperties ordered reads h ids [] fixed).frame [h]).bind
    rintro _ ⟨new, rfl, read⟩
    rw [List.append_nil]
    have entries := PropertyRead.entries read
    have stored : ∀ x ∈ entryHandles (new.reverse.map (·.2)), x ∈ base.heap.stored := by
      have := stored_of_read entries fun p was v post x inside => by
        rcases List.mem_append.1 (contained _ _ post x inside) with there | there
        · exact there
        · exact stored_of_readable p was x there
      simpa [entryHandles] using this
    apply (reads_shapeOf ordered h _).bind
    intro shape shaped
    apply ((reads_gather ordered _ .empty stored).frame [h]).bind
    rintro table rfl
    refine (reads_retainAll ordered _ fun x inside =>
      List.mem_append_right _ (List.mem_append_right _ inside)).bind fun _ _ => ?_
    refine .pure ?_ ?_
    · rw [Bag.handles_eq, List.append_assoc]
      exact List.perm_append_comm_assoc _ _ _
    · rw [ObjectRead, ← lists]
      refine ⟨new.map (·.2), entries, ?_, rfl, ?_⟩
      · rw [List.map_reverse, List.foldl_reverse, Table.ofList]
      · rw [← PropertyRead.keys read]
        exact ShapeRead.reverse (List.map_reverse ▸ shaped)

/-! ## Values -/

/-- What reading a value answers, with room for some containers. -/
def ValueRead (base : Host ρ) : Nat → List Handle → Raw → Value → Prop
  | _, _, .scalar s, v => v = .scalar s
  | 0, _, .object _, v => v = .void
  | room + 1, path, .object h, v =>
    ∃ b, v = .object b ∧ ObjectRead base (ValueRead base room (h :: path)) path h b

/-- An object read holds a reference to itself, and else references to stored objects. -/
theorem ObjectRead.contained {post : Raw → Value → Prop} (within : Contained base post)
    {path : List Handle} {h : Handle} {b : Bag Value} (read : ObjectRead base post path h b) :
    ∀ x ∈ b.handles, x ∈ base.heap.stored ++ [h] := by
  intro x inside
  rw [ObjectRead] at read
  split at read
  · subst read
    exact List.mem_append_right _ inside
  · obtain ⟨entries, read, props, backing, _⟩ := read
    rw [Bag.handles_eq, props, backing] at inside
    rcases List.mem_append.1 inside with there | here
    · apply List.mem_append_left _
      obtain ⟨value, among, holds⟩ := List.mem_flatMap.1 there
      obtain ⟨e, made, rfl⟩ := List.mem_map.1 among
      refine stored_of_read read (fun q found v post y has => ?_) x
        (List.mem_flatMap.2 ⟨e, Table.mem_ofList made, holds⟩)
      rcases List.mem_append.1 (within _ _ post y has) with there | there
      · exact there
      · exact stored_of_readable q found y there
    · exact List.mem_append_right _ here

theorem contained_valueRead (room : Nat) (path : List Handle) :
    Contained base (ValueRead base room path) := by
  induction room generalizing path with
  | zero =>
    intro raw v read x inside
    cases raw <;> cases read <;> cases inside
  | succ room ih =>
    intro raw v read x inside
    cases raw with
    | scalar s => cases read; cases inside
    | object h =>
      obtain ⟨b, rfl, read⟩ := read
      exact read.contained (ih (h :: path)) x inside

/-- What holds of all that reading a child answers holds of the properties. -/
theorem ObjectRead.forall_mem {post : Raw → Value → Prop} {P : Value → Prop}
    (children : ∀ raw v, post raw v → P v) {path : List Handle} {h : Handle} {b : Bag Value}
    (read : ObjectRead base post path h b) : ∀ e ∈ b.props.entries, P e.2 := by
  rw [ObjectRead] at read
  split at read
  · subst read
    exact fun _ inside => nomatch inside
  · obtain ⟨entries, read, props, _⟩ := read
    intro e inside
    rw [props] at inside
    obtain ⟨q, _, _, post⟩ := exists_of_mem_right read (Table.mem_ofList inside)
    exact children _ _ post

/-- What is read has its bags sorted. -/
theorem ObjectRead.sorted {post : Raw → Value → Prop} (children : ∀ raw v, post raw v → v.Sorted)
    {path : List Handle} {h : Handle} {b : Bag Value} (read : ObjectRead base post path h b) :
    (Value.object b).Sorted := by
  refine Value.sorted_object_iff.2 ⟨?_, read.forall_mem children⟩
  rw [ObjectRead] at read
  split at read
  · subst read
    exact Table.sorted_empty
  · obtain ⟨entries, _, props, _⟩ := read
    exact props ▸ Table.sorted_ofList entries

theorem sorted_valueRead {room : Nat} {path : List Handle} {raw : Raw} {v : Value}
    (read : ValueRead base room path raw v) : v.Sorted := by
  induction room generalizing path raw v with
  | zero => cases raw <;> cases read <;> exact Value.sorted_scalar _
  | succ room ih =>
    cases raw with
    | scalar s => cases read; exact Value.sorted_scalar s
    | object h =>
      obtain ⟨b, rfl, read⟩ := read
      exact read.sorted fun _ _ => ih

theorem reads_readAt (ordered : base.heap.Ordered) (room : Nat) (path : List Handle) (raw : Raw) :
    Reads base raw.handles (readAt room path raw) (fun v => v.handles ++ raw.handles)
      (ValueRead base room path raw) := by
  induction room generalizing path raw with
  | zero => cases raw <;> exact .pure (.refl _) rfl
  | succ room ih =>
    cases raw with
    | scalar s => exact .pure (.refl _) rfl
    | object h =>
      refine (reads_readObject ordered (fun raw _ => ih (h :: path) raw)
        (contained_valueRead room (h :: path)) path h).bind fun b read => ?_
      exact .pure (.refl _) ⟨b, rfl, read⟩

theorem reads_readBag (ordered : base.heap.Ordered) (h : Handle) :
    Reads base [h] (readBag h) (fun b => b.handles ++ [h])
      (ObjectRead base (ValueRead base (depthLimit - 1) [h]) [] h) :=
  reads_readObject ordered (fun raw _ => reads_readAt ordered _ [h] raw)
    (contained_valueRead _ [h]) [] h

/-- Reading leaves its owner the reference to what is read. -/
theorem reads_read (ordered : base.heap.Ordered) (raw : Raw) :
    Reads base raw.handles (read raw) (fun v => v.handles ++ raw.handles)
      (ValueRead base depthLimit [] raw) := reads_readAt ordered depthLimit [] raw

/-- A value that the host only lends can be read as long as it lives. -/
theorem sound_readLent {host : Host ρ} {gone : Handle → Prop} {owned : List Handle} {raw : Raw}
    (sound : host.heap.Sound gone owned)
    (live : ∀ h ∈ raw.handles, gone h ∨ ∃ e, host.heap.objects.find? h = some e) :
    ((readLent raw).run host).2.element = host.element ∧
      ((readLent raw).run host).2.heap.Sound gone (((readLent raw).run host).1.handles ++ owned) ∧
      ValueRead host depthLimit [] raw ((readLent raw).run host).1 := by
  have alike := (Host.Alike.refl host).withHeap (Heap.alike_retainAll host.heap raw.handles)
  obtain ⟨after, sound', read⟩ :=
    reads_read sound.ordered raw gone _ owned alike (sound.retainAll live)
  rw [List.append_assoc] at sound'
  exact ⟨after.element, (sound'.perm (List.perm_append_comm_assoc _ _ _)).releaseAll, read⟩

end Marshal

end ScriptBoundary
