import ScriptBoundary.Proofs.Heap.Lending
import ScriptBoundary.Proofs.Host.Properties
import ScriptBoundary.Proofs.Host.Upkeep

/-!
What reading sees. On a heap whose identifiers the host has issued, the value that is read is a
function of the heap alone; on any heap, all that reading leaves behind is one more reference for
each bag that it answers.
-/

namespace ScriptBoundary

variable {ρ : Type}

namespace Heap

/-- A heap as a host keeps it, whose properties stand under identifiers that it has issued. -/
structure Lawful (heap : Heap ρ) : Prop where
  ordered : heap.Ordered
  positive : heap.Positive
  distinct : heap.names.Distinct
  issued : ∀ {h e}, heap.objects.find? h = some e → ∀ id ∈ e.props.keys, heap.names.Issued id

/-- Its arrays can be indexed to their ends as well. -/
structure Legible (heap : Heap ρ) : Prop extends heap.Lawful where
  small : ∀ {h elements}, heap.elements? h = some elements → elements.size < 2 ^ 31

def shape (heap : Heap ρ) (h : Handle) : Shape := if (heap.elements? h).isSome then .array else .plain

variable {heap : Heap ρ} {h : Handle} {ids : List HostId}

theorem Lawful.issued_of_listed (lawful : heap.Lawful) (listed : heap.propertyIds? h = some ids)
    {id : HostId} (inside : id ∈ ids) : heap.names.Issued id := by
  obtain ⟨⟨refs, form, props⟩, found, rfl⟩ := Option.map_eq_some_iff.1 listed
  cases form with
  | plain => exact lawful.issued found id inside
  | function => exact lawful.issued found id inside
  | array elements =>
    obtain ⟨i, _, _, rfl⟩ := HostId.exists_of_mem_indices inside
    exact heap.names.issued_ofInt32 _

/-- No property is listed twice. -/
theorem Lawful.nodup_listed (lawful : heap.Lawful) (listed : heap.propertyIds? h = some ids) :
    ids.Nodup := by
  obtain ⟨e, found, rfl⟩ := Option.map_eq_some_iff.1 listed
  exact Entry.nodup_listing (lawful.ordered.props found)

/-- Every listed property can be read. -/
theorem Lawful.lookup_listed (lawful : heap.Lawful) (listed : heap.propertyIds? h = some ids)
    {id : HostId} (inside : id ∈ ids) : ∃ raw, heap.lookup h id = some raw := by
  obtain ⟨⟨refs, form, props⟩, found, rfl⟩ := Option.map_eq_some_iff.1 listed
  simp only [lookup, found]
  cases form with
  | array elements =>
    obtain ⟨i, within, small, rfl⟩ := HostId.exists_of_mem_indices inside
    rw [HostId.elementIndex?_ofNat small]
    exact ⟨elements[i], Array.getElem?_eq_getElem within⟩
  | _ =>
    obtain ⟨e, there, rfl⟩ := List.mem_map.1 inside
    exact ⟨e.2, Table.find?_of_mem (lawful.ordered.props found) there⟩

theorem Lawful.readable_keys (lawful : heap.Lawful) (listed : heap.propertyIds? h = some ids) :
    (heap.readable h ids).map (·.1) = ids := by
  have all : ∀ id ∈ ids, ∃ raw, heap.lookup h id = some raw := fun _ => lawful.lookup_listed listed
  clear listed
  induction ids with
  | nil => rfl
  | cons id rest ih =>
    obtain ⟨⟨raw, here⟩, others⟩ := List.forall_mem_cons.1 all
    rw [readable, List.filterMap_cons, here]
    exact congrArg (id :: ·) (ih others)

end Heap

/-- If callers write under identifiers that they were given, then a host's heap stays as reading needs
it. -/
theorem Ledger.lawful_of_reachable {μ : Type} {β : Behaviour ρ μ} {s : Ledger ρ}
    {element : Option (String × String)} (reached : Reachable β Names.Issued element s) :
    s.host.heap.Lawful := by
  have sound := (balanced_of_reachable reached).heap
  have keyed := (tidy_of_reachable reached).keyed
  refine ⟨sound.ordered, sound.positive, s.host.heap.names.distinct, fun found id inside => ?_⟩
  obtain ⟨raw, held⟩ := Option.isSome_iff_exists.1 (Table.contains_iff_mem_keys.2 inside)
  exact keyed.keys _ _ found id raw held

namespace Marshal

variable {α γ : Type} {base : Host ρ} {taken : List Handle}

/-- What is seen of an object, if `child` tells what is seen of its values. -/
def viewObject (base : Host ρ) (child : Raw → Value) (path : List Handle) (h : Handle) : Bag Value :=
  match listed? base path h with
  | none => Bag.plain.backedBy h
  | some ids =>
    ⟨base.heap.shape h, .ofList ((base.heap.readable h ids).map fun p =>
      (base.heap.names.identifier p.1, child p.2)), some h⟩

/-- What is seen of a value. -/
def view (base : Host ρ) : Nat → List Handle → Raw → Value
  | _, _, .scalar s => .scalar s
  | 0, _, .object _ => .void
  | room + 1, path, .object h => .object (viewObject base (view base room (h :: path)) path h)

/-! ## Computations that look at a host -/

/-- A computation takes over the references `taken` from an owner and hands out those of its result;
the host has lent no others meanwhile. -/
def Looks (base : Host ρ) (taken : List Handle) (op : HostM ρ α) (given : α → List Handle)
    (post : α → Prop) : Prop :=
  ∀ held host, base.Lends (taken ++ held) host →
    base.Lends (given (op.run host).1 ++ held) (op.run host).2 ∧ post (op.run host).1

namespace Looks

variable {given : α → List Handle} {post : α → Prop}

theorem pure {a : α} (same : taken.Perm (given a)) (holds : post a) :
    Looks base taken (Pure.pure a) given post :=
  fun _ _ lends => ⟨lends.perm (same.append_right _), holds⟩

theorem bind {op : HostM ρ α} {next : α → HostM ρ γ} {given' : γ → List Handle} {post' : γ → Prop}
    (first : Looks base taken op given post)
    (second : ∀ a, post a → Looks base (given a) (next a) given' post') :
    Looks base taken (op >>= next) given' post' := by
  intro held host lends
  obtain ⟨lends', holds⟩ := first held host lends
  exact second _ holds held _ lends'

theorem perm {taken' : List Handle} {op : HostM ρ α} (looks : Looks base taken op given post)
    (before : taken'.Perm taken) {given' : α → List Handle}
    (after : ∀ a, (given a).Perm (given' a)) {post' : α → Prop} (weaken : ∀ a, post a → post' a) :
    Looks base taken' op given' post' := by
  intro held host lends
  obtain ⟨lends', holds⟩ := looks held host (lends.perm (before.append_right _))
  exact ⟨lends'.perm ((after _).append_right _), weaken _ holds⟩

theorem frame {op : HostM ρ α} (looks : Looks base taken op given post) (besides : List Handle) :
    Looks base (taken ++ besides) op (fun a => given a ++ besides) post := by
  intro held host lends
  rw [List.append_assoc] at lends
  simpa only [List.append_assoc] using looks _ host lends

end Looks

theorem looks_retainAll (hs : List Handle) :
    Looks base taken (Host.retainAll hs) (fun _ => hs ++ taken) fun _ => True := by
  intro held host lends
  rw [List.append_assoc]
  exact ⟨lends.retainAll hs, trivial⟩

theorem looks_releaseAll (positive : base.heap.Positive) (hs : List Handle) :
    Looks base (hs ++ taken) (Host.releaseAll hs) (fun _ => taken) fun _ => True := by
  intro held host lends
  rw [List.append_assoc] at lends
  exact ⟨lends.releaseAll positive, trivial⟩

theorem looks_getProperty {h : Handle} {id : HostId} (fixed : ∀ names : Names,
    ({ base.heap with names := names } : Heap ρ).lookup h id = base.heap.lookup h id) :
    Looks base taken (Host.getProperty h id) (fun value => value.elim [] Raw.handles ++ taken)
      fun value => value = base.heap.lookup h id := by
  intro held host lends
  rw [List.append_assoc]
  exact ⟨lends.getProperty h id, (lends.heap.alike.lookup h id).trans (fixed _)⟩

theorem looks_propertyIds (h : Handle) :
    Looks base taken (Host.propertyIds h) (fun _ => taken) fun ids => ids = listed? base [] h := by
  intro held host lends
  rw [Host.run_propertyIds, lends.failures, lends.heap.alike.propertyIds?]
  exact ⟨lends, rfl⟩

theorem looks_identifierOf (id : HostId) :
    Looks base taken (Host.identifierOf id) (fun _ => taken) fun key =>
      base.heap.names.Issued id → key = base.heap.names.identifier id := by
  intro held host lends
  exact ⟨lends, lends.heap.names.identifier⟩

/-- A way of reading that answers what is seen and keeps a reference for each bag in it. -/
def Sees (base : Host ρ) (child : Raw → HostM ρ Value) (seen : Raw → Value) : Prop :=
  ∀ raw, Looks base [] (child raw) Value.handles fun v => base.heap.Lawful → v = seen raw

/-! ## Objects -/

theorem looks_readProperties (positive : base.heap.Positive) {child : Raw → HostM ρ Value}
    {seen : Raw → Value} (sees : Sees base child seen) {h : Handle} {ids : List HostId}
    (fixed : ∀ id ∈ ids, ∀ names : Names,
      ({ base.heap with names := names } : Heap ρ).lookup h id = base.heap.lookup h id)
    (done : List (HostId × Identifier × Value)) :
    Looks base (entryHandles (done.map (·.2))) (readProperties child h done ids)
      (fun ps => entryHandles (ps.map (·.2))) fun ps =>
      base.heap.Lawful → (∀ id ∈ ids, base.heap.names.Issued id) →
        ps = ((base.heap.readable h ids).map fun p =>
          (p.1, base.heap.names.identifier p.1, seen p.2)).reverse ++ done := by
  induction ids generalizing done with
  | nil => exact .pure (.refl _) fun _ _ => rfl
  | cons id rest ih =>
    obtain ⟨here, fixed⟩ := List.forall_mem_cons.1 fixed
    have listed : base.heap.readable h (id :: rest)
        = ((base.heap.lookup h id).map (id, ·)).toList ++ base.heap.readable h rest := by
      rw [Heap.readable, List.filterMap_cons]
      cases base.heap.lookup h id <;> rfl
    simp only [listed, List.forall_mem_cons]
    apply (looks_getProperty here).bind
    rintro _ rfl
    cases base.heap.lookup h id with
    | none =>
      exact (ih fixed done).perm (.refl _) (fun _ => .refl _) fun _ all lawful issued =>
        all lawful issued.2
    | some raw =>
      apply (looks_identifierOf id).bind
      intro key named
      refine (((sees raw).frame (raw.handles ++ entryHandles (done.map (·.2)))).perm (.refl _)
        (fun _ => List.perm_append_comm_assoc _ _ _) fun _ holds => holds).bind fun value is => ?_
      refine (looks_releaseAll positive raw.handles).bind fun _ _ => ?_
      refine (ih fixed ((id, key, value) :: done)).perm (.refl _) (fun _ => .refl _) ?_
      intro ps all lawful issued
      rw [all lawful issued.2, named issued.1, is lawful]
      simp

theorem looks_gather (positive : base.heap.Positive) (entries : List (Identifier × Value))
    (table : Table Identifier Value) :
    Looks base (Bag.entryHandles table ++ entryHandles entries) (gather table entries)
      Bag.entryHandles fun t => t = entries.foldl (fun t e => (t.insertNew? e.1 e.2).getD t) table := by
  induction entries generalizing table with
  | nil => exact .pure (by simp [entryHandles]) rfl
  | cons e earlier ih =>
    obtain ⟨key, value⟩ := e
    have besides : (Bag.entryHandles table ++ entryHandles ((key, value) :: earlier)).Perm
        (value.handles ++ (Bag.entryHandles table ++ entryHandles earlier)) :=
      List.perm_append_comm_assoc _ _ _
    rw [gather, List.foldl_cons]
    cases new : table.insertNew? key value with
    | some placed =>
      refine (ih placed).perm (besides.trans ?_) (fun _ => .refl _) fun _ is => is
      rw [← List.append_assoc]
      exact (entryHandles_insertNew? new).symm.append_right _
    | none =>
      exact ((looks_releaseAll positive value.handles).bind fun _ _ => ih table).perm besides
        (fun _ => .refl _) fun _ is => is

/-- Under the name `length` an array answers its length, and any other object a property. -/
theorem lookup_length {heap : Heap ρ} {id : HostId} (named : heap.names.text? id = some "length")
    (h : Handle) : heap.lookup h id = (heap.objects.find? h).bind fun e =>
      match e.form with
      | .array elements => some (.int32 (.ofNat elements.size))
      | _ => e.props.find? id := by
  have name := Names.isName_of_text? named
  simp only [Heap.lookup]
  cases heap.objects.find? h with
  | none => rfl
  | some e =>
    obtain ⟨refs, form, props⟩ := e
    cases form <;> simp [HostId.elementIndex?, name, named]

theorem looks_length (h : Handle) :
    Looks base taken (Host.intern "length" >>= Host.getProperty h)
      (fun value => value.elim [] Raw.handles ++ taken) fun value =>
        ∀ ids, base.heap.propertyIds? h = some ids → ids.any HostId.isName = false →
          value = (base.heap.elements? h).map fun elements => .int32 (.ofNat elements.size) := by
  intro held host lends
  have interned := lends.intern "length"
  have named : (host.heap.intern "length").2.names.text? (host.heap.intern "length").1
      = some "length" := host.heap.names.text?_intern _
  refine ⟨?_, fun ids listed unnamed => ?_⟩
  · rw [List.append_assoc]
    exact interned.getProperty h _
  change (host.heap.intern "length").2.lookup h (host.heap.intern "length").1 = _
  generalize (host.heap.intern "length").1 = id at named ⊢
  have later : base.heap.Alike (host.heap.intern "length").2 := interned.heap.alike
  rw [lookup_length named]
  obtain ⟨⟨refs, form, props⟩, found, rfl⟩ := Option.map_eq_some_iff.1 listed
  obtain ⟨⟨refs', form', props'⟩, found', same⟩ := later.find?_some found
  cases same
  simp only [found, found', Option.bind_some, Heap.elements?]
  -- A property under that name would be listed.
  have absent (unnamed : props.keys.any HostId.isName = false) : props.find? id = none :=
    Table.find?_eq_none_iff.2 fun e inside same =>
      List.any_eq_false.1 unnamed _ (List.mem_map_of_mem inside) (same ▸ Names.isName_of_text? named)
  cases form with
  | array elements => rfl
  | plain => exact absent unnamed
  | function code => exact absent unnamed

theorem looks_hasIntegerLength (positive : base.heap.Positive) (h : Handle) :
    Looks base taken (hasIntegerLength h) (fun _ => taken) fun is =>
      ∀ ids, base.heap.propertyIds? h = some ids → ids.any HostId.isName = false →
        is = (base.heap.elements? h).isSome := by
  rw [hasIntegerLength, ← bind_assoc]
  refine (looks_length h).bind fun value answer => ?_
  have isSome {ids : List HostId} (listed : base.heap.propertyIds? h = some ids)
      (unnamed : ids.any HostId.isName = false) : (base.heap.elements? h).isSome = value.isSome := by
    rw [answer ids listed unnamed, Option.isSome_map]
  split
  next => exact .pure (.refl _) fun ids listed unnamed => (isSome listed unnamed).symm
  next _ raw other =>
    refine (looks_releaseAll positive raw.handles).bind fun _ _ => .pure (.refl _) ?_
    intro ids listed unnamed
    obtain ⟨elements, _, is⟩ := Option.map_eq_some_iff.1 (answer ids listed unnamed).symm
    exact absurd is.symm (other _)
  next => exact .pure (.refl _) fun ids listed unnamed => (isSome listed unnamed).symm

theorem looks_shapeOf (positive : base.heap.Positive) (h : Handle) (keys : List HostId) :
    Looks base taken (shapeOf h keys) (fun _ => taken) fun shape =>
      ∀ ids, base.heap.propertyIds? h = some ids → (∀ id, id ∈ keys ↔ id ∈ ids) →
        shape = base.heap.shape h := by
  simp only [shapeOf]
  by_cases named : keys.any HostId.isName
  · rw [if_pos named]
    refine .pure (.refl _) fun ids listed same => ?_
    obtain ⟨id, inside, name⟩ := List.any_eq_true.1 named
    obtain ⟨⟨refs, form, props⟩, found, rfl⟩ := Option.map_eq_some_iff.1 listed
    cases form with
    | array elements =>
      obtain ⟨i, _, _, rfl⟩ := HostId.exists_of_mem_indices ((same id).1 inside)
      cases name
    | _ => simp [Heap.shape, Heap.elements?, found]
  · rw [if_neg named]
    refine (looks_hasIntegerLength positive h).bind fun is answer => ?_
    have shaped : ∀ ids, base.heap.propertyIds? h = some ids → (∀ id, id ∈ keys ↔ id ∈ ids) →
        (if is then Shape.array else .plain) = base.heap.shape h := by
      intro ids listed same
      have unnamed : ids.any HostId.isName = false := List.any_eq_false.2 fun id inside name =>
        named (List.any_eq_true.2 ⟨id, (same id).2 inside, name⟩)
      rw [answer ids listed unnamed, Heap.shape]
    cases is <;> exact .pure (.refl _) shaped

theorem looks_unexpanded (h : Handle) :
    Looks base taken (unexpanded h) (fun b => b.handles ++ taken) fun b =>
      b = Bag.plain.backedBy h :=
  (looks_retainAll [h]).bind fun _ _ => .pure (.refl _) rfl

theorem looks_readObject (positive : base.heap.Positive) {child : Raw → HostM ρ Value}
    {seen : Raw → Value} (sees : Sees base child seen) (path : List Handle) (h : Handle) :
    Looks base [] (readObject child path h) Bag.handles fun b =>
      base.heap.Lawful → b = viewObject base seen path h := by
  have closed (shut : listed? base path h = none) : Looks base [] (unexpanded h) Bag.handles fun b =>
      base.heap.Lawful → b = viewObject base seen path h := by
    refine (looks_unexpanded h).perm (.refl _) (fun _ => by rw [List.append_nil]) fun b is _ => ?_
    rw [is, viewObject, shut]
  by_cases met : path.contains h
  · rw [readObject, if_pos met]
    exact closed (if_pos met)
  rw [readObject, if_neg met]
  have looked : listed? base path h = listed? base [] h := if_neg met
  refine (looks_propertyIds h).bind fun listed is => ?_
  rw [← looked] at is
  cases listed with
  | none => exact closed is.symm
  | some ids =>
    have owns : base.heap.propertyIds? h = some ids := by
      rw [listed?, if_neg met] at is
      split at is
      · cases is
      · exact is.symm
    refine (looks_readProperties positive sees
      (fun _ inside names => Heap.lookup_withNames owns inside names) []).bind fun properties all => ?_
    refine (looks_shapeOf positive h _).bind fun shape shaped => ?_
    refine ((looks_gather positive (properties.map (·.2)) .empty).perm (.refl _) (fun _ => .refl _)
      fun _ holds => holds).bind fun table gathered => ?_
    refine (looks_retainAll [h]).bind fun _ _ => .pure ?_ fun lawful => ?_
    · rw [Bag.handles_eq]
      exact List.perm_append_comm
    have keys := lawful.readable_keys owns
    have listedAll := all lawful fun _ => lawful.issued_of_listed owns
    rw [List.append_nil] at listedAll
    have names : properties.map (·.1) = ids.reverse := by
      rw [listedAll, List.map_reverse, List.map_map]
      exact congrArg List.reverse keys
    rw [viewObject, ← is]
    congr 1
    · exact shaped ids owns fun id => by rw [names, List.mem_reverse]
    · rw [gathered, listedAll, List.map_reverse, List.foldl_reverse, List.map_map, Table.ofList]
      rfl

/-! ## Values -/

theorem sees_readAt (positive : base.heap.Positive) (room : Nat) (path : List Handle) :
    Sees base (readAt room path) (view base room path) := by
  induction room generalizing path with
  | zero => intro raw; cases raw <;> exact .pure (.refl _) fun _ => rfl
  | succ room ih =>
    intro raw
    cases raw with
    | scalar s => exact .pure (.refl _) fun _ => rfl
    | object h =>
      refine (looks_readObject positive (ih (h :: path)) path h).bind fun b is => ?_
      exact .pure (.refl _) fun lawful => by rw [is lawful, view]

/-- A value that the host lends is read, and the loan ends. -/
theorem sees_readLent (positive : base.heap.Positive) : Sees base readLent (view base depthLimit []) := by
  intro raw
  refine (looks_retainAll raw.handles).bind fun _ _ => ?_
  refine (((sees_readAt positive depthLimit [] raw).frame raw.handles).perm (by simp)
    (fun _ => List.perm_append_comm) fun _ holds => holds).bind fun value is => ?_
  exact (looks_releaseAll positive raw.handles).bind fun _ _ => .pure (.refl _) is

end Marshal

end ScriptBoundary
