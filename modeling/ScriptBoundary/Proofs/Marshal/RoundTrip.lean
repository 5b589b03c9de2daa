import ScriptBoundary.Proofs.Bag.Elements
import ScriptBoundary.Proofs.Host.Upkeep
import ScriptBoundary.Proofs.Marshal.Building
import ScriptBoundary.Proofs.Marshal.Reading

/-!
To the host and back. A value that is written and read again keeps its scalars, and its plain bags
keep their properties. An array keeps its elements, holes as void, and what is nested too deep is
void. Every bag that comes back stands for the object that was made for it.
-/

namespace ScriptBoundary

variable {ρ μ : Type}

namespace Value

/-! A value without its backings. -/

mutual

def bare : Value → Value
  | .scalar s => .scalar s
  | .object ⟨shape, ⟨entries⟩, _⟩ => .object ⟨shape, ⟨bareEntries entries⟩, none⟩

def bareEntries : List (Identifier × Value) → List (Identifier × Value)
  | [] => []
  | (id, v) :: rest => (id, bare v) :: bareEntries rest

end

theorem bareEntries_eq (entries : List (Identifier × Value)) :
    bareEntries entries = entries.map fun e => (e.1, e.2.bare) := by
  induction entries with
  | nil => rfl
  | cons e rest ih => rw [bareEntries, ih, List.map_cons]

theorem bare_object (bag : Bag Value) :
    (Value.object bag).bare = .object ⟨bag.shape, bag.props.mapValues bare, none⟩ := by
  obtain ⟨shape, ⟨entries⟩, backing⟩ := bag
  rw [bare, bareEntries_eq, Table.mapValues]

/-- What the host keeps of a value, with room for some bags inside each other. -/
def normal : Nat → Value → Value
  | _, .scalar s => .scalar s
  | 0, .object _ => .void
  | room + 1, .object b =>
    match b.shape with
    | .plain => .object ⟨.plain, b.props.mapValues (normal room), none⟩
    | .array => .object (.ofElements ((b.elements .void).map (normal room)))

end Value

namespace Marshal

/-! ## Reading what was built -/

variable {base : Host ρ} {post : Raw → Value → Prop}

theorem ObjectRead.entries {path : List Handle} {h : Handle} {b : Bag Value}
    (read : ObjectRead base post path h b) {ids : List HostId}
    (listed : listed? base path h = some ids) :
    ∃ entries, List.Forall₂ (EntryRead base post) (base.heap.readable h ids) entries ∧
      b.props = Table.ofList entries ∧ b.backing = some h ∧
      ShapeRead base h ((base.heap.readable h ids).map (·.1)) b.shape := by
  rw [ObjectRead, listed] at read
  exact read

/-- What is denoted is read under its own identifier. -/
theorem EntryRead.identifier {found : HostId × Raw} {e : Identifier × Value} {id : Identifier}
    (read : EntryRead base post found e) (denotes : base.heap.names.Denotes found.1 id) : e.1 = id := by
  obtain ⟨⟨names, known, answer⟩, _⟩ := read
  exact answer.trans (known.denotes denotes).identifier

theorem listed?_eq {path : List Handle} {h : Handle} (outside : h ∉ path)
    (open_ : base.failures.noEnumeration = false) :
    listed? base path h = base.heap.propertyIds? h := by
  simp [listed?, outside, open_]

section Array

variable {h : Handle} {elements : List Raw}

theorem filterMap_range' {α γ : Type} (f : Nat → α → γ) (as : List α) (k : Nat) :
    ((List.range' k as.length).filterMap fun i => as[i - k]?.map (f i))
      = (as.zipIdx k).map fun e => f e.2 e.1 := by
  induction as generalizing k with
  | nil => rfl
  | cons a rest ih =>
    simp only [List.length_cons, List.range'_succ, List.filterMap_cons, Nat.sub_self,
      List.getElem?_cons_zero, Option.map_some, List.zipIdx_cons, List.map_cons, ← ih]
    congr 1
    apply List.filterMap_congr
    intro i inside
    have later : i - k = i - (k + 1) + 1 := by
      have := (List.mem_range'_1.1 inside).1
      omega
    rw [later, List.getElem?_cons_succ]

theorem propertyIds?_array {heap : Heap ρ} {props : Table HostId Raw}
    (body : heap.body? h = some (.array elements.toArray, props)) :
    heap.propertyIds? h = some (HostId.indices elements.length) := by
  obtain ⟨refs, found⟩ := Heap.find?_of_body? body
  simp [Heap.propertyIds?, found]

theorem lookup_array {heap : Heap ρ} {props : Table HostId Raw}
    (body : heap.body? h = some (.array elements.toArray, props)) {i : Nat} (small : i < 2 ^ 31) :
    heap.lookup h (.ofInt32 (.ofNat i)) = elements[i]? := by
  obtain ⟨refs, found⟩ := Heap.find?_of_body? body
  simp [Heap.lookup, found, HostId.elementIndex?_ofNat small]

/-- An array lists its elements by index. -/
theorem readable_array {heap : Heap ρ} {props : Table HostId Raw}
    (body : heap.body? h = some (.array elements.toArray, props))
    (small : elements.length < 2 ^ 31) :
    heap.readable h (HostId.indices elements.length)
      = elements.zipIdx.map fun e => (.ofInt32 (.ofNat e.2), e.1) := by
  rw [Heap.readable, HostId.indices_of_small small, List.filterMap_map, List.range_eq_range',
    ← filterMap_range' (fun i raw => (HostId.ofInt32 (.ofNat i), raw)) elements 0]
  apply List.filterMap_congr
  intro i inside
  have within := (List.mem_range'_1.1 inside).2
  simp only [Function.comp, Nat.sub_zero]
  rw [lookup_array body (by omega)]

/-- It is read as one, since its length is not listed. -/
theorem ShapeRead.array {props : Table HostId Raw} {ids : List HostId} {shape : Shape}
    (body : base.heap.body? h = some (.array elements.toArray, props))
    (indices : ∀ id ∈ ids, id.isName = false) (read : ShapeRead base h ids shape) : shape = .array := by
  have unnamed : ids.any HostId.isName = false := List.any_eq_false.2 fun id inside => by
    simp [indices id inside]
  obtain ⟨refs, found⟩ := Heap.find?_of_body? body
  rw [ShapeRead, unnamed, if_neg Bool.false_ne_true] at read
  obtain ⟨names, later, known, after, array⟩ := read
  refine array.2 ⟨.ofNat elements.length, ?_⟩
  have length := after.text? (names.text?_intern "length")
  simp [Heap.lookup, found, HostId.elementIndex?, length]

end Array

section Plain

variable {h : Handle} {props : Table HostId Raw}

theorem propertyIds?_plain {heap : Heap ρ} (body : heap.body? h = some (.plain, props)) :
    heap.propertyIds? h = some props.keys := by
  obtain ⟨refs, found⟩ := Heap.find?_of_body? body
  simp [Heap.propertyIds?, found]

theorem lookup_plain {heap : Heap ρ} (body : heap.body? h = some (.plain, props)) (id : HostId) :
    heap.lookup h id = props.find? id := by
  obtain ⟨refs, found⟩ := Heap.find?_of_body? body
  simp [Heap.lookup, found]

theorem readable_plain {heap : Heap ρ} (body : heap.body? h = some (.plain, props))
    (sorted : props.Sorted) : heap.readable h props.keys = props.entries := by
  rw [Heap.readable, Table.keys, List.filterMap_map]
  refine (List.filterMap_congr (g := some) fun e inside => ?_).trans List.filterMap_some
  rw [Function.comp, lookup_plain body, Table.find?_of_mem sorted inside]
  rfl

/-- A plain object has no length but one that is listed. -/
theorem ShapeRead.plain {shape : Shape} (body : base.heap.body? h = some (.plain, props))
    (read : ShapeRead base h props.keys shape) : shape = .plain := by
  rw [ShapeRead] at read
  split at read
  · exact read
  next unnamed =>
    obtain ⟨names, later, known, after, array⟩ := read
    have absent : props.find? (names.intern "length").1 = none :=
      Table.find?_eq_none_iff.2 fun e inside same => by
        have named := List.any_eq_true.2 ⟨e.1, List.mem_map_of_mem inside, same ▸ names.isName_intern _⟩
        exact unnamed named
    have other : shape ≠ .array := fun is => by
      obtain ⟨i, length⟩ := array.1 is
      have body' : ({ base.heap with names := later } : Heap ρ).body? h = some (.plain, props) := body
      have answer := (lookup_plain body' _).symm.trans length
      rw [absent] at answer
      cases answer
    cases shape
    · rfl
    · exact absurd rfl other

end Plain

/-! ## Bags and their objects -/

mutual

/-- Bags stand for the objects at their places. -/
inductive Mirrors (heap : Heap ρ) : Raw → Value → Prop where
  | scalar (s : Scalar) : Mirrors heap (.scalar s) (.scalar s)
  /-- What is nested too deep is not read. -/
  | deep (h : Handle) : Mirrors heap (.object h) .void
  | object {h : Handle} {b : Bag Value} (backed : b.backing = some h)
      (inside : ∀ id v, b.find? id = some v → Placed heap h id v) : Mirrors heap (.object h) (.object b)

/-- A property of an object is mirrored. -/
inductive Placed (heap : Heap ρ) : Handle → Identifier → Value → Prop where
  | intro {h : Handle} {key : HostId} {id : Identifier} {raw : Raw} {v : Value}
      (denotes : heap.names.Denotes key id) (stored : heap.lookup h key = some raw)
      (mirrors : Mirrors heap raw v) : Placed heap h id v

end

/-- Values that were read where others were built. -/
structure Returned (heap : Heap ρ) (n m room : Nat) (raws : List Raw) (vs rs : List Value) : Prop where
  normal : rs.map Value.bare = vs.map (Value.normal room)
  mirrors : List.Forall₂ (Mirrors heap) raws rs
  new : ∀ h ∈ rs.flatMap Value.handles, n < h.number ∧ h.number ≤ m
  distinct : (rs.flatMap Value.handles).Nodup

namespace Returned

variable {heap : Heap ρ} {n k m room : Nat} {raw : Raw} {raws : List Raw} {v r : Value}
  {vs rs : List Value}

theorem cons (first : Returned heap n k room [raw] [v] [r]) (rest : Returned heap k m room raws vs rs)
    (le : n ≤ k) (le' : k ≤ m) : Returned heap n m room (raw :: raws) (v :: vs) (r :: rs) where
  normal := by
    have head := first.normal
    rw [List.map_singleton, List.map_singleton, List.singleton_inj] at head
    rw [List.map_cons, List.map_cons, head, rest.normal]
  mirrors := List.rel_append first.mirrors rest.mirrors
  new := by
    intro h inside
    rcases List.mem_append.1 inside with here | there
    · have := first.new h (by simpa using here)
      omega
    · have := rest.new h there
      omega
  distinct := by
    refine List.nodup_append.2 ⟨by simpa using first.distinct, rest.distinct, fun x here y there => ?_⟩
    have := first.new x (by simpa using here)
    have := rest.new y there
    rintro rfl
    omega

theorem scalar (heap : Heap ρ) (n room : Nat) (s : Scalar) :
    Returned heap n n room [.scalar s] [.scalar s] [.scalar s] where
  normal := by cases room <;> rfl
  mirrors := .cons (.scalar s) .nil
  new _ inside := nomatch inside
  distinct := .nil

theorem deep (heap : Heap ρ) (n k : Nat) (h : Handle) (b : Bag Value) :
    Returned heap n k 0 [.object h] [.object b] [.void] where
  normal := rfl
  mirrors := .cons (.deep h) .nil
  new _ inside := nomatch inside
  distinct := .nil

/-- A bag that was read, with the object that was made for it. -/
theorem object {b : Bag Value} {fields : List (HostId × Raw)} {entries : List (Identifier × Value)}
    (inside : Returned heap (n + 1) k room (fields.map (·.2)) vs (entries.map (·.2)))
    (stored : ∀ f ∈ fields, heap.lookup ⟨n + 1⟩ f.1 = some f.2)
    (keys : List.Forall₂ (fun f e => heap.names.Denotes f.1 e.1) fields entries)
    (props : b.props = ⟨entries⟩) (backed : b.backing = some ⟨n + 1⟩) (le : n + 1 ≤ k)
    {room' : Nat} (normal : (Value.object b).bare = v.normal room') :
    Returned heap n k room' [.object ⟨n + 1⟩] [v] [.object b] := by
  have handles : (Value.object b).handles = (entries.map (·.2)).flatMap Value.handles ++ [⟨n + 1⟩] := by
    change b.handles = _
    rw [Bag.handles_eq, props, backed]
    rfl
  have mirrored : List.Forall₂ (fun f e => Mirrors heap f.2 e.2) fields entries := by
    simpa only [List.forall₂_map_left_iff, List.forall₂_map_right_iff] using inside.mirrors
  refine ⟨by simp [normal], .cons (.object backed fun id v found => ?_) .nil, ?_, ?_⟩
  · have there : (id, v) ∈ entries := by
      have := Table.mem_of_find? found
      rwa [props] at this
    obtain ⟨f, from_, denotes, mirrors⟩ := exists_of_mem_right (forall₂_and keys mirrored) there
    exact .intro denotes (stored f from_) mirrors
  · intro h inside'
    rw [List.flatMap_singleton, handles] at inside'
    rcases List.mem_append.1 inside' with there | here
    · have := inside.new h there
      omega
    · obtain rfl := List.mem_singleton.1 here
      exact ⟨Nat.lt_succ_self n, le⟩
  · rw [List.flatMap_singleton, handles]
    refine List.nodup_append.2 ⟨inside.distinct, List.pairwise_singleton _ _, fun x there y here => ?_⟩
    obtain rfl := List.mem_singleton.1 here
    rintro rfl
    exact absurd (inside.new _ there).1 (Nat.lt_irrefl _)

end Returned

section Places

variable {elements : List Raw} {entries : List (Identifier × Value)}

/-- The entries of an array are its elements in order. -/
theorem entries_of_elements {k : Nat}
    (read : List.Forall₂ (EntryRead base post)
      ((elements.zipIdx k).map fun e => (.ofInt32 (.ofNat e.2), e.1)) entries) :
    List.Forall₂ post elements (entries.map (·.2)) ∧
      List.Forall₂ (fun f e => base.heap.names.Denotes f.1 e.1)
        ((elements.zipIdx k).map fun e => (.ofInt32 (.ofNat e.2), e.1)) entries ∧
      entries = ((entries.map (·.2)).zipIdx k).map fun e => (.index (.ofNat e.2), e.1) := by
  induction elements generalizing k entries with
  | nil => cases read; exact ⟨.nil, .nil, rfl⟩
  | cons raw rest ih =>
    cases read with
    | @cons _ e _ entries first later =>
      obtain ⟨related, keys, same⟩ := ih later
      have key : e.1 = .index (.ofNat k) := first.identifier rfl
      refine ⟨.cons first.2 related, .cons ?_ keys, ?_⟩
      · rw [key]
        rfl
      · rw [List.map_cons, List.zipIdx_cons, List.map_cons, ← same, ← key]

theorem ascending_indices (values : List Value) {k : Nat} (small : k + values.length ≤ 2 ^ 31) :
    Table.Ascending ((values.zipIdx k).map fun e => (Identifier.index (.ofNat e.2), e.1)) := by
  induction values generalizing k with
  | nil => exact .nil
  | cons v rest ih =>
    rw [List.length_cons] at small
    rw [List.zipIdx_cons, List.map_cons]
    refine List.pairwise_cons.2 ⟨fun e inside => ?_, ih (by omega)⟩
    obtain ⟨⟨value, i⟩, there, rfl⟩ := List.mem_map.1 inside
    obtain ⟨after, before, _⟩ := List.mem_zipIdx there
    apply Int.compare_eq_lt.2
    rw [HostId.toInt_ofNat (by omega), HostId.toInt_ofNat (by omega)]
    omega

/-- Properties are read under the identifiers that they were written under. -/
theorem keys_of_fields {fields : List (HostId × Raw)} {written : List (Identifier × Value)}
    (keys : List.Forall₂ (fun f e => base.heap.names.Denotes f.1 e.1) fields written)
    (read : List.Forall₂ (EntryRead base post) fields entries) :
    entries.map (·.1) = written.map (·.1) ∧
      List.Forall₂ post (fields.map (·.2)) (entries.map (·.2)) ∧
      List.Forall₂ (fun f e => base.heap.names.Denotes f.1 e.1) fields entries := by
  induction keys generalizing entries with
  | nil => cases read; exact ⟨rfl, .nil, .nil⟩
  | cons denotes _ ih =>
    cases read with
    | @cons _ e _ entries first later =>
      obtain ⟨same, related, denoted⟩ := ih later
      have key := first.identifier denotes
      exact ⟨by rw [List.map_cons, List.map_cons, key, same], .cons first.2 related,
        .cons (key ▸ denotes) denoted⟩

end Places

/-- An array is read back from the object that was made for it. -/
theorem returned_array {n k room : Nat} {elements : List Raw} {b r : Bag Value} {path : List Handle}
    (shape : b.shape = .array) (sorted : b.props.Sorted)
    (body : base.heap.body? ⟨n + 1⟩ = some (.array elements.toArray, .empty))
    (built : Holds base.heap (n + 1) k elements (b.elements .void))
    (inside : ∀ rs, List.Forall₂ post elements rs →
      Returned base.heap (n + 1) k room elements (b.elements .void) rs)
    (listed : listed? base path ⟨n + 1⟩ = base.heap.propertyIds? ⟨n + 1⟩)
    (read : ObjectRead base post path ⟨n + 1⟩ r) :
    Returned base.heap n k (room + 1) [.object ⟨n + 1⟩] [.object b] [.object r] := by
  have small : elements.length < 2 ^ 31 := by
    rw [built.length_eq]
    exact Bag.length_elements_lt sorted _
  obtain ⟨entries, found, props, backed, shaped⟩ :=
    read.entries (listed.trans (propertyIds?_array body))
  rw [readable_array body small] at found shaped
  obtain ⟨related, keys, ordered⟩ := entries_of_elements found
  have back := inside _ related
  have array : r.shape = .array := shaped.array body fun id listed => by
    rw [List.map_map] at listed
    obtain ⟨e, _, rfl⟩ := List.mem_map.1 listed
    rfl
  generalize values_ : entries.map (·.2) = values at related ordered back
  have length : 0 + values.length ≤ 2 ^ 31 := by
    rw [← related.length_eq]
    omega
  have ascending : Table.Ascending entries := ordered ▸ ascending_indices values length
  have stored : ∀ f ∈ elements.zipIdx.map fun e => (HostId.ofInt32 (.ofNat e.2), e.1),
      base.heap.lookup ⟨n + 1⟩ f.1 = some f.2 := by
    intro f there
    obtain ⟨⟨raw, i⟩, place, rfl⟩ := List.mem_map.1 there
    have at_ := List.mem_zipIdx_iff_getElem?.1 place
    have early : i < elements.length := (List.getElem?_eq_some_iff.1 at_).1
    rw [lookup_array body (by omega)]
    exact at_
  have made := props.trans (Table.ofList_of_ascending ascending)
  have listed_ : (elements.zipIdx.map fun e => (HostId.ofInt32 (.ofNat e.2), e.1)).map (·.2)
      = elements := by
    rw [List.map_map]
    exact List.zipIdx_map_fst 0 elements
  rw [← values_] at back
  apply Returned.object (listed_ ▸ back) stored keys made backed built.le
  have normal := back.normal
  rw [values_] at normal
  rw [Value.bare_object, array, made, Value.normal, shape, ← normal]
  have ascending' := ascending_indices (values.map Value.bare) (by rwa [List.length_map])
  rw [Bag.ofElements, Table.ofList_of_ascending ascending', ordered]
  simp [Table.mapValues, List.zipIdx_map]

theorem ascending_of_keys {es es' : List (Identifier × Value)} (same : es.map (·.1) = es'.map (·.1))
    (sorted : Table.Ascending es') : Table.Ascending es := by
  have keys : (es'.map (·.1)).Pairwise fun a b => compare a b = .lt := List.pairwise_map.2 sorted
  exact List.pairwise_map.1 (same ▸ keys)

theorem entries_eq {es es' : List (Identifier × Value)} {f g : Value → Value}
    (keys : es.map (·.1) = es'.map (·.1)) (values : (es.map (·.2)).map f = (es'.map (·.2)).map g) :
    (es.map fun e => (e.1, f e.2)) = es'.map fun e => (e.1, g e.2) := by
  have zipped (es : List (Identifier × Value)) (f : Value → Value) :
      (es.map fun e => (e.1, f e.2)) = (es.map (·.1)).zip ((es.map (·.2)).map f) := by
    rw [List.map_map, List.zip_map']
    rfl
  rw [zipped es, zipped es', keys, values]

/-- A plain bag is read back from the object that was made for it. -/
theorem returned_plain {n k room : Nat} {b r : Bag Value} {path : List Handle}
    {props : Table HostId Raw} {fields : List (HostId × Raw)} (shape : b.shape = .plain)
    (sorted : b.props.Sorted) (body : base.heap.body? ⟨n + 1⟩ = some (.plain, props))
    (propsSorted : props.Sorted) (filed : props.entries.Perm fields)
    (keys : List.Forall₂ (fun f e => base.heap.names.Denotes f.1 e.1) fields b.props.entries)
    (built : Holds base.heap (n + 1) k (fields.map (·.2)) b.props.values)
    (inside : ∀ rs, List.Forall₂ post (fields.map (·.2)) rs →
      Returned base.heap (n + 1) k room (fields.map (·.2)) b.props.values rs)
    (listed : listed? base path ⟨n + 1⟩ = base.heap.propertyIds? ⟨n + 1⟩)
    (read : ObjectRead base post path ⟨n + 1⟩ r) :
    Returned base.heap n k (room + 1) [.object ⟨n + 1⟩] [.object b] [.object r] := by
  obtain ⟨found, foundRead, made, backed, shaped⟩ :=
    read.entries (listed.trans (propertyIds?_plain body))
  rw [readable_plain body propsSorted] at foundRead shaped
  -- What was found in the order of the host, in the order in which it was written.
  obtain ⟨entries, fieldsRead, perm⟩ := List.perm_comp_forall₂ filed.symm foundRead
  obtain ⟨same, related, denoted⟩ := keys_of_fields keys fieldsRead
  have ascending : Table.Ascending entries := ascending_of_keys same sorted
  have props_ : r.props = ⟨entries⟩ :=
    made.trans (Table.ofList_of_perm (t := ⟨entries⟩) ascending perm.symm)
  have back := inside _ related
  have stored : ∀ f ∈ fields, base.heap.lookup ⟨n + 1⟩ f.1 = some f.2 := fun f there => by
    rw [lookup_plain body]
    exact Table.find?_of_mem propsSorted (filed.mem_iff.2 there)
  apply back.object stored denoted props_ backed built.le
  rw [Value.bare_object, shaped.plain body, props_, Value.normal, shape]
  have seconds : (entries.map (·.2)).map Value.bare
      = (b.props.entries.map (·.2)).map (Value.normal room) := back.normal
  have equal := entries_eq same seconds
  simp only [Table.mapValues, equal]

/-- Values that are built in a heap are read back from it. -/
theorem Holds.returned {n m room : Nat} {raws : List Raw} {vs rs : List Value} {path : List Handle}
    (holds : Holds base.heap n m raws vs) (ordered : base.heap.Ordered)
    (open_ : base.failures.noEnumeration = false)
    (outside : ∀ h ∈ path, h.number ≤ n)
    (read : List.Forall₂ (ValueRead base room path) raws rs) : Returned base.heap n m room raws vs rs := by
  have listed {n : Nat} {path : List Handle} (outside : ∀ h ∈ path, h.number ≤ n) :
      listed? base path ⟨n + 1⟩ = base.heap.propertyIds? ⟨n + 1⟩ :=
    listed?_eq (fun there => absurd (outside _ there) (Nat.not_succ_le_self n)) open_
  have deeper {n : Nat} {path : List Handle} (outside : ∀ h ∈ path, h.number ≤ n) :
      ∀ h ∈ (⟨n + 1⟩ : Handle) :: path, h.number ≤ n + 1 :=
    List.forall_mem_cons.2 ⟨Nat.le_refl _, fun h there => Nat.le_succ_of_le (outside h there)⟩
  induction holds generalizing room path rs with
  | nil n =>
    cases read
    exact ⟨rfl, .nil, fun _ inside => (nomatch inside), .nil⟩
  | @scalar n m raws vs s rest ih =>
    cases read with
    | @cons _ r _ rs first later =>
      have same : r = .scalar s := by cases room <;> exact first
      subst same
      exact (Returned.scalar base.heap n room s).cons (ih outside later) (Nat.le_refl n) rest.le
  | @array n k m raws elements vs b shape sorted body inside rest ihInside ihRest =>
    have within : n ≤ k := Nat.le_of_succ_le inside.le
    cases read with
    | cons first later =>
      have after := ihRest (fun h there => Nat.le_trans (outside h there) within) later
      cases room with
      | zero =>
        cases first
        exact (Returned.deep base.heap n k _ b).cons after within rest.le
      | succ room =>
        obtain ⟨r, rfl, read⟩ := first
        exact (returned_array shape sorted body inside (fun _ => ihInside (deeper outside))
          (listed outside) read).cons after within rest.le
  | @plain n k m raws vs b props fields shape sorted body filed keys inside rest ihInside ihRest =>
    have within : n ≤ k := Nat.le_of_succ_le inside.le
    have propsSorted : props.Sorted := by
      obtain ⟨refs, found⟩ := Heap.find?_of_body? body
      exact ordered.props found
    cases read with
    | cons first later =>
      have after := ihRest (fun h there => Nat.le_trans (outside h there) within) later
      cases room with
      | zero =>
        cases first
        exact (Returned.deep base.heap n k _ b).cons after within rest.le
      | succ room =>
        obtain ⟨r, rfl, read⟩ := first
        exact (returned_plain shape sorted body propsSorted filed keys inside
          (fun _ => ihInside (deeper outside)) (listed outside) read).cons after within rest.le

/-! ## There and back -/

variable {β : Behaviour ρ μ} {s : Ledger ρ} {element : Option (String × String)} {w : World ρ μ}
  {v : Value}

/-- What the global object hides under known names decides what it hides under all. -/
theorem constructs_of_keyed {heap : Heap ρ} (keyed : heap.Keyed Names.Knows)
    (free : ∀ shape id f, heap.names.text? id = some (constructorName shape) →
      heap.lookup Host.global id ≠ some (.object f)) : Constructs heap := by
  intro names later form props body shape id named f held
  obtain ⟨refs, found⟩ := Heap.find?_of_body? body
  obtain ⟨text, known⟩ := keyed.keys _ _ found id _ held (Names.isName_of_text? named)
  have same : some text = some (constructorName shape) := (later.text? known).symm.trans named
  have named' : heap.names.text? id = some (constructorName shape) := known.trans same
  exact free shape id f named' ((lookup_constructorName body named').trans held)

/-- Values can be built on every host in use that hides no constructor. -/
theorem fit_of_reachable (reached : Ledger.Reachable β Names.Knows element s) (here : w.host = s.host)
    (free : ∀ shape id f, s.host.heap.names.text? id = some (constructorName shape) →
      s.host.heap.lookup Host.global id ≠ some (.object f)) :
    Fit s.host.heap.Freed w s.owned := by
  have tidy := Ledger.tidy_of_reachable reached
  refine ⟨?_, ?_, Ledger.mem_owned_of_own List.mem_cons_self, ?_, ?_⟩
  · exact here ▸ (Ledger.balanced_of_reachable reached).heap
  · exact here ▸ tidy.failures
  · rintro ⟨_, freed⟩
    obtain ⟨e, found⟩ := Ledger.global_lives reached
    rw [freed] at found
    cases found
  · exact here ▸ constructs_of_keyed tidy.keyed free

/-- A value without backings that is written and read again is its normal form, and every bag of it
is backed by an object of its own that was made by the writing. -/
theorem read_write (reached : Ledger.Reachable β Names.Knows element s) (here : w.host = s.host)
    (free : ∀ shape id f, s.host.heap.names.text? id = some (constructorName shape) →
      s.host.heap.lookup Host.global id ≠ some (.object f))
    (sorted : v.Sorted) (unbacked : v.handles = []) :
    ∃ raw w', (write β v).outcome w = (.ok raw, w') ∧
      let r := ((read raw).run w'.host).1
      r.bare = v.normal depthLimit ∧ Mirrors w'.host.heap raw r ∧ r.handles.Nodup ∧
        ∀ h ∈ r.handles, ¬ s.host.heap.Issued h ∧ w'.host.heap.Issued h := by
  have fit := fit_of_reachable reached here free
  obtain ⟨raw, w', ran, fit', _, holds⟩ := builds_write v sorted unbacked _ w _ fit (β := β)
  have ordered := fit'.sound.ordered
  have open_ : w'.host.failures.noEnumeration = false := congrArg _ fit'.failures
  obtain ⟨_, _, read⟩ := reads_read ordered raw _ _ _ (.refl _) fit'.sound
  have back := holds.returned ordered open_ (List.forall_mem_nil _) (.cons read .nil)
  refine ⟨raw, w', ran, by simpa using back.normal, ?_, by simpa using back.distinct, ?_⟩
  · cases back.mirrors with
    | cons mirrors _ => exact mirrors
  · intro h inside
    obtain ⟨new, known⟩ := back.new h (by simpa using inside)
    rw [here] at new
    exact ⟨fun issued => Nat.not_le_of_gt new issued.2, Nat.zero_lt_of_lt new, known⟩

/-- A sparse array under the name `3`, next to an integer key: the hole comes back as void. -/
theorem read_write_of_sparse :
    let sparse : Bag Value := ⟨.array, ⟨[(.index 0, .int32 7), (.index 2, .string "x")]⟩, none⟩
    let full : Bag Value := .ofElements [.int32 7, .void, .string "x"]
    let bag (items : Bag Value) : Value :=
      .object ⟨.plain, ⟨[(.name "3", .object items), (.index 3, .boolean true)]⟩, none⟩
    ∃ (β : Behaviour Unit Unit) (w w' : World Unit Unit) (raw : Raw),
      w.host = Host.start none ∧ (write β (bag sparse)).outcome w = (.ok raw, w') ∧
        ((read raw).run w'.host).1.bare = bag full := by
  intro sparse full bag
  let β : Behaviour Unit Unit := ⟨fun _ _ => pure none, fun _ _ _ _ => pure .unhandled, fun _ => []⟩
  let w : World Unit Unit := ⟨Host.start none, [], 0, none, none, [], false, [], [], none⟩
  have sorted : (bag sparse).Sorted := by
    simp only [bag, sparse, Value.Sorted, Value.EntriesSorted, Table.Ascending, List.pairwise_cons,
      List.forall_mem_singleton, List.Pairwise.nil, and_true]
    decide
  have free : ∀ shape id f, (Host.start none : Host Unit).heap.names.text? id
      = some (constructorName shape) →
      (Host.start none : Host Unit).heap.lookup Host.global id ≠ some (.object f) := by
    intro shape id f named
    cases id <;> cases named
  obtain ⟨raw, w', ran, normal, _⟩ := read_write (.start : Ledger.Reachable β Names.Knows none _)
    (w := w) rfl free sorted rfl
  exact ⟨β, w, w', raw, rfl, ran, normal⟩

end Marshal

end ScriptBoundary
