import ScriptBoundary.Proofs.Marshal.View

/-!
A bag that was read agrees with the host along trails: the properties met when one object after
another is entered, none of them twice. What can be found in the bag is found at the end of such a
trail, and what is found there is in the bag, down to the depth limit.
-/

namespace ScriptBoundary

variable {ρ : Type}

namespace Value

/-- What stands in a value under one key after another. -/
def follow : List Identifier → Value → Option Value
  | [], v => some v
  | _ :: _, .scalar _ => none
  | key :: rest, .object bag => (bag.find? key).bind (follow rest)

/-! How many bags stand inside each other. -/

mutual

def depth : Value → Nat
  | .scalar _ => 0
  | .object ⟨_, ⟨entries⟩, _⟩ => entriesDepth entries + 1

def entriesDepth : List (Identifier × Value) → Nat
  | [] => 0
  | (_, v) :: rest => max (depth v) (entriesDepth rest)

end

theorem entriesDepth_le {entries : List (Identifier × Value)} {n : Nat} :
    entriesDepth entries ≤ n ↔ ∀ e ∈ entries, e.2.depth ≤ n := by
  induction entries with
  | nil => simp [entriesDepth]
  | cons e rest ih => rw [entriesDepth, Nat.max_le, ih, List.forall_mem_cons]

theorem depth_object_le {bag : Bag Value} {n : Nat} :
    (Value.object bag).depth ≤ n + 1 ↔ ∀ e ∈ bag.props.entries, e.2.depth ≤ n := by
  obtain ⟨shape, ⟨entries⟩, backing⟩ := bag
  rw [depth, Nat.add_le_add_iff_right, entriesDepth_le]

end Value

namespace Marshal

/-- Properties that are entered one after another, each listed by the object reached so far, and the
objects that are entered. -/
inductive Trail (host : Host ρ) : Raw → List HostId → List Handle → Raw → Prop where
  | here (raw : Raw) : Trail host raw [] [] raw
  | into {h : Handle} {listed : List HostId} {id : HostId} {raw last : Raw} {ids : List HostId}
      {containers : List Handle} (lists : listed? host [] h = some listed) (inside : id ∈ listed)
      (stored : host.heap.lookup h id = some raw) (rest : Trail host raw ids containers last) :
      Trail host (.object h) (id :: ids) (h :: containers) last

/-- A bag shows the properties of an object. It is an array exactly when the object is one, and then
its keys are the indices of the elements. An object that lists nothing is not looked into. -/
def Expanded (host : Host ρ) (h : Handle) (b : Bag Value) : Prop :=
  match listed? host [] h with
  | none => b = Bag.plain.backedBy h
  | some ids => b.backing = some h ∧ b.identifiers.Perm (ids.map host.heap.names.identifier) ∧
      match host.heap.elements? h with
      | none => b.shape = .plain
      | some elements => b.shape = .array ∧
          b.identifiers = (List.range elements.size).map fun i => .index (.ofNat i)

/-- What a bag holds where a trail ends, through so many containers. -/
def Shown (host : Host ρ) (containers : List Handle) : Raw → Value → Prop
  | .scalar s, v => v = .scalar s
  | .object h, v =>
    if containers.length = depthLimit then v = .void
    else if h ∈ containers then v = .object (Bag.plain.backedBy h)
    else ∃ b, v = .object b ∧ b.backing = some h ∧ Expanded host h b

variable {base : Host ρ} {path : List Handle} {h : Handle} {ids : List HostId}

theorem propertyIds?_of_listed? (listed : listed? base path h = some ids) :
    h ∉ path ∧ listed? base [] h = some ids ∧ base.heap.propertyIds? h = some ids := by
  unfold listed? at listed ⊢
  split at listed
  · cases listed
  next new =>
    split at listed
    · cases listed
    next open_ => exact ⟨by simpa using new, by simpa [open_] using listed, listed⟩

theorem listed?_of_new (new : h ∉ path) : listed? base path h = listed? base [] h := by
  simp [listed?, new]

/-! ## One object -/

section Object

variable (child : Raw → Value) (lawful : base.heap.Lawful)
  (listed : listed? base path h = some ids)
include lawful listed

/-- The properties of an object are seen under keys of their own. -/
theorem different_keys : ((base.heap.readable h ids).map fun p =>
    (base.heap.names.identifier p.1, child p.2)).Pairwise fun d e => d.1 ≠ e.1 := by
  have owns := (propertyIds?_of_listed? listed).2.2
  have distinct : ((base.heap.readable h ids).map (·.1)).Nodup := by
    rw [lawful.readable_keys owns]
    exact lawful.nodup_listed owns
  refine List.pairwise_map.2 ((List.pairwise_map.1 distinct).imp_of_mem fun {p q} here there other => ?_)
  have issued {p : HostId × Raw} (inside : p ∈ base.heap.readable h ids) :
      base.heap.names.Issued p.1 := by
    have := List.mem_map_of_mem (f := (·.1)) inside
    exact lawful.issued_of_listed owns (lawful.readable_keys owns ▸ this)
  exact fun same => other (((issued here).identifier_inj (issued there)).1 same)

theorem find?_viewObject {key : Identifier} {v : Value} :
    (viewObject base child path h).find? key = some v ↔
      ∃ id ∈ ids, ∃ raw, base.heap.lookup h id = some raw ∧
        key = base.heap.names.identifier id ∧ v = child raw := by
  have different := different_keys child lawful listed
  rw [viewObject, listed, Bag.find?, ← Table.mem_iff_find? (Table.sorted_ofList _),
    (Table.entries_ofList_perm different).mem_iff]
  simp only [List.mem_map, Heap.readable, List.mem_filterMap, Prod.mk.injEq, Option.map_eq_some_iff]
  constructor
  · rintro ⟨_, ⟨id, inside, raw, stored, rfl⟩, rfl, rfl⟩
    exact ⟨id, inside, raw, stored, rfl, rfl⟩
  · rintro ⟨id, inside, raw, stored, rfl, rfl⟩
    exact ⟨_, ⟨id, inside, raw, stored, rfl⟩, rfl, rfl⟩

end Object

/-- Elements are seen in the order of their indices. -/
theorem identifiers_array {n : Nat} (small : n < 2 ^ 31) {entries : List (Identifier × Value)}
    (keys : entries.map (·.1) = (List.range n).map fun i => .index (.ofNat i)) :
    (Table.ofList entries).keys = (List.range n).map fun i => .index (.ofNat i) := by
  have ascending : Table.Ascending entries := by
    refine List.pairwise_map.1 (keys ▸ List.pairwise_map.2 ?_ :
      (entries.map (·.1)).Pairwise fun a b => compare a b = .lt)
    refine List.pairwise_lt_range.imp_of_mem fun {i j} here there before => ?_
    have := List.mem_range.1 here
    have := List.mem_range.1 there
    change compare (Int32.ofNat i).toInt (Int32.ofNat j).toInt = .lt
    rw [HostId.toInt_ofNat (by omega), HostId.toInt_ofNat (by omega), Int.compare_eq_lt]
    omega
  rw [Table.ofList_of_ascending ascending]
  exact keys

theorem backing_viewObject (base : Host ρ) (child : Raw → Value) (path : List Handle) (h : Handle) :
    (viewObject base child path h).backing = some h := by
  rw [viewObject]
  split <;> rfl

theorem expanded_viewObject (child : Raw → Value) (legible : base.heap.Legible) (new : h ∉ path) :
    Expanded base h (viewObject base child path h) := by
  rw [Expanded, viewObject, listed?_of_new new]
  cases lists : listed? base [] h with
  | none => rfl
  | some ids =>
    have owns := (propertyIds?_of_listed? lists).2.2
    have different := different_keys child legible.toLawful lists
    have keys : ((base.heap.readable h ids).map fun p =>
        (base.heap.names.identifier p.1, child p.2)).map (·.1)
          = ids.map base.heap.names.identifier := by
      rw [← congrArg (List.map base.heap.names.identifier) (legible.readable_keys owns), List.map_map,
        List.map_map]
      rfl
    have perm := (Table.entries_ofList_perm different).map Prod.fst
    rw [keys] at perm
    refine ⟨rfl, perm, ?_⟩
    simp only [Heap.shape]
    cases array : base.heap.elements? h with
    | none => rfl
    | some elements =>
      refine ⟨rfl, identifiers_array (legible.small array) ?_⟩
      obtain ⟨⟨refs, form, props⟩, found, rfl⟩ := Heap.elements?_eq_some.1 array
      obtain rfl : HostId.indices elements.size = ids := by
        simpa [Heap.propertyIds?, found] using owns
      rw [keys, HostId.indices_of_small (legible.small array), List.map_map]
      exact List.map_congr_left fun i _ => by simp [Names.identifier]

/-! ## Trails -/

theorem Trail.length_eq {raw last : Raw} {containers : List Handle}
    (trail : Trail base raw ids containers last) : containers.length = ids.length := by
  induction trail with
  | here => rfl
  | into _ _ _ _ ih => rw [List.length_cons, List.length_cons, ih]

/-- What is at the end of a trail is seen there. -/
theorem Trail.follow_view (lawful : base.heap.Lawful) {raw last : Raw} {containers : List Handle}
    (trail : Trail base raw ids containers last) (distinct : containers.Nodup) {room : Nat}
    (outside : ∀ h ∈ containers, h ∉ path) (fits : ids.length ≤ room) :
    (view base room path raw).follow (ids.map base.heap.names.identifier)
      = some (view base (room - ids.length) (containers.reverse ++ path) last) := by
  induction trail generalizing room path with
  | here raw => rfl
  | @into h listed id raw last ids containers lists inside stored rest ih =>
    obtain ⟨new, distinct⟩ := List.nodup_cons.1 distinct
    obtain ⟨here, outside⟩ := List.forall_mem_cons.1 outside
    obtain ⟨room, rfl⟩ : ∃ less, room = less + 1 := Nat.exists_eq_succ_of_ne_zero (by
      rintro rfl
      cases fits)
    have found := (find?_viewObject (view base room (h :: path)) lawful
      ((listed?_of_new here).trans lists)).2 ⟨id, inside, raw, stored, rfl, rfl⟩
    rw [List.map_cons, view, Value.follow, found, Option.bind_some,
      ih distinct (fun x there => ?_) (Nat.le_of_succ_le_succ fits), List.length_cons,
      Nat.add_sub_add_right, List.reverse_cons, List.append_assoc]
    · rfl
    · rintro (_ | ⟨_, further⟩)
      · exact new there
      · exact outside x there further

/-- What is seen is at the end of a trail. -/
theorem exists_trail (lawful : base.heap.Lawful) {keys : List Identifier} {room : Nat} {raw : Raw}
    {v : Value} (found : (view base room path raw).follow keys = some v) :
    ∃ ids containers last, Trail base raw ids containers last ∧
      keys = ids.map base.heap.names.identifier ∧ containers.Nodup ∧ (∀ h ∈ containers, h ∉ path) ∧
      ids.length ≤ room ∧ v = view base (room - ids.length) (containers.reverse ++ path) last := by
  induction keys generalizing room path raw with
  | nil =>
    cases found
    exact ⟨[], [], raw, .here raw, rfl, .nil, by simp, Nat.zero_le _, rfl⟩
  | cons key keys ih =>
    cases raw with
    | scalar s => rw [view] at found; cases found
    | object h =>
      cases room with
      | zero => cases found
      | succ room =>
        rw [view, Value.follow] at found
        obtain ⟨next, here, found⟩ := Option.bind_eq_some_iff.1 found
        cases lists : listed? base path h with
        | none =>
          rw [viewObject, lists] at here
          cases here
        | some listed =>
          obtain ⟨id, inside, raw, stored, rfl, rfl⟩ := (find?_viewObject _ lawful lists).1 here
          obtain ⟨new, lists, _⟩ := propertyIds?_of_listed? lists
          obtain ⟨ids, containers, last, trail, rfl, distinct, outside, fits, is⟩ := ih found
          refine ⟨id :: ids, h :: containers, last, .into lists inside stored trail, rfl,
            List.nodup_cons.2 ⟨fun there => outside h there List.mem_cons_self, distinct⟩,
            List.forall_mem_cons.2 ⟨new, fun x there further =>
              outside x there (List.mem_cons_of_mem _ further)⟩,
            Nat.succ_le_succ fits, ?_⟩
          rw [is, List.length_cons, Nat.add_sub_add_right, List.reverse_cons, List.append_assoc]
          rfl

theorem shown_view (legible : base.heap.Legible) {containers : List Handle}
    (fits : containers.length ≤ depthLimit) (last : Raw) :
    Shown base containers last
      (view base (depthLimit - containers.length) (containers.reverse ++ []) last) := by
  cases last with
  | scalar s => cases depthLimit - containers.length <;> rfl
  | object h =>
    rw [Shown]
    split
    next full => rw [full, Nat.sub_self, view]
    next free =>
      obtain ⟨room, more⟩ : ∃ room, depthLimit - containers.length = room + 1 :=
        Nat.exists_eq_succ_of_ne_zero (by omega)
      rw [more, view]
      split
      next met => simp [viewObject, listed?, met]
      next new =>
        exact ⟨_, rfl, backing_viewObject _ _ _ _, expanded_viewObject _ legible (by simpa using new)⟩

theorem depth_view (room : Nat) (path : List Handle) (raw : Raw) :
    (view base room path raw).depth ≤ room := by
  induction room generalizing path raw with
  | zero => cases raw <;> simp [view, Value.depth]
  | succ room ih =>
    cases raw with
    | scalar s => simp [view, Value.depth]
    | object h =>
      rw [view, Value.depth_object_le]
      intro e inside
      rw [viewObject] at inside
      split at inside
      · cases inside
      · obtain ⟨p, _, rfl⟩ := List.mem_map.1 (Table.mem_ofList inside)
        exact ih _ _

/-- Reading an object that the host lends changes none. Its bags count one reference each, and stand
no deeper than the limit inside each other. The result shows what is at the end of every trail that
enters no object twice, and nothing else. -/
theorem read_along_trails (host : Host ρ) (legible : host.heap.Legible) (h : Handle) :
    ∃ v host', (readLent (.object h)).run host = (v, host') ∧
      host.Lends v.handles host' ∧ v.depth ≤ depthLimit ∧
      (∀ ids containers last, Trail host (.object h) ids containers last → containers.Nodup →
        ids.length ≤ depthLimit →
          ∃ end_, v.follow (ids.map host.heap.names.identifier) = some end_ ∧
            Shown host containers last end_) ∧
      ∀ keys end_, v.follow keys = some end_ →
        ∃ ids containers last, Trail host (.object h) ids containers last ∧ containers.Nodup ∧
          ids.length ≤ depthLimit ∧ keys = ids.map host.heap.names.identifier ∧
          Shown host containers last end_ := by
  obtain ⟨v, host', ran⟩ : ∃ v host', (readLent (.object h)).run host = (v, host') := ⟨_, _, rfl⟩
  obtain ⟨lends, is⟩ := sees_readLent legible.positive (.object h) [] host (.refl host)
  rw [ran, List.append_nil] at lends
  rw [ran] at is
  obtain rfl : v = view host depthLimit [] (.object h) := is legible.toLawful
  refine ⟨_, host', ran, lends, depth_view _ _ _, ?_, ?_⟩
  · intro ids containers last trail distinct fits
    refine ⟨_, trail.follow_view legible.toLawful distinct (fun _ _ inside => nomatch inside) fits, ?_⟩
    rw [← trail.length_eq] at fits ⊢
    exact shown_view legible fits last
  · intro keys end_ found
    obtain ⟨ids, containers, last, trail, rfl, distinct, _, fits, rfl⟩ := exists_trail legible.toLawful found
    refine ⟨ids, containers, last, trail, distinct, fits, rfl, ?_⟩
    rw [← trail.length_eq] at fits ⊢
    exact shown_view legible fits last

/-- An object that holds itself, and an array that holds it again. -/
def cyclic : Host Unit where
  heap :=
    { objects := ⟨[(⟨1⟩, ⟨1, .plain, .empty⟩),
        (⟨2⟩, ⟨3, .plain, ⟨[(.word 3, .object ⟨3⟩), (.name 0, .object ⟨2⟩)]⟩⟩),
        (⟨3⟩, ⟨1, .array #[.string "x", .object ⟨2⟩], .empty⟩)]⟩
      lastHandle := 3
      names := Names.empty.add "self" rfl
      expressions := .empty
      releases := .empty
      exceptions := [] }
  element := none
  failures := .none

theorem legible_cyclic : cyclic.heap.Legible := by
  have entry {h : Handle} {e : Entry Unit} (found : cyclic.heap.objects.find? h = some e) :
      (h, e) ∈ cyclic.heap.objects.entries := Table.mem_of_find? found
  simp only [cyclic, List.mem_cons, List.not_mem_nil, or_false, Prod.mk.injEq] at entry
  refine ⟨⟨⟨?_, fun {h e} found => ?_, List.Pairwise.nil⟩, fun h e found => ?_, ?_,
    fun {h e} found id inside => ?_⟩, fun {h elements} array => ?_⟩
  · simp [Table.Sorted, Table.Ascending, cyclic]
    decide
  · rcases entry found with ⟨_, rfl⟩ | ⟨_, rfl⟩ | ⟨_, rfl⟩ <;>
      simp [Table.Sorted, Table.Ascending, Table.empty, compare]
  · rcases entry found with ⟨_, rfl⟩ | ⟨_, rfl⟩ | ⟨_, rfl⟩ <;> decide
  · exact Names.distinct _
  · rcases entry found with ⟨_, rfl⟩ | ⟨_, rfl⟩ | ⟨_, rfl⟩ <;>
      simp [Table.keys, Table.empty, cyclic] at inside ⊢
    rcases inside with rfl | rfl <;> simp [Names.Issued, Names.add]
  · obtain ⟨e, found, is⟩ := Heap.elements?_eq_some.1 array
    rcases entry found with ⟨_, rfl⟩ | ⟨_, rfl⟩ | ⟨_, rfl⟩ <;> cases is
    decide

theorem read_along_trails_of_cycle : cyclic.heap.Legible ∧ ∃ v host',
    (readLent (.object ⟨2⟩)).run cyclic = (v, host') ∧
      v.follow [.index 3, .index 0] = some (.string "x") ∧
      v.follow [.name "self"] = some (.object (Bag.plain.backedBy ⟨2⟩)) := by
  obtain ⟨v, host', ran, _, _, along, _⟩ := read_along_trails cyclic legible_cyclic ⟨2⟩
  refine ⟨legible_cyclic, v, host', ran, ?_, ?_⟩
  · obtain ⟨_, found, rfl⟩ := along [.word 3, .word 0] [⟨2⟩, ⟨3⟩] (.string "x")
      (.into rfl (by decide) rfl (.into rfl (by decide) rfl (.here _))) (by decide) (by decide)
    exact found
  · obtain ⟨_, found, is⟩ := along [.name 0] [⟨2⟩] (.object ⟨2⟩) (.into rfl (by decide) rfl (.here _))
      (by decide) (by decide)
    rw [Shown, if_neg (by decide), if_pos (by decide)] at is
    exact is ▸ found

end Marshal

end ScriptBoundary
