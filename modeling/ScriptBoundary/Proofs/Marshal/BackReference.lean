import ScriptBoundary.Proofs.Marshal.Handing
import ScriptBoundary.Proofs.Marshal.Trails

/-!
Cycles of host objects. A property whose value is being read around it is an empty bag backed by that
object, which is handed over as the object again. The depth is looked at first: inside as many containers
as may be read, a property is void whatever object it holds.
-/

namespace ScriptBoundary

variable {ρ μ : Type}

namespace Marshal

/-- Properties lead from a value through containers, each of which is read in full, back to one of them. -/
structure Closes (host : Host ρ) (raw : Raw) (ids : List HostId) (containers : List Handle)
    (h : Handle) : Prop where
  trail : Trail host raw ids containers (.object h)
  full : containers.Nodup
  within : containers.length ≤ depthLimit
  again : h ∈ containers

variable {base : Host ρ} {raw : Raw} {ids : List HostId} {containers : List Handle} {h : Handle}

theorem view_of_met {path : List Handle} (met : h ∈ path) (room : Nat) :
    view base (room + 1) path (.object h) = .object (Bag.plain.backedBy h) := by
  simp [view, viewObject, listed?, met]

theorem Closes.follow (closes : Closes base raw ids containers h) (lawful : base.heap.Lawful) :
    (view base depthLimit [] raw).follow (ids.map base.heap.names.identifier)
      = some (if containers.length = depthLimit then .void else .object (Bag.plain.backedBy h)) := by
  have length := closes.trail.length_eq
  have outside : ∀ h ∈ containers, h ∉ ([] : List Handle) := fun _ _ => List.not_mem_nil
  rw [closes.trail.follow_view lawful closes.full outside (length ▸ closes.within), ← length]
  split
  next limit => rw [limit, Nat.sub_self, view]
  next =>
    obtain ⟨room, more⟩ : ∃ room, depthLimit - containers.length = room + 1 :=
      Nat.exists_eq_succ_of_ne_zero (by have := closes.within; omega)
    have met : h ∈ containers.reverse ++ [] := by simpa using closes.again
    rw [more, view_of_met met]

/-- What is read is what is seen. -/
theorem run_readLent (lawful : base.heap.Lawful) (raw : Raw) :
    ∃ later, (readLent raw).run base = (view base depthLimit [] raw, later) := by
  obtain ⟨v, later, ran⟩ : ∃ v later, (readLent raw).run base = (v, later) := ⟨_, _, rfl⟩
  have is := (sees_readLent lawful.positive raw [] base (.refl base)).2 lawful
  rw [ran] at is
  exact ⟨later, is ▸ ran⟩

/-- Whatever is read, a property that leads back to a container around it is an empty bag backed by that
container, unless the containers around it are as many as may be read inside each other. -/
theorem back_references_kept (β : Behaviour ρ μ) (host : Host ρ) (lawful : host.heap.Lawful)
    (raw : Raw) :
    ∃ v later, (readLent raw).run host = (v, later) ∧
      ∀ ids containers h, Closes host raw ids containers h →
        (containers.length < depthLimit → ∃ b : Bag Value,
          v.follow (ids.map host.heap.names.identifier) = some (.object b) ∧
          b = Bag.plain.backedBy h ∧
          ∀ w, (write β (.object b)).outcome w
            = (.ok (.object h), w.withHeap (w.host.heap.retainAll [h]))) ∧
        (containers.length = depthLimit →
          v.follow (ids.map host.heap.names.identifier) = some .void) := by
  obtain ⟨later, ran⟩ := run_readLent lawful raw
  refine ⟨_, later, ran, fun ids containers h closes => ?_⟩
  rw [closes.follow lawful]
  refine ⟨fun inside => ⟨_, ?_, rfl, fun w => write_backed rfl⟩, fun limit => ?_⟩
  · rw [if_neg (Nat.ne_of_lt inside)]
  · rw [if_pos limit]

/-! ## Rings -/

/-- Objects in a ring: each holds the next one, and the last holds the first, which is the global object. -/
def ring (n : Nat) : Host Unit where
  heap :=
    { objects := ⟨(List.range n).map fun i =>
        (⟨i + 1⟩, ⟨if i = 0 then 2 else 1, .plain, ⟨[(.word 0, .object ⟨(i + 1) % n + 1⟩)]⟩⟩)⟩
      lastHandle := n
      names := .empty
      expressions := .empty
      releases := .empty
      exceptions := [] }
  element := none
  failures := .none

section Ring

variable {n : Nat}

theorem sorted_ring : (ring n).heap.objects.Sorted :=
  List.pairwise_map.2 (List.pairwise_lt_range.imp fun less => Nat.compare_eq_lt.2 (Nat.succ_lt_succ less))

theorem find?_ring {i : Nat} (inside : i < n) : ∃ refs, (ring n).heap.objects.find? ⟨i + 1⟩
    = some ⟨refs, .plain, ⟨[(.word 0, .object ⟨(i + 1) % n + 1⟩)]⟩⟩ :=
  ⟨_, Table.find?_of_mem sorted_ring (List.mem_map.2 ⟨i, List.mem_range.2 inside, rfl⟩)⟩

theorem lawful_ring : (ring n).heap.Lawful := by
  have entry {h : Handle} {e : Entry Unit} (found : (ring n).heap.objects.find? h = some e) :
      ∃ i, e = ⟨if i = 0 then 2 else 1, .plain, ⟨[(.word 0, .object ⟨(i + 1) % n + 1⟩)]⟩⟩ := by
    obtain ⟨i, _, is⟩ := List.mem_map.1 (Table.mem_of_find? found)
    cases is
    exact ⟨i, rfl⟩
  refine ⟨⟨sorted_ring, fun {h e} found => ?_, List.Pairwise.nil⟩, fun h e found => ?_,
    Names.distinct _, fun {h e} found id inside => ?_⟩
  · obtain ⟨i, rfl⟩ := entry found
    exact List.pairwise_singleton _ _
  · obtain ⟨i, rfl⟩ := entry found
    change 1 ≤ if i = 0 then 2 else 1
    split <;> decide
  · obtain ⟨i, rfl⟩ := entry found
    obtain rfl : id = .word 0 := List.mem_singleton.1 inside
    exact Nat.two_pow_pos 32

/-- A walk along the ring. -/
theorem trail_ring (positive : 0 < n) (start steps : Nat) :
    Trail (ring n) (.object ⟨start % n + 1⟩) (List.replicate steps (.word 0))
      ((List.range' start steps).map fun i => ⟨i % n + 1⟩) (.object ⟨(start + steps) % n + 1⟩) := by
  induction steps generalizing start with
  | zero => exact .here _
  | succ steps ih =>
    obtain ⟨refs, found⟩ := find?_ring (Nat.mod_lt start positive)
    rw [Nat.mod_add_mod] at found
    have open_ : (ring n).failures.noEnumeration = false := rfl
    have lists : listed? (ring n) [] ⟨start % n + 1⟩ = some [.word 0] := by
      simp [listed?, open_, Heap.propertyIds?, found, Table.keys]
    have next : (ring n).heap.lookup ⟨start % n + 1⟩ (.word 0)
        = some (.object ⟨(start + 1) % n + 1⟩) := by
      rw [Heap.lookup, found]
      rfl
    have rest := ih (start + 1)
    rw [Nat.add_right_comm] at rest
    exact .into lists List.mem_cons_self next rest

theorem closes_ring (positive : 0 < n) (within : n ≤ depthLimit) :
    Closes (ring n) (.object Host.global) (List.replicate n (.word 0))
      ((List.range n).map fun i => ⟨i + 1⟩) Host.global := by
  have once : ((List.range' 0 n).map fun i => (⟨i % n + 1⟩ : Handle)) = (List.range n).map fun i => ⟨i + 1⟩ := by
    rw [← List.range_eq_range']
    exact List.map_congr_left fun i inside => by rw [Nat.mod_eq_of_lt (List.mem_range.1 inside)]
  constructor
  case trail =>
    have trail := trail_ring positive 0 n
    rwa [once, Nat.zero_mod, Nat.zero_add, Nat.zero_add, Nat.mod_self] at trail
  case full =>
    refine List.pairwise_map.2 (List.nodup_range.imp fun other same => ?_)
    exact other (Nat.succ.inj (Handle.mk.inj same))
  case within => rwa [List.length_map, List.length_range]
  case again => exact List.mem_map.2 ⟨0, List.mem_range.2 positive, rfl⟩

end Ring

/-- The longest ring that is read as one. -/
theorem back_references_kept_of_ring : (ring 63).heap.Lawful ∧ ∃ v later,
    (readLent (.object Host.global)).run (ring 63) = (v, later) ∧
      v.follow (List.replicate 63 (.index 0)) = some (.object (Bag.plain.backedBy Host.global)) := by
  let β : Behaviour Unit Unit := ⟨fun _ _ => pure none, fun _ _ _ _ => pure .unhandled, fun _ => []⟩
  obtain ⟨v, later, ran, kept⟩ := back_references_kept β (ring 63) lawful_ring (.object Host.global)
  obtain ⟨_, found, rfl, _⟩ := (kept _ _ _ (closes_ring (by decide) (by decide))).1 (by simp [depthLimit])
  refine ⟨lawful_ring, v, later, ran, ?_⟩
  rwa [List.map_replicate] at found

/-- With one more object the ring no longer closes: the value of the last one is the global object, which
is being read, and it is void. -/
theorem back_reference_void : ∃ v later,
    (readLent (.object Host.global)).run (ring 64) = (v, later) ∧
      Closes (ring 64) (.object Host.global) (List.replicate 64 (.word 0))
        ((List.range 64).map fun i => ⟨i + 1⟩) Host.global ∧
      v.follow (List.replicate 64 (.index 0)) = some .void := by
  have closes : Closes (ring 64) _ _ _ _ := closes_ring (by decide) (by decide)
  obtain ⟨later, ran⟩ := run_readLent (lawful_ring) (Raw.object Host.global)
  have found := closes.follow lawful_ring
  rw [List.map_replicate] at found
  exact ⟨_, later, ran, closes, found⟩

end Marshal

end ScriptBoundary
