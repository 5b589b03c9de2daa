import ScriptBoundary.Proofs.Host.Upkeep
import ScriptBoundary.Proofs.Marshal.Handing
import ScriptBoundary.Proofs.Marshal.View

/-!
Values cross the boundary and leave the counts in order. Reading takes a reference for each bag that
it answers; writing takes one for each backing that is handed over and makes new objects with one
holder each. Giving back what was answered undoes both, also on a host that fails.
-/

namespace ScriptBoundary

variable {ρ μ : Type}

/-- The host with other failures. -/
def Host.failing (host : Host ρ) (failures : Failures) : Host ρ := { host with failures := failures }

namespace Marshal

/-- What stands under the name of a constructor. -/
def constructor? (heap : Heap ρ) (shape : Shape) : Option Raw :=
  let (id, heap) := heap.intern (constructorName shape)
  heap.lookup Host.global id

/-- The host makes objects of a shape. -/
def makes (host : Host ρ) (shape : Shape) : Bool :=
  !host.failures.noGlobal && !(constructor? host.heap shape).any fun raw => raw.handle?.isSome

variable {β : Behaviour ρ μ} {s : Ledger ρ} {element : Option (String × String)} {w : World ρ μ}

/-- A name that comes to be known later has no property under it. -/
theorem find?_intern {names later : Names} (more : later.Extends names) {props : Table HostId Raw}
    (keyed : ∀ id raw, props.find? id = some raw → names.Knows id) (text : String) :
    props.find? (later.intern text).1 = props.find? (names.intern text).1 := by
  rcases names.intern_cases text with ⟨id, known, is⟩ | ⟨new, -, -⟩
  · rw [is, Names.intern_of_text? (more.text? known)]
  · have absent {names' : Names} (more' : names'.Extends names) :
        props.find? (names'.intern text).1 = none := by
      cases found : props.find? (names'.intern text).1 with
      | none => rfl
      | some raw =>
        obtain ⟨text', was⟩ := keyed _ raw found (names'.isName_intern text)
        have is := ((names'.extends_intern text).trans more').text? was
        rw [names'.text?_intern] at is
        cases is
        exact absurd (Names.mem_of_text? was) new
    rw [absent more, absent (.refl names)]

theorem ready_of_reachable (reached : Ledger.Reachable β Names.Knows element s) {failures : Failures}
    (here : w.host = s.host.failing failures)
    (barren : ∀ shape f code, constructor? s.host.heap shape = some (.object f) →
      s.host.heap.code? f = some code → Barren β code) :
    Ready β failures (makes w.host) s.host.heap.lastHandle s.host.heap.Freed w s.owned := by
  have sound := (Ledger.balanced_of_reachable reached).heap
  have keyed := (Ledger.tidy_of_reachable reached).keyed
  obtain ⟨⟨refs, form, props⟩, found⟩ := Ledger.global_lives reached
  have body : s.host.heap.body? Host.global = some (form, props) := by rw [Heap.body?, found]; rfl
  have heap : w.host.heap = s.host.heap := by rw [here]; rfl
  have failing : w.host.failures = failures := by rw [here]; rfl
  refine ⟨heap ▸ sound, failing, Ledger.mem_owned_of_own List.mem_cons_self, ?_,
    (sound.issued found).2, Nat.le_of_eq (congrArg Heap.lastHandle heap).symm, fun shape => ?_⟩
  · rintro ⟨_, freed⟩
    rw [freed] at found
    cases found
  have named : (s.host.heap.intern (constructorName shape)).2.body? Host.global = some (form, props) :=
    body
  have stands : constructor? s.host.heap shape
      = props.find? (s.host.heap.names.intern (constructorName shape)).1 :=
    lookup_constructorName named (s.host.heap.names.text?_intern (constructorName shape))
  split
  next missing => simp [makes, failing, missing]
  next present =>
    have present : failures.noGlobal = false := by simpa using present
    rw [heap]
    intro names more form' props' body'
    cases body.symm.trans body'
    rw [find?_intern more (keyed.keys _ _ found), ← stands]
    have is : makes w.host shape
        = !(constructor? s.host.heap shape).any fun raw => raw.handle?.isSome := by
      simp [makes, failing, present, heap]
    rw [is]
    cases hidden : constructor? s.host.heap shape with
    | none =>
      intro f other
      cases other
    | some raw =>
      cases raw with
      | scalar c =>
        intro f other
        cases other
      | object f =>
        have inside : f ∈ s.host.heap.stored :=
          Heap.mem_stored_of_find? found (Entry.contents_eq _ ▸ List.mem_flatMap.2
            ⟨.object f, List.mem_append_left _ (List.mem_map.2 ⟨_, Table.mem_of_find?
              (stands.symm.trans hidden), rfl⟩), List.mem_cons_self⟩)
        refine ⟨f, rfl, ?_, fun code has => barren shape f code hidden has⟩
        rcases sound.live_of_mem (List.mem_append_left _ inside) with was | ⟨e, live⟩
        · exact was.1.2
        · exact (sound.issued live).2

/-- Neither direction disturbs what was there. -/
theorem crossing_neutral (reached : Ledger.Reachable β Names.Knows element s) (failures : Failures) :
    (∀ raw, ∃ v host', (readLent raw).run (s.host.failing failures) = (v, host') ∧
      (s.host.failing failures).Lends v.handles host' ∧
      ∀ h, (host'.heap.releaseAll v.handles).objects.find? h = s.host.heap.objects.find? h) ∧
    ∀ (w : World ρ μ) (v : Value), w.host = s.host.failing failures →
      (∀ shape f code, constructor? s.host.heap shape = some (.object f) →
        s.host.heap.code? f = some code → Barren β code) →
      v.Sorted → (∀ h ∈ v.handles, h ∈ s.owned) →
      ∃ raw w', (write β v).outcome w = (.ok raw, w') ∧
        let base := s.host.heap
        let heap := w'.host.heap
        let handed := v.handed (makes w.host) (!failures.refusesWrites)
        (∀ h, h.number ≤ base.lastHandle →
          (raw.handles ++ base.fresh heap).count h = handed.count h ∧
          heap.objects.find? h
            = (base.objects.find? h).map fun e => { e with refs := e.refs + handed.count h }) ∧
        (∀ h e, base.lastHandle < h.number → heap.objects.find? h = some e →
          e.refs = 1 ∧ (raw.handles ++ base.fresh heap).count h = 1) ∧
        heap.expressions = base.expressions ∧
        ∀ h, (heap.releaseAll raw.handles).objects.find? h = base.objects.find? h := by
  have sound := (Ledger.balanced_of_reachable reached).heap
  refine ⟨fun raw => ?_, fun w v here barren sorted owns => ?_⟩
  · obtain ⟨v, host', ran⟩ : ∃ v host', (readLent raw).run (s.host.failing failures) = (v, host') :=
      ⟨_, _, rfl⟩
    have positive : (s.host.failing failures).heap.Positive := sound.positive
    have lends := (sees_readLent positive raw [] _ (.refl _)).1
    rw [ran] at lends
    refine ⟨v, host', ran, by simpa using lends, fun h => ?_⟩
    exact (lends.heap.releaseAll sound.positive).restored h
  · have ready := ready_of_reachable reached here barren
    have hands : Hands β failures (makes w.host) s.host.heap.lastHandle ⟨write β v, v.handles⟩
        (v.handed (makes w.host) (!failures.refusesWrites)) := hands_write v sorted
    obtain ⟨raw, w', ran, ready', grown⟩ := hands.writes _ w _ ready owns
    have heap : w.host.heap = s.host.heap := by rw [here]; rfl
    rw [heap] at grown
    have early : ∀ h ∈ v.handed (makes w.host) (!failures.refusesWrites),
        h.number ≤ s.host.heap.lastHandle := fun h inside =>
      heap ▸ ready.early (owns h (hands.holds h inside))
    exact ⟨raw, w', ran, fun h old => ⟨grown.count_old old, grown.find?_old sound ready'.sound old⟩,
      fun h e new found => grown.refs_new sound ready'.sound early new found, grown.expressions,
      grown.released sound ready'.sound early⟩

/-- An array around a backed bag, on a host that refuses writes but can push: the object behind the bag
counts once more until the result is given back. -/
theorem crossing_neutral_of_array :
    let v : Value := .object ⟨.array, ⟨[(.index 0, .object (Bag.plain.backedBy ⟨2⟩))]⟩, none⟩
    ∃ (β : Behaviour Unit Unit) (s : Ledger Unit) (w w' : World Unit Unit) (raw : Raw),
      Ledger.Reachable β Names.Knows none s ∧
      w.host = s.host.failing ⟨false, false, true, false⟩ ∧ (write β v).outcome w = (.ok raw, w') ∧
      s.host.heap.objects.find? ⟨2⟩ = some ⟨1, .plain, .empty⟩ ∧
      w'.host.heap.objects.find? ⟨2⟩ = some ⟨2, .plain, .empty⟩ ∧
      (w'.host.heap.releaseAll raw.handles).objects.find? ⟨2⟩ = some ⟨1, .plain, .empty⟩ := by
  intro v
  let β : Behaviour Unit Unit := ⟨fun _ _ => pure none, fun _ _ _ _ => pure .unhandled, fun _ => []⟩
  let s : Ledger Unit := (Ledger.start none).hand (Host.onHeap (Heap.alloc .plain)) fun h => [h]
  let w : World Unit Unit :=
    ⟨s.host.failing ⟨false, false, true, false⟩, [], 0, none, none, [], false, [], [], none⟩
  have reached : Ledger.Reachable β Names.Knows none s := .next .start .createObject
  have sorted : v.Sorted := Value.sorted_object_iff.2 ⟨List.pairwise_singleton _ _,
    List.forall_mem_singleton.2 (Value.sorted_object_iff.2 ⟨Table.sorted_empty, List.forall_mem_nil _⟩)⟩
  have owns : ∀ h ∈ v.handles, h ∈ s.owned := List.forall_mem_singleton.2 (by decide)
  have handed : v.handed (makes w.host) false = [⟨2⟩] := rfl
  obtain ⟨raw, w', ran, old, _, _, back⟩ := (crossing_neutral reached ⟨false, false, true, false⟩).2 w v
    rfl (fun shape f code stands => by cases shape <;> cases stands) sorted owns
  have entry : w'.host.heap.objects.find? ⟨2⟩ = (s.host.heap.objects.find? ⟨2⟩).map fun e =>
      { e with refs := e.refs + (v.handed (makes w.host) false).count ⟨2⟩ } := (old ⟨2⟩ (by decide)).2
  rw [handed] at entry
  exact ⟨β, s, w, w', raw, reached, rfl, ran, rfl, entry, back ⟨2⟩⟩

end Marshal

end ScriptBoundary
