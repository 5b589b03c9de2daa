import ScriptBoundary.Proofs.Call.Chain
import ScriptBoundary.Proofs.Marshal.View
import ScriptBoundary.Proofs.World.Honest

/-!
What a gateway does for the host keeps account. Values are read into its registry and written out again
for the host to keep; what is replaced or removed is given up. Methods run under contract.
-/

namespace ScriptBoundary

variable {ρ μ : Type} {β : Behaviour ρ μ} {R : World ρ μ → World ρ μ → Prop} {gone : Handle → Prop}
  {w : World ρ μ} {r : Registry μ} {lent owned owned' : List Handle}

/-- The contract of methods. One that runs in a registry borrows its arguments, and what the registry
holds while that is in use; it hands out what is in its result. -/
def Dutiful (β : Behaviour ρ μ) (R : World ρ μ → World ρ μ → Prop) : Prop :=
  ∀ body (r : Registry μ) id args (w : World ρ μ), r ∈ w.registries →
    Run.FairAt β R w (args.flatMap Value.handles) [] (β.answer body r id args) CallResult.handles

namespace World.Accounted

/-- What is bound lives as long as its registry is in use. -/
theorem live_bound (accounted : w.Accounted β gone owned) (bound : r ∈ w.registries) {id : Identifier}
    {v : Value} (found : r.properties.find? id = some v) {h : Handle} (inside : h ∈ v.handles) :
    gone h ∨ ∃ e, w.host.heap.objects.find? h = some e := by
  have held : h ∈ r.handles β := by
    rw [Registry.handles, Bag.handles_eq]
    exact List.mem_append_left _ (List.mem_append_left _ (Bag.mem_entryHandles found inside))
  apply accounted.heap.live_of_mem
  simp only [holdings, List.mem_append, List.mem_flatMap]
  exact .inr (.inl (.inr ⟨r, bound, held⟩))

/-- The gateway gets another registry, and references move between that and an owner. -/
theorem withGateway (accounted : w.Accounted β gone owned) {r : Registry μ} (tidy : r.Tidy)
    (moved : (r.handles β ++ owned').Perm (w.gateway.elim [] (Registry.handles β) ++ owned)) :
    ({ w with gateway := some r } : World ρ μ).Accounted β gone owned' where
  heap := by
    apply accounted.heap.congr
    intro h
    have here := moved.count_eq h
    have held : w.gateway.toList.flatMap (Registry.handles β)
        = w.gateway.elim [] (Registry.handles β) := by
      cases w.gateway <;> simp
    simp only [holdings, World.registries, List.flatMap_append, Option.toList_some,
      List.flatMap_singleton, held, List.count_append] at here ⊢
    omega
  bridges := accounted.bridges
  registries := by
    intro r' inside
    rcases List.mem_append.1 inside with here | there
    · cases List.mem_singleton.1 here
      exact tidy
    · exact accounted.registries r' (List.mem_append_right _ there)

end World.Accounted

theorem registry_mem (known : w.gateway = some r) : r ∈ w.registries := by
  simp [World.registries, known]

/-! ## Writing for the host -/

namespace Marshal

variable (course : Course R) (honest : Honest β R)

include course honest

/-- A value that is written for the host to keep stays with its owner. -/
theorem fair_writeForHost (v : Value) :
    Run.Fair β R v.handles [] (writeForHost β v) Raw.handles := by
  refine (fair_write course honest v).bind course fun raw => ?_
  have again : Run.Fair β R v.handles raw.handles (Run.retainAll raw.handles) fun _ =>
      raw.handles ++ raw.handles :=
    WorldM.Fair.owning ((WorldM.fair_retainAll course (List.subset_append_left _ _)).perm (.refl _)
      fun _ => .of_eq (List.append_nil _))
  refine again.bind course fun _ => ?_
  exact (Run.fair_releaseAll course _).bind course fun _ => Run.fair_pure course (.refl _)

end Marshal

namespace Gateway

section

variable (course : Course R) (honest : Honest β R)

include course

theorem fairAt_copyProperty (bound : r ∈ w.registries) (id : Identifier) :
    Run.FairAt β R w lent [] (Run.always (r.copyProperty id)) fun v => v.elim [] Value.handles := by
  intro gone owned _ accounted
  change R w (w.withHeap _) ∧ (w.withHeap _).Accounted β gone _
  refine ⟨course.quiet _ _ (w.quiet_withHeap (w.host.heap.names_retainAll _)), accounted.retained ?_⟩
  intro h inside
  cases found : r.properties.find? id with
  | none =>
    rw [found] at inside
    cases inside
  | some v =>
    rw [found] at inside
    exact accounted.live_bound bound found inside

include honest

theorem fairAt_getProperty (bound : r ∈ w.registries) (id : HostId) :
    Run.FairAt β R w [] [] (getProperty β id r) fun raw => raw.elim [] Raw.handles := by
  refine ((Run.fair_onHost course (Host.fair_identifierOf id) (List.nil_subset _)).at w).bind course
    fun key w' ran => ?_
  cases ran
  refine (fairAt_copyProperty course bound _).bind course fun v w' _ => ?_
  cases v with
  | none => exact .pure course (.refl _)
  | some v =>
    refine (Run.fair_holding course ?_).at w'
    rw [List.append_nil]
    exact (Marshal.fair_writeForHost course honest v).bind course fun raw =>
      Run.fair_pure course (.refl _)

theorem fair_answerForHost (result : CallResult) :
    Run.Fair β R lent result.handles (answerForHost β result)
      fun answer => answer.2.elim [] Raw.handles := by
  refine Run.fair_holding course ?_
  cases value : result.value with
  | none => exact Run.fair_pure course (.refl _)
  | some v =>
    have lends : v.handles ⊆ result.handles ++ lent := by
      rw [CallResult.handles, value]
      exact List.subset_append_left _ _
    exact ((Marshal.fair_writeForHost course honest v).lend lends).bind course
      fun raw => Run.fair_pure course (.refl _)

omit honest in
theorem fairAt_call (dutiful : Dutiful β R) (bound : r ∈ w.registries) (id : Identifier)
    (args : List Value) : Run.FairAt β R w (args.flatMap Value.handles) [] (r.call β id args)
      fun result => result.elim [] CallResult.handles := by
  unfold Registry.call
  cases r.methods.find? id with
  | none =>
    exact .pure course (.refl _)
  | some method =>
    cases method with
    | legacy verb =>
      exact .pure course (.refl _)
    | code body =>
      exact (dutiful body r id args w bound).bind course fun _ _ _ => .pure course (.refl _)

end

/-! ## What a read answers -/

variable {id : HostId}

theorem outcome_copyProperty (r : Registry μ) (key : Identifier) (w : World ρ μ) :
    (Run.always (r.copyProperty key)).outcome w = (.ok (r.properties.find? key),
      w.retained ((r.properties.find? key).elim [] Value.handles)) := rfl

theorem outcome_getProperty_of_absent
    (absent : r.properties.find? (w.host.heap.names.identifier id) = none) :
    (getProperty β id r).outcome w = (.ok none, w) := by
  have copied := outcome_copyProperty r (w.host.heap.names.identifier id) w
  rw [absent] at copied
  rw [getProperty, Run.outcome_bind (Run.outcome_onHost _)]
  exact Run.outcome_bind copied

theorem outcome_getProperty {v : Value} {raw : Raw} {w' : World ρ μ}
    (found : r.properties.find? (w.host.heap.names.identifier id) = some v)
    (wrote : (Marshal.writeForHost β v).outcome (w.retained v.handles) = (.ok raw, w')) :
    (getProperty β id r).outcome w = (.ok (some raw), w'.released v.handles) := by
  have copied := outcome_copyProperty r (w.host.heap.names.identifier id) w
  rw [found] at copied
  rw [getProperty, Run.outcome_bind (Run.outcome_onHost _)]
  refine (Run.outcome_bind copied).trans (Run.outcome_holding ?_)
  rw [map_eq_pure_bind]
  exact Run.outcome_bind wrote

/-- A backed bag is handed over as the object behind it, with one reference more. -/
theorem outcome_writeForHost_of_backed {b : Bag Value} {h : Handle} (backing : b.backing = some h) :
    (Marshal.writeForHost β (.object b)).outcome w
      = (.ok (.object h), ((w.retained [h]).retained [h]).released [h]) := by
  obtain ⟨shape, ⟨entries⟩, _⟩ := b
  cases backing
  rw [Marshal.writeForHost, Marshal.write]
  rfl

theorem outcome_writeForHost_scalar (s : Scalar) :
    (Marshal.writeForHost β (.scalar s)).outcome w = (.ok (.scalar s), w) := by
  rw [Marshal.writeForHost, Marshal.write, Run.outcome_bind (Run.outcome_pure _)]
  change (_, World.released (w.retained []) []) = _
  rw [World.released_nil]
  rfl

/-! ## Reading what the host lends -/

theorem kept_readAllLent {host : Host ρ} {raws : List Raw} (sound : host.heap.Sound gone owned)
    (live : ∀ raw ∈ raws, ∀ h ∈ raw.handles, host.heap.isLive h) :
    host.Kept gone (((Marshal.readAllLent raws).run host).1.flatMap Value.handles ++ owned)
      ((Marshal.readAllLent raws).run host).2 := by
  induction raws generalizing host owned with
  | nil => exact ⟨rfl, .refl _, sound⟩
  | cons raw rest ih =>
    obtain ⟨here, there⟩ := List.forall_mem_cons.1 live
    obtain ⟨element, sound', _⟩ :=
      Marshal.sound_readLent sound fun h inside => .inr (Table.contains_iff.1 (here h inside))
    have lends := (Marshal.sees_readLent sound.positive raw [] host (.refl host)).1.heap
    have kept := ih sound' fun raw inside h holds => ?_
    · refine ⟨kept.element.trans element, kept.names.trans lends.names, ?_⟩
      refine kept.heap.perm ?_
      change (_ ++ (_ ++ owned)).Perm ((_ ++ _) ++ owned)
      rw [List.append_assoc]
      exact List.perm_append_comm_assoc _ _ _
    · obtain ⟨e, found⟩ := Table.contains_iff.1 (there raw inside h holds)
      obtain ⟨e', found', _⟩ := lends.alike.find?_some found
      exact Table.contains_iff.2 ⟨e', found'⟩

theorem fairAt_readAllLent (course : Course R) {raws : List Raw}
    (live : ∀ raw ∈ raws, ∀ h ∈ raw.handles, w.host.heap.isLive h) :
    Run.FairAt β R w lent [] (Run.onHost (Marshal.readAllLent raws)) (·.flatMap Value.handles) := by
  intro gone owned _ accounted
  have kept := kept_readAllLent accounted.heap live
  rw [Run.outcome_onHost]
  refine ⟨course.quiet _ _ ⟨rfl, rfl, kept.names⟩, accounted.withHost kept.element ?_⟩
  exact kept.heap.perm (List.perm_append_comm_assoc _ _ _)

/-! ## Binding and unbinding -/

variable {raw : Raw}

theorem run_setProperty (id : HostId) (raw : Raw) (r : Registry μ) (w : World ρ μ) :
    (WorldM.changeGateway (setProperty id raw) r).run w = (!(w.bridge r.bridge).shutDown,
      { World.released { w with host := ((Marshal.readLent raw).run w.host).2 }
          (if (w.bridge r.bridge).shutDown then ((Marshal.readLent raw).run w.host).1.handles
            else r.properties.lostBySet (w.host.heap.names.identifier id)) with
        gateway := some (r.setProperty (w.bridge r.bridge).shutDown (w.host.heap.names.identifier id)
          ((Marshal.readLent raw).run w.host).1) }) := rfl

theorem run_removeProperty (id : HostId) (r : Registry μ) (w : World ρ μ) :
    (WorldM.changeGateway (removeProperty id) r).run w
      = ((r.removeProperty (w.bridge r.bridge).shutDown (w.host.heap.names.identifier id)).1,
        { w.released (if (w.bridge r.bridge).shutDown then []
            else r.properties.lostByRemove (w.host.heap.names.identifier id)) with
          gateway := some
            (r.removeProperty (w.bridge r.bridge).shutDown (w.host.heap.names.identifier id)).2 }) := rfl

end Gateway

namespace Registry

theorem tidy_setProperty (tidy : r.Tidy) (shutDown : Bool) (id : Identifier) (v : Value) :
    (r.setProperty shutDown id v).Tidy := by
  cases shutDown
  · exact ⟨Table.sorted_insert tidy.properties id v, tidy.methods⟩
  · exact tidy

theorem tidy_removeProperty (tidy : r.Tidy) (shutDown : Bool) (id : Identifier) :
    (r.removeProperty shutDown id).2.Tidy := by
  cases shutDown
  · refine ⟨?_, tidy.methods⟩
    change (r.properties.remove id).props.Sorted
    simp only [Bag.remove]
    split
    · exact Table.sorted_erase tidy.properties id
    · exact tidy.properties
  · exact tidy

theorem tidy_setMethod (tidy : r.Tidy) (shutDown : Bool) (id : Identifier) (method : Method μ) :
    (r.setMethod shutDown id method).Tidy := by
  cases shutDown
  · exact ⟨tidy.properties, Table.sorted_insert tidy.methods id method⟩
  · exact tidy

theorem tidy_removeMethod (tidy : r.Tidy) (shutDown : Bool) (id : Identifier) :
    (r.removeMethod shutDown id).2.Tidy := by
  cases shutDown
  · exact ⟨tidy.properties, Table.sorted_erase tidy.methods id⟩
  · exact tidy

/-- A write takes over the references of the value and gives up what is held no longer. -/
theorem handles_setProperty (tidy : r.Tidy) (shutDown : Bool) (id : Identifier) (v : Value) :
    ((r.setProperty shutDown id v).handles β
      ++ (if shutDown then v.handles else r.properties.lostBySet id)).Perm (v.handles ++ r.handles β) := by
  cases shutDown
  · refine List.perm_iff_count.2 fun h => ?_
    have moved := (Bag.handles_set tidy.properties id v).count_eq h
    simp only [handles, setProperty, Bool.false_eq_true, if_false, List.count_append] at moved ⊢
    omega
  · exact List.perm_append_comm

theorem handles_removeProperty (tidy : r.Tidy) (shutDown : Bool) (id : Identifier) :
    ((r.removeProperty shutDown id).2.handles β
      ++ (if shutDown then [] else r.properties.lostByRemove id)).Perm (r.handles β) := by
  cases shutDown
  · refine List.perm_iff_count.2 fun h => ?_
    have moved := (Bag.handles_remove tidy.properties id).count_eq h
    simp only [handles, removeProperty, Bool.false_eq_true, if_false, List.count_append] at moved ⊢
    omega
  · exact .of_eq (List.append_nil _)

end Registry

namespace World.Accounted

/-- The gateway's registry takes over references, and what it gives up is given back. -/
theorem exchanged {taken lost : List Handle} (accounted : w.Accounted β gone (taken ++ owned))
    (known : w.gateway = some r) {r' : Registry μ} (tidy : r'.Tidy)
    (moved : (r'.handles β ++ lost).Perm (taken ++ r.handles β)) :
    ({ w.released lost with gateway := some r' } : World ρ μ).Accounted β gone owned := by
  have parted : ({ w with gateway := some r' } : World ρ μ).Accounted β gone (lost ++ owned) := by
    refine accounted.withGateway tidy ?_
    rw [known, Option.elim, ← List.append_assoc, ← List.append_assoc]
    exact (moved.trans List.perm_append_comm).append_right _
  exact parted.released

/-- A write binds what was read of the value, unless shutdown has begun. -/
theorem setProperty {raw : Raw} (accounted : w.Accounted β gone owned) (known : w.gateway = some r)
    (live : ∀ h ∈ raw.handles, w.host.heap.isLive h) (id : HostId) :
    ∃ v w', (WorldM.changeGateway (Gateway.setProperty id raw) r).run w
        = (!(w.bridge r.bridge).shutDown, w') ∧
      w'.gateway
        = some (r.setProperty (w.bridge r.bridge).shutDown (w.host.heap.names.identifier id) v) ∧
      w'.bridges = w.bridges ∧ w'.host.heap.names.Extends w.host.heap.names ∧
      Marshal.ValueRead w.host Marshal.depthLimit [] raw v ∧ w'.Accounted β gone owned := by
  have tidy : r.Tidy := accounted.registries r (registry_mem known)
  obtain ⟨element, sound, read⟩ :=
    Marshal.sound_readLent accounted.heap fun h inside => .inr (Table.contains_iff.1 (live h inside))
  have lends := (Marshal.sees_readLent accounted.heap.positive raw [] w.host (.refl _)).1
  refine ⟨_, _, Gateway.run_setProperty id raw r w, rfl, rfl, ?_, read, ?_⟩
  · change (Heap.releaseAll _ _).names.Extends _
    rw [Heap.names_releaseAll]
    exact lends.heap.names
  · have taken : (w.withHost ((Marshal.readLent raw).run w.host).2).Accounted β gone _ :=
      accounted.withHost element (sound.perm (List.perm_append_comm_assoc _ _ _))
    exact taken.exchanged known (Registry.tidy_setProperty tidy _ _ _)
      (Registry.handles_setProperty tidy _ _ _)

/-- So does a removal take away what is bound. -/
theorem removeProperty (accounted : w.Accounted β gone owned) (known : w.gateway = some r) (id : HostId) :
    ∃ w', (WorldM.changeGateway (Gateway.removeProperty id) r).run w
        = ((r.removeProperty (w.bridge r.bridge).shutDown (w.host.heap.names.identifier id)).1, w') ∧
      w'.gateway
        = some (r.removeProperty (w.bridge r.bridge).shutDown (w.host.heap.names.identifier id)).2 ∧
      w'.host.heap.names.Extends w.host.heap.names ∧ w'.Accounted β gone owned := by
  have tidy : r.Tidy := accounted.registries r (registry_mem known)
  refine ⟨_, Gateway.run_removeProperty id r w, rfl, ?_, ?_⟩
  · change (Heap.releaseAll _ _).names.Extends _
    rw [Heap.names_releaseAll]
    exact .refl _
  · have nothing : w.Accounted β gone ([] ++ owned) := accounted
    exact nothing.exchanged known (Registry.tidy_removeProperty tidy _ _)
      (Registry.handles_removeProperty tidy _ _)

end World.Accounted

namespace Gateway

/-- A call of a method keeps account, whether or not it panics. -/
theorem fairAt_invoke (course : Course R) (honest : Honest β R) (dutiful : Dutiful β R)
    (bound : r ∈ w.registries) (id : HostId) {args : List Raw}
    (live : ∀ raw ∈ args, ∀ h ∈ raw.handles, w.host.heap.isLive h) :
    Run.FairAt β R w [] [] (invoke β id args r) fun answer => answer.2.elim [] Raw.handles := by
  refine ((Run.fair_onHost course (Host.fair_identifierOf id) (List.nil_subset _)).at w).bind course
    fun key w' ran => ?_
  cases ran
  refine (fairAt_readAllLent course live).bind course fun values w' ran => ?_
  have bound : r ∈ w'.registries := by
    cases ran
    exact bound
  refine .holding course ?_
  rw [List.append_nil]
  refine (fairAt_call course dutiful bound _ values).bind course fun result w' _ => ?_
  cases result with
  | none => exact .pure course (.refl _)
  | some result => exact (fair_answerForHost course honest result).at w'

end Gateway

end ScriptBoundary
