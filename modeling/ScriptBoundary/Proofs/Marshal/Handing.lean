import ScriptBoundary.Proofs.Marshal.Filling

/-!
What writing a value leaves behind, on a host that may fail: one more reference to the object of each
backed bag that is handed over, and new objects with one holder each, in which the value stands.
-/

namespace ScriptBoundary.Marshal

variable {ρ μ : Type} {β : Behaviour ρ μ} {failures : Failures} {builds : Shape → Bool} {limit : Nat}
  {gone : Handle → Prop} {w w' : World ρ μ} {owned : List Handle} {base : Heap ρ}

theorem lays_void : Lays β failures builds limit (⟨return .void, []⟩ : Writer ρ μ) .void where
  holds := by
    rw [Value.handed]
    exact List.forall_mem_nil _
  writes _ w _ ready _ := by
    rw [Value.handed]
    exact ⟨.void, w, rfl, ready, .refl ready.sound [], .scalar .void (.nil _)⟩

/-- What an array hands over, element by element. -/
theorem handedBy_array (accepts : Bool) (entries : List (Identifier × Value)) :
    Value.handedBy accepts .array (Value.handedEntries builds accepts entries)
      = (Bag.elements ⟨.array, ⟨entries⟩, none⟩ .void).flatMap (Value.handed builds accepts) := by
  have related : List.Forall₂ (fun a c => a.1 = c.1 ∧ a.2 = c.2.handed builds accepts)
      (Value.handedEntries builds accepts entries) entries := by
    rw [Value.handedEntries_eq]
    exact List.forall₂_map_left_iff.2 (List.forall₂_same.2 fun _ _ => ⟨rfl, rfl⟩)
  have void : [] = Value.handed builds accepts .void := by rw [Value.handed]
  have elements := forall₂_elements (R := fun hs v => hs = Value.handed builds accepts v) void related
    .array .array none none
  have mapped : Bag.elements ⟨.array, ⟨Value.handedEntries builds accepts entries⟩, none⟩ []
      = (Bag.elements ⟨.array, ⟨entries⟩, none⟩ .void).map (Value.handed builds accepts) := by
    rw [← List.forall₂_eq_eq_eq]
    exact List.forall₂_map_right_iff.2 elements
  rw [Value.handedBy, List.flatMap_def, mapped]

theorem filling_fill {shape : Shape} {ws : List (Identifier × Writer ρ μ)}
    {es : List (Identifier × Value)} (lays : List.Forall₂ (LaysEntry β failures builds limit) ws es)
    (sorted : Table.Ascending es) (made : builds shape = true)
    (filling : Filling base w.host.heap (Form.ofShape shape) .empty [])
    (ready : Ready β failures builds limit gone w owned) (early : limit ≤ base.lastHandle)
    (owns : ∀ writer ∈ ws, ∀ h ∈ writer.2.handles, h ∈ owned) :
    ∃ w' form props, (fill β ⟨base.lastHandle + 1⟩ shape ⟨ws⟩).outcome w = (.ok (), w') ∧
      Ready β failures builds limit gone w' owned ∧
      Filling base w'.host.heap form props (Value.handedBy (!failures.refusesWrites) shape
        (Value.handedEntries builds (!failures.refusesWrites) es)) ∧
      Stands builds (!failures.refusesWrites) w'.host.heap base.lastHandle [.object ⟨base.lastHandle + 1⟩]
        [.object ⟨shape, ⟨es⟩, none⟩] := by
  cases shape with
  | array =>
    have known := w.host.heap.names.extends_intern "push"
    have ready₁ := ready.intern known
    have filling₁ := filling.quiet (Heap.quiet_withNames _ known)
    have elements := forall₂_elements lays_void lays .array .array none none
    have owned_ : ∀ writer ∈ Bag.elements (⟨.array, ⟨ws⟩, none⟩ : Bag (Writer ρ μ)) ⟨return .void, []⟩,
        ∀ h ∈ writer.handles, h ∈ owned := by
      intro writer inside
      rcases Bag.mem_elements inside with rfl | ⟨e, there, rfl⟩
      · intro h inside
        cases inside
      · exact owns e there
    have empty : Filling base _ (.array ([] : List Raw).toArray) .empty [] := filling₁
    obtain ⟨w₂, elements', ran, ready₂, filling₂, stands⟩ :=
      filling_pushElements elements empty (.nil _) ready₁ early (Names.text?_intern _ _) owned_
    refine ⟨w₂, _, _, (Run.outcome_bind (Run.outcome_onHost _)).trans ran, ready₂, filling₂.perm ?_, ?_⟩
    · rw [handedBy_array, List.append_nil]
    · exact .array rfl made rfl (Nat.lt_succ_self _) filling₂.body stands (.nil _)
  | plain =>
    have takes : Takes builds (!failures.refusesWrites) w.host.heap (base.lastHandle + 1) .empty [] [] :=
      ⟨.refl _, .nil, .nil _⟩
    obtain ⟨w₁, props, fields, ran, ready₁, takes₁, filling₁⟩ := filling_writeProperties lays filling takes
      (fun _ _ _ inside => nomatch inside) (Table.different_of_ascending sorted) ready early owns
    refine ⟨w₁, _, props, ran, ready₁, filling₁.perm (by simp), ?_⟩
    exact .plain rfl made rfl (Nat.lt_succ_self _) filling₁.body takes₁.listed takes₁.keys takes₁.stands (.nil _)

/-- The world once the name of a constructor is known. -/
def named (w : World ρ μ) (shape : Shape) : World ρ μ :=
  w.withHeap (w.host.heap.intern (constructorName shape)).2

theorem construct_named (w : World ρ μ) (shape : Shape) {answer : Option Raw} {w' : World ρ μ}
    (ran : (Run.invoke β Host.global (w.host.heap.intern (constructorName shape)).1 []).outcome
      (named w shape) = (.ok answer, w')) :
    (construct β Host.global shape).outcome w = (.ok (answer.bind Raw.handle?), w') := by
  refine (Run.outcome_bind (Run.outcome_onHost _)).trans ((Run.outcome_bind ran).trans ?_)
  cases answer with
  | none => rfl
  | some raw => cases raw <;> rfl

theorem Ready.callee?_named (ready : Ready β failures builds limit gone w owned)
    (present : failures.noGlobal = false) (shape : Shape) :
    match builds shape with
    | true => (named w shape).host.heap.callee? Host.global
        (w.host.heap.intern (constructorName shape)).1 = some (.construct shape)
    | false => ∀ callee, (named w shape).host.heap.callee? Host.global
        (w.host.heap.intern (constructorName shape)).1 = some callee →
          ∃ f code, callee = .function f code ∧ Barren β code := by
  obtain ⟨⟨refs, form, props⟩, found⟩ := ready.find_global
  have body : (named w shape).host.heap.body? Host.global = some (form, props) := by
    change w.host.heap.body? _ = _
    rw [Heap.body?, found]
    rfl
  have offers := ready.offers shape
  rw [present, if_neg Bool.false_ne_true] at offers
  have here := offers w.host.heap.names (.refl _) form props body
  have called : (named w shape).host.heap.callee? Host.global
      (w.host.heap.intern (constructorName shape)).1 = _ :=
    callee?_global body (w.host.heap.names.text?_intern (constructorName shape))
  cases is : builds shape with
  | true =>
    rw [is] at here
    refine called.trans ?_
    split
    next f hidden => exact absurd hidden (here f)
    next => rfl
  | false =>
    rw [is] at here
    obtain ⟨f, hidden, _, barren⟩ := here
    intro callee found
    have there := called.symm.trans found
    have hidden : props.find? (w.host.heap.intern (constructorName shape)).1 = some (.object f) := hidden
    rw [hidden] at there
    obtain ⟨code, has, rfl⟩ := Option.map_eq_some_iff.1 there
    exact ⟨f, code, rfl, barren code has⟩

/-- A constructor that the global object offers makes an empty object. -/
theorem construct_offered (ready : Ready β failures builds limit gone w owned)
    (present : failures.noGlobal = false) {shape : Shape} (offered : builds shape = true) :
    ∃ w', (construct β Host.global shape).outcome w
        = (.ok (some ⟨w.host.heap.lastHandle + 1⟩), w') ∧
      Ready β failures builds limit gone w' (⟨w.host.heap.lastHandle + 1⟩ :: owned) ∧
      Filling w.host.heap w'.host.heap (Form.ofShape shape) .empty [] := by
  have known := w.host.heap.names.extends_intern (constructorName shape)
  have ready₁ : Ready β failures builds limit gone (named w shape) owned := ready.intern known
  have called := ready.callee?_named present shape
  rw [offered] at called
  have empty : (Form.ofShape shape : Form ρ).elements = [] := by cases shape <;> rfl
  have made := (named w shape).host.heap.extends_alloc (Form.ofShape shape)
  have sound : ((named w shape).host.heap.alloc (Form.ofShape shape)).2.Sound gone
      (⟨w.host.heap.lastHandle + 1⟩ :: owned) := Heap.Sound.alloc (by
    rw [empty]
    exact ready₁.sound)
  have grown : Heap.Grown w.host.heap (named w shape).host.heap [] [] :=
    (Heap.Grown.refl ready.sound []).quiet (Heap.quiet_withNames _ known)
  refine ⟨_, construct_named w shape (Run.outcome_invoke_construct [] called),
    ready₁.next (made.mono ready₁.last) sound rfl (List.mem_cons_of_mem _ ready.global),
    Heap.body?_alloc _ _, grown.alloc ready₁.sound empty, Nat.le_refl _⟩

/-- One that it does not offer makes nothing. -/
theorem construct_hidden (ready : Ready β failures builds limit gone w owned)
    (present : failures.noGlobal = false) {shape : Shape} (hidden : builds shape = false) :
    ∃ w', (construct β Host.global shape).outcome w = (.ok none, w') ∧
      Ready β failures builds limit gone w' owned ∧ w.host.heap.Quiet w'.host.heap := by
  have known := w.host.heap.names.extends_intern (constructorName shape)
  have ready₁ : Ready β failures builds limit gone (named w shape) owned := ready.intern known
  have quiet₁ : w.host.heap.Quiet (named w shape).host.heap := Heap.quiet_withNames _ known
  have called := ready.callee?_named present shape
  rw [hidden] at called
  cases is : (named w shape).host.heap.callee? Host.global
      (w.host.heap.intern (constructorName shape)).1 with
  | none => exact ⟨_, construct_named w shape (Run.outcome_invoke_none [] is), ready₁, quiet₁⟩
  | some callee =>
    obtain ⟨f, code, rfl, barren⟩ := called callee is
    obtain ⟨answer, w', ran, none_, quiet, same⟩ :=
      barren { named w shape with entered := (named w shape).entered ++ [f] }
    have nothing : answer.bind Raw.handle? = none := by
      cases answer with
      | none => rfl
      | some raw => cases raw with
        | scalar s => rfl
        | object h => cases none_
    refine ⟨w', nothing ▸ construct_named w shape ((Run.outcome_invoke_function [] is).trans ran), ?_, ?_⟩
    · exact ready₁.next (quiet.extended limit) (quiet.sound ready₁.sound) same ready.global
    · exact ⟨quiet.objects.trans quiet₁.objects, quiet.names.trans quiet₁.names,
        quiet.expressions.trans quiet₁.expressions, Nat.le_trans quiet₁.lastHandle quiet.lastHandle⟩

theorem lays_build {shape : Shape} {ws : List (Identifier × Writer ρ μ)}
    {es : List (Identifier × Value)} (lays : List.Forall₂ (LaysEntry β failures builds limit) ws es)
    (sorted : Table.Ascending es) (ready : Ready β failures builds limit gone w owned)
    (owns : ∀ writer ∈ ws, ∀ h ∈ writer.2.handles, h ∈ owned) :
    ∃ raw w', (build β shape ⟨ws⟩).outcome w = (.ok raw, w') ∧
      Ready β failures builds limit gone w' (raw.handles ++ owned) ∧
      Heap.Grown w.host.heap w'.host.heap raw.handles
        ((Value.object ⟨shape, ⟨es⟩, none⟩).handed builds (!failures.refusesWrites)) ∧
      Stands builds (!failures.refusesWrites) w'.host.heap w.host.heap.lastHandle [raw]
        [.object ⟨shape, ⟨es⟩, none⟩] := by
  have handed : (Value.object ⟨shape, ⟨es⟩, none⟩).handed builds (!failures.refusesWrites)
      = if builds shape then Value.handedBy (!failures.refusesWrites) shape
          (Value.handedEntries builds (!failures.refusesWrites) es) else [] := by rw [Value.handed]
  rw [handed]
  cases missing : failures.noGlobal with
  | true =>
    have offers := ready.offers shape
    rw [if_pos missing] at offers
    have none_ : (Run.onHost Host.globalObject : Run ρ μ (Option Handle)).outcome w = (.ok none, w) := by
      have absent : w.host.failures.noGlobal = true := ready.switched ▸ missing
      rw [Run.outcome_onHost, Host.run_globalObject, absent]
      rfl
    refine ⟨.null, w, Run.outcome_bind none_, ready, ?_, .hidden rfl offers (.nil _)⟩
    rw [offers]
    exact .refl ready.sound []
  | false =>
    let w₁ := w.withHeap (w.host.heap.retainAll [Host.global])
    have global : (Run.onHost Host.globalObject : Run ρ μ (Option Handle)).outcome w
        = (.ok (some Host.global), w₁) := by
      have present : w.host.failures.noGlobal = false := ready.switched ▸ missing
      rw [Run.outcome_onHost, Host.run_globalObject, present]
      rfl
    have ready₁ : Ready β failures builds limit gone w₁ ([Host.global] ++ owned) :=
      ready.retainAll (List.forall_mem_singleton.2 ready.global)
    have retained : w.host.heap.Alike w₁.host.heap := Heap.alike_retainAll _ _
    -- The global object itself is released in the end, whatever was made.
    have done (raw : Raw) {w₂ : World ρ μ} {handed : List Handle}
        (ready₂ : Ready β failures builds limit gone w₂ ([Host.global] ++ (raw.handles ++ owned)))
        (grown : Heap.Grown w₁.host.heap w₂.host.heap raw.handles handed) :
        w₂.host.heap.Alike (w₂.released [Host.global]).host.heap ∧
          Ready β failures builds limit gone (w₂.released [Host.global]) (raw.handles ++ owned) ∧
          Heap.Grown w.host.heap (w₂.released [Host.global]).host.heap raw.handles handed := by
      have global := List.mem_append_right raw.handles ready.global
      obtain ⟨alike, ready₃⟩ := ready₂.released global
        (List.forall_mem_singleton.2 (List.mem_append_right _ global))
      exact ⟨alike, ready₃, (grown.alike ready₂.sound.ordered ready₃.sound.ordered alike).rebase retained⟩
    cases offered : builds shape with
    | false =>
      obtain ⟨w₂, constructed, ready₂, quiet⟩ := construct_hidden ready₁ missing offered
      obtain ⟨_, ready₃, grown⟩ := done .null ready₂ ((Heap.Grown.refl ready₁.sound []).quiet quiet)
      refine ⟨.null, _, ?_, ready₃, grown, .hidden rfl offered (.nil _)⟩
      exact (Run.outcome_bind global).trans (Run.outcome_holding (Run.outcome_bind constructed))
    | true =>
      obtain ⟨w₂, constructed, ready₂, filling⟩ := construct_offered ready₁ missing offered
      have owns₂ : ∀ writer ∈ ws, ∀ h ∈ writer.2.handles,
          h ∈ ⟨w₁.host.heap.lastHandle + 1⟩ :: ([Host.global] ++ owned) := fun writer there h inside =>
        List.mem_cons_of_mem _ (List.mem_append_right _ (owns writer there h inside))
      obtain ⟨w₃, form, props, filled, ready₃, filling₃, stands⟩ :=
        filling_fill lays sorted offered filling ready₂ ready₁.last owns₂
      obtain ⟨alike, ready₄, grown⟩ := done (.object ⟨w₁.host.heap.lastHandle + 1⟩)
        (ready₃.perm (.swap _ _ _)) filling₃.grown
      refine ⟨.object ⟨w₁.host.heap.lastHandle + 1⟩, _, ?_, ready₄, grown,
        (stands.alike alike).earlier (Nat.le_of_eq retained.lastHandle.symm)⟩
      refine (Run.outcome_bind global).trans (Run.outcome_holding ?_)
      exact (Run.outcome_bind constructed).trans
        ((Run.outcome_bind (Run.outcome_guarding filled)).trans rfl)

theorem mem_handedBy {accepts : Bool} {shape : Shape} {es : List (Identifier × List Handle)}
    {h : Handle} (inside : h ∈ Value.handedBy accepts shape es) : ∃ e ∈ es, h ∈ e.2 := by
  cases shape with
  | array =>
    obtain ⟨hs, there, holds⟩ := List.mem_flatten.1 inside
    rcases Bag.mem_elements there with rfl | ⟨e, among, rfl⟩
    · cases holds
    · exact ⟨e, among, holds⟩
  | plain =>
    simp only [Value.handedBy] at inside
    split at inside
    · exact List.mem_flatMap.1 inside
    · cases inside

theorem write_backed {b : Bag Value} {h : Handle} (backed : b.backing = some h) :
    (write β (.object b)).outcome w = (.ok (.object h), w.withHeap (w.host.heap.retainAll [h])) := by
  obtain ⟨shape, ⟨entries⟩, backing⟩ := b
  subst backed
  rw [write]
  exact Run.outcome_bind rfl

theorem lays_backed {shape : Shape} {entries : List (Identifier × Value)} (h : Handle) :
    Lays β failures builds limit ⟨write β (.object ⟨shape, ⟨entries⟩, some h⟩),
      (Value.object ⟨shape, ⟨entries⟩, some h⟩).handles⟩ (.object ⟨shape, ⟨entries⟩, some h⟩) := by
  have own : h ∈ (Value.object ⟨shape, ⟨entries⟩, some h⟩).handles := by
    rw [Value.handles]
    exact List.mem_append_right _ List.mem_cons_self
  have handed : (Value.object ⟨shape, ⟨entries⟩, some h⟩).handed builds (!failures.refusesWrites) = [h] := by
    rw [Value.handed]
  refine ⟨handed ▸ List.forall_mem_singleton.2 own, fun gone w owned ready owns => ?_⟩
  have ready₁ := ready.retainAll (List.forall_mem_singleton.2 (owns h own))
  have ran : (write β (.object ⟨shape, ⟨entries⟩, some h⟩)).outcome w
      = (.ok (.object h), w.withHeap (w.host.heap.retainAll [h])) := write_backed rfl
  refine ⟨.object h, _, ran, ready₁, ?_, .backed rfl (.nil _)⟩
  rw [handed]
  exact (Heap.Grown.refl ready.sound [h]).alike ready.sound.ordered ready₁.sound.ordered
    (Heap.alike_retainAll _ _)

mutual

theorem lays_write : (v : Value) → v.Sorted → Lays β failures builds limit ⟨write β v, v.handles⟩ v
  | .scalar s, _ => by
    refine ⟨?_, fun _ w _ ready _ => ?_⟩
    · rw [Value.handed]
      exact List.forall_mem_nil _
    · rw [Value.handed]
      exact ⟨.scalar s, w, by rw [write]; rfl, ready, .refl ready.sound [], .scalar s (.nil _)⟩
  | .object ⟨shape, ⟨entries⟩, some h⟩, _ => lays_backed h
  | .object ⟨shape, ⟨entries⟩, none⟩, sorted => by
    rw [Value.Sorted] at sorted
    have lays := lays_writers entries sorted.2
    refine ⟨fun h inside => ?_, fun gone w owned ready owns => ?_⟩
    · rw [Value.handed] at inside
      split at inside
      · obtain ⟨e, there, holds⟩ := mem_handedBy inside
        rw [Value.handedEntries_eq] at there
        obtain ⟨d, among, rfl⟩ := List.mem_map.1 there
        obtain ⟨writer, among, _, lays⟩ := exists_of_mem_right lays among
        rw [Value.handles]
        exact List.mem_append_left _ (handles_writers among (lays.holds h holds))
      · cases inside
    · rw [write]
      refine lays_build lays sorted.1 ready fun writer there h inside => owns h ?_
      rw [Value.handles]
      exact List.mem_append_left _ (handles_writers there inside)

theorem lays_writers : (entries : List (Identifier × Value)) → Value.EntriesSorted entries →
    List.Forall₂ (LaysEntry β failures builds limit) (writers β entries) entries
  | [], _ => by
    rw [writers]
    exact .nil
  | (id, v) :: rest, sorted => by
    rw [Value.EntriesSorted] at sorted
    rw [writers]
    exact .cons ⟨rfl, lays_write v sorted.1⟩ (lays_writers rest sorted.2)

end

/-- A way to write a value hands over `handed`, which the value holds. -/
structure Hands (β : Behaviour ρ μ) (failures : Failures) (builds : Shape → Bool) (limit : Nat)
    (writer : Writer ρ μ) (handed : List Handle) : Prop where
  holds : ∀ h ∈ handed, h ∈ writer.handles
  writes : ∀ gone w owned, Ready β failures builds limit gone w owned → (∀ h ∈ writer.handles, h ∈ owned) →
    ∃ raw w', writer.write.outcome w = (.ok raw, w') ∧
      Ready β failures builds limit gone w' (raw.handles ++ owned) ∧
      Heap.Grown w.host.heap w'.host.heap raw.handles handed

theorem hands_write (v : Value) (sorted : v.Sorted) : Hands β failures builds limit
    ⟨write β v, v.handles⟩ (v.handed builds (!failures.refusesWrites)) := by
  have lays : Lays β failures builds limit ⟨write β v, v.handles⟩ v := lays_write v sorted
  refine ⟨lays.holds, fun gone w owned ready owns => ?_⟩
  obtain ⟨raw, w', ran, ready', grown, _⟩ := lays.writes gone w owned ready owns
  exact ⟨raw, w', ran, ready', grown⟩

end ScriptBoundary.Marshal
