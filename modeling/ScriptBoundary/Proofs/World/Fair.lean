import ScriptBoundary.Proofs.Host.EntryPoints
import ScriptBoundary.Proofs.Marshal.Reading
import ScriptBoundary.Proofs.World.Account

/-!
A logic of accounts. A fair computation borrows what it is lent, takes over certain references and
hands out others; whatever else it takes on its way it gives back, and if it is abandoned it has given
back everything.
-/

namespace ScriptBoundary

variable {ρ μ α γ : Type}

/-- Work on the host alone, which may intern names. -/
structure World.Quiet (w w' : World ρ μ) : Prop where
  bridges : w'.bridges = w.bridges
  gateway : w'.gateway = w.gateway
  names : w'.host.heap.names.Extends w.host.heap.names

theorem World.quiet_withHeap (w : World ρ μ) {heap : Heap ρ} (names : heap.names = w.host.heap.names) :
    w.Quiet (w.withHeap heap) := ⟨rfl, rfl, names ▸ .refl _⟩

theorem World.Quiet.refl (w : World ρ μ) : w.Quiet w := ⟨rfl, rfl, .refl _⟩

/-- What may become of a session: anything that quiet work does, and one thing after another. -/
structure Course (R : World ρ μ → World ρ μ → Prop) : Prop where
  quiet : ∀ w w', World.Quiet w w' → R w w'
  trans : ∀ w w' w'', R w w' → R w' w'' → R w w''

/-- Anything may become of it. -/
def Anything (_ _ : World ρ μ) : Prop := True

namespace Host

/-- The host after work that took over the references `taken` and handed out `given`. -/
structure Kept (gone : Handle → Prop) (host : Host ρ) (given : List Handle) (host' : Host ρ) : Prop where
  element : host'.element = host.element
  names : host'.heap.names.Extends host.heap.names
  heap : host'.heap.Sound gone given

/-- Work on a host that keeps account. -/
def Fair (lent taken : List Handle) (op : HostM ρ α) (given : α → List Handle) : Prop :=
  ∀ gone (host : Host ρ) owned, (∀ h ∈ host.own ++ lent, h ∈ owned) →
    host.heap.Sound gone (taken ++ owned) →
    host.Kept gone (given (op.run host).1 ++ owned) (op.run host).2

theorem fair_retainAll (hs : List Handle) : Fair hs [] (retainAll hs : HostM ρ Unit) fun _ => hs := by
  intro gone host owned lent sound
  refine ⟨rfl, host.heap.names_retainAll hs ▸ .refl _, sound.retainAll fun h inside => ?_⟩
  exact sound.live_of_mem (List.mem_append_right _ (lent h (List.mem_append_right _ inside)))

theorem fair_releaseAll (hs : List Handle) :
    Fair [] hs (releaseAll hs : HostM ρ Unit) fun _ => [] :=
  fun _ host _ _ sound => ⟨rfl, host.heap.names_releaseAll hs ▸ .refl _, sound.releaseAll⟩

theorem fair_globalObject : Fair [] [] (globalObject : HostM ρ _) Option.toList := by
  intro gone host owned lent sound
  rw [run_globalObject]
  split
  · exact ⟨rfl, .refl _, sound⟩
  · refine fair_retainAll [global] gone host owned (fun h inside => lent h ?_) sound
    rcases List.mem_append.1 inside with there | there
    · exact List.mem_append_left _ there
    · exact List.mem_append_left _ (List.mem_singleton.1 there ▸ List.mem_cons_self)

theorem fair_intern (text : String) : Fair [] [] (intern text : HostM ρ HostId) fun _ => [] :=
  fun _ _ _ _ sound => ⟨rfl, Names.extends_intern _ _, sound.intern text⟩

theorem fair_identifierOf (id : HostId) :
    Fair [] [] (identifierOf id : HostM ρ Identifier) fun _ => [] :=
  fun _ _ _ _ sound => ⟨rfl, .refl _, sound⟩

theorem fair_idOf (id : Identifier) : Fair [] [] (idOf id : HostM ρ HostId) fun _ => [] :=
  fun _ _ _ _ sound => ⟨rfl, Names.extends_ofIdentifier _ _, sound.withNames _⟩

theorem fair_evaluate (target : Handle) (script : String) :
    Fair [] [] (evaluate target script : HostM ρ _) fun value => value.elim [] Raw.handles := by
  intro gone host owned _ sound
  refine ⟨rfl, ?_, sound.evaluate target script⟩
  change (host.heap.evaluate target script).2.names.Extends host.heap.names
  simp only [Heap.evaluate]
  split
  · rw [Heap.retainValue, Heap.names_retainAll]
    exact .refl _
  · rw [Heap.names_retainAll]
    exact Names.extends_key _ _

theorem fair_setProperty (target : Handle) (id : HostId) (value : Raw) :
    Fair value.handles [] (setProperty target id value : HostM ρ Bool) fun _ => [] := by
  intro gone host owned lent sound
  rw [run_setProperty]
  split
  · exact ⟨rfl, .refl _, sound⟩
  · refine ⟨rfl, host.heap.names_store target id value ▸ .refl _, sound.store (fun h inside => ?_) _ _⟩
    exact sound.live_of_mem (List.mem_append_right _ (lent h (List.mem_append_right _ inside)))

theorem fair_read (raw : Raw) :
    Fair [] raw.handles (Marshal.read raw : HostM ρ Value) fun v => v.handles ++ raw.handles := by
  intro gone host owned _ sound
  obtain ⟨alike, sound', _⟩ :=
    Marshal.reads_read sound.ordered raw gone host owned (.refl host) sound
  exact ⟨alike.element, alike.heap.names, sound'⟩

end Host

/-! ## Sessions -/

variable {β : Behaviour ρ μ} {R : World ρ μ → World ρ μ → Prop} {lent taken rest : List Handle}

/-- A computation that keeps account, and of which nothing comes but `R`. -/
def WorldM.Fair (β : Behaviour ρ μ) (R : World ρ μ → World ρ μ → Prop) (lent taken : List Handle)
    (op : WorldM ρ μ α) (given : α → List Handle) : Prop :=
  ∀ gone (w : World ρ μ) owned, (∀ h ∈ lent, h ∈ owned) → w.Accounted β gone (taken ++ owned) →
    R w (op.run w).2 ∧ (op.run w).2.Accounted β gone (given (op.run w).1 ++ owned)

namespace WorldM.Fair

variable {op : WorldM ρ μ α} {given : α → List Handle}

theorem pure (course : Course R) {a : α} (same : taken.Perm (given a)) :
    Fair β R lent taken (Pure.pure a) given :=
  fun _ w _ _ accounted => ⟨course.quiet _ _ (.refl w), accounted.perm (same.append_right _)⟩

theorem bind (course : Course R) {next : α → WorldM ρ μ γ} {given' : γ → List Handle}
    (fair : Fair β R lent taken op given) (fair' : ∀ a, Fair β R lent (given a) (next a) given') :
    Fair β R lent taken (op >>= next) given' := by
  intro gone w owned lends accounted
  obtain ⟨first, accounted'⟩ := fair gone w owned lends accounted
  obtain ⟨second, accounted''⟩ := fair' _ gone _ owned lends accounted'
  exact ⟨course.trans _ _ _ first second, accounted''⟩

theorem perm {taken' : List Handle} {given' : α → List Handle} (fair : Fair β R lent taken op given)
    (before : taken'.Perm taken) (after : ∀ a, (given a).Perm (given' a)) :
    Fair β R lent taken' op given' := by
  intro gone w owned lends accounted
  obtain ⟨became, accounted'⟩ := fair gone w owned lends (accounted.perm (before.append_right _))
  exact ⟨became, accounted'.perm ((after _).append_right _)⟩

/-- What is owned besides is left alone, and may be lent. -/
theorem owning (fair : Fair β R (rest ++ lent) taken op given) :
    Fair β R lent (taken ++ rest) op fun a => given a ++ rest := by
  intro gone w owned lends accounted
  rw [List.append_assoc] at accounted ⊢
  exact fair gone w (rest ++ owned) (fun h inside =>
    List.mem_append.2 ((List.mem_append.1 inside).imp_right (lends h))) accounted

/-- More may be lent than is borrowed. -/
theorem lend (fair : Fair β R lent taken op given) {lent' : List Handle} (more : lent ⊆ lent') :
    Fair β R lent' taken op given :=
  fun gone w owned lends => fair gone w owned fun h inside => lends h (more inside)

theorem besides (fair : Fair β R lent taken op given) (rest : List Handle) :
    Fair β R lent (taken ++ rest) op fun a => given a ++ rest :=
  (fair.lend (List.subset_append_right rest lent)).owning

end WorldM.Fair

namespace WorldM

theorem fair_onHost (course : Course R) {op : HostM ρ α} {given : α → List Handle}
    (fair : Host.Fair lent taken op given) : Fair β R lent taken (onHost op) given := by
  intro gone w owned lends accounted
  have kept := fair gone w.host (w.holdings β ++ owned) (fun h inside => ?_)
    (accounted.heap.perm (List.perm_append_comm_assoc _ _ _))
  · have quiet : w.Quiet ((onHost op).run w).2 := ⟨rfl, rfl, kept.names⟩
    refine ⟨course.quiet _ _ quiet, accounted.withHost kept.element ?_⟩
    exact kept.heap.perm (List.perm_append_comm_assoc _ _ _)
  · rcases List.mem_append.1 inside with own | there
    · simp only [World.holdings, List.mem_append]
      tauto
    · exact List.mem_append_right _ (lends h there)

theorem fair_retainAll (course : Course R) {hs : List Handle} (lends : hs ⊆ lent) :
    Fair β R lent rest (retainAll hs : WorldM ρ μ Unit) fun _ => hs ++ rest :=
  ((fair_onHost course (Host.fair_retainAll hs)).lend lends).besides rest

theorem fair_releaseAll (course : Course R) (hs : List Handle) :
    Fair β R lent (hs ++ rest) (releaseAll hs : WorldM ρ μ Unit) fun _ => rest :=
  ((fair_onHost course (Host.fair_releaseAll hs)).lend (List.nil_subset _)).besides rest

end WorldM

/-! ## Computations that may be abandoned -/

namespace Run

/-- What an answer hands out. A failure hands out nothing. -/
def handed {ε : Type} (given : α → List Handle) : Except ε α → List Handle
  | .ok a => given a
  | .error _ => []

/-- A computation that keeps account, even if it is abandoned. -/
def Fair (β : Behaviour ρ μ) (R : World ρ μ → World ρ μ → Prop) (lent taken : List Handle) (op : Run ρ μ α)
    (given : α → List Handle) : Prop := WorldM.Fair β R lent taken op.run (handed given)

variable {op : Run ρ μ α} {given : α → List Handle}

theorem fair_pure (course : Course R) {a : α} (same : taken.Perm (given a)) :
    Fair β R lent taken (pure a) given := WorldM.Fair.pure course same

theorem fair_get {next : World ρ μ → Run ρ μ α} (fair : ∀ w, Fair β R lent taken (next w) given) :
    Fair β R lent taken (get >>= next) given :=
  fun gone w owned lends accounted => fair w gone w owned lends accounted

namespace Fair

theorem bind (course : Course R) {next : α → Run ρ μ γ} {given' : γ → List Handle}
    (fair : Fair β R lent taken op given) (fair' : ∀ a, Fair β R lent (given a) (next a) given') :
    Fair β R lent taken (op >>= next) given' := by
  unfold Run.Fair
  rw [ExceptT.run_bind]
  refine WorldM.Fair.bind course fair fun outcome => ?_
  cases outcome with
  | ok a => exact fair' a
  | error fault => exact WorldM.Fair.pure course (.refl _)

theorem perm {taken' : List Handle} {given' : α → List Handle} (fair : Fair β R lent taken op given)
    (before : taken'.Perm taken) (after : ∀ a, (given a).Perm (given' a)) :
    Fair β R lent taken' op given' :=
  WorldM.Fair.perm fair before fun outcome => by
    cases outcome with
    | ok a => exact after a
    | error fault => exact .refl _

theorem lend (fair : Fair β R lent taken op given) {lent' : List Handle} (more : lent ⊆ lent') :
    Fair β R lent' taken op given := WorldM.Fair.lend fair more

end Fair

/-- What cannot fail keeps account of what is owned besides. -/
theorem fair_always {op : WorldM ρ μ α} (fair : WorldM.Fair β R lent taken op given) :
    Fair β R lent taken (always op) given := fair

theorem fair_onHost (course : Course R) {op : HostM ρ α} {borrowed : List Handle}
    (fair : Host.Fair borrowed taken op given) (lends : borrowed ⊆ lent) :
    Fair β R lent (taken ++ rest) (onHost op) fun a => given a ++ rest :=
  fair_always (((WorldM.fair_onHost course fair).lend lends).besides rest)

theorem fair_retainAll (course : Course R) {hs : List Handle} (lends : hs ⊆ lent) :
    Fair β R lent rest (retainAll hs : Run ρ μ Unit) fun _ => hs ++ rest :=
  fair_always (WorldM.fair_retainAll course lends)

theorem fair_releaseAll (course : Course R) (hs : List Handle) :
    Fair β R lent (hs ++ rest) (releaseAll hs : Run ρ μ Unit) fun _ => rest :=
  fair_always (WorldM.fair_releaseAll course hs)

/-- What is owned while a computation runs may be lent to it, and goes in any case. -/
theorem fair_ensuring (course : Course R) {hs : List Handle} {last : WorldM ρ μ Unit}
    (fair : Fair β R (hs ++ lent) [] op given)
    (goes : ∀ rest, WorldM.Fair β R lent (hs ++ rest) last fun _ => rest) :
    Fair β R lent hs (ensuring op last) given := by
  refine WorldM.Fair.bind course (WorldM.Fair.owning fair) fun outcome => ?_
  have gone : WorldM.Fair β R lent (handed given outcome ++ hs) last fun _ => handed given outcome :=
    (goes _).perm List.perm_append_comm fun _ => .refl _
  exact gone.bind course fun _ => .pure course (.refl _)

theorem fair_holding (course : Course R) {hs : List Handle} (fair : Fair β R (hs ++ lent) [] op given) :
    Fair β R lent hs (holding hs op) given :=
  fair_ensuring course fair fun _ => WorldM.fair_releaseAll course hs

/-- What is guarded is given back only by a fault. -/
theorem fair_guarding (course : Course R) {hs : List Handle}
    (fair : Fair β R (hs ++ lent) [] op given) :
    Fair β R lent hs (guarding hs op) fun a => given a ++ hs := by
  refine WorldM.Fair.bind course (WorldM.Fair.owning fair) fun outcome => ?_
  cases outcome with
  | ok a => exact .pure course (.refl _)
  | error fault =>
    have released : WorldM.Fair β R lent hs (WorldM.releaseAll hs) fun _ => [] :=
      (WorldM.fair_releaseAll course hs).perm (.of_eq (List.append_nil hs).symm) fun _ => .refl _
    exact released.bind course fun _ => .pure course (.refl _)

/-- The computation keeps account if it starts in this world. What depends on the session at hand, such
as which registries are in use, can be said of such computations alone. -/
def FairAt (β : Behaviour ρ μ) (R : World ρ μ → World ρ μ → Prop) (w : World ρ μ)
    (lent taken : List Handle) (op : Run ρ μ α) (given : α → List Handle) : Prop :=
  ∀ gone owned, (∀ h ∈ lent, h ∈ owned) → w.Accounted β gone (taken ++ owned) →
    R w (op.outcome w).2 ∧ (op.outcome w).2.Accounted β gone (handed given (op.outcome w).1 ++ owned)

variable {w : World ρ μ}

theorem Fair.at (fair : Fair β R lent taken op given) (w : World ρ μ) : FairAt β R w lent taken op given :=
  fun gone owned => fair gone w owned

namespace FairAt

theorem pure (course : Course R) {a : α} (same : taken.Perm (given a)) :
    FairAt β R w lent taken (Pure.pure a) given := (fair_pure course same).at w

theorem bind (course : Course R) {next : α → Run ρ μ γ} {given' : γ → List Handle}
    (fair : FairAt β R w lent taken op given)
    (fair' : ∀ a w', op.outcome w = (.ok a, w') → FairAt β R w' lent (given a) (next a) given') :
    FairAt β R w lent taken (op >>= next) given' := by
  intro gone owned lends accounted
  obtain ⟨first, accounted'⟩ := fair gone owned lends accounted
  cases ran : op.outcome w with
  | mk answer w' =>
    rw [ran] at first accounted'
    cases answer with
    | ok a =>
      rw [outcome_bind ran]
      obtain ⟨second, accounted''⟩ := fair' a w' ran gone owned lends accounted'
      exact ⟨course.trans _ _ _ first second, accounted''⟩
    | error fault =>
      rw [outcome_bind_fault ran]
      exact ⟨first, accounted'⟩

theorem holding (course : Course R) {hs : List Handle} (fair : FairAt β R w (hs ++ lent) [] op given) :
    FairAt β R w lent hs (holding hs op) given := by
  intro gone owned lends accounted
  have lends' : ∀ h ∈ hs ++ lent, h ∈ hs ++ owned := fun h inside =>
    List.mem_append.2 ((List.mem_append.1 inside).imp_right (lends h))
  obtain ⟨became, accounted'⟩ := fair gone (hs ++ owned) lends' accounted
  cases ran : op.outcome w with
  | mk answer w' =>
    rw [ran] at became accounted'
    rw [outcome_holding ran]
    have quiet := w'.quiet_withHeap (w'.host.heap.names_releaseAll hs)
    refine ⟨course.trans _ _ _ became (course.quiet _ _ quiet), ?_⟩
    exact (accounted'.perm (List.perm_append_comm_assoc _ _ _)).released

end FairAt

end Run

end ScriptBoundary
