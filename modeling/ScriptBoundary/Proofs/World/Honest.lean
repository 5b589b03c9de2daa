import ScriptBoundary.Proofs.Marshal.Building
import ScriptBoundary.Proofs.World.Fair

/-!
Host functions under contract, and what calls them: methods and constructors, and the writing of
values, which builds objects with them. All of it keeps account if host functions do.
-/

namespace ScriptBoundary

variable {ρ μ α : Type}

/-- The contract of host functions. Each borrows its arguments and hands out one reference with its
result; beyond that it may do anything of `R` that keeps account. -/
def Honest (β : Behaviour ρ μ) (R : World ρ μ → World ρ μ → Prop) : Prop :=
  ∀ code args, Run.Fair β R (args.flatMap Raw.handles) [] (β.enter code args)
    fun answer => answer.elim [] Raw.handles

variable {β : Behaviour ρ μ} {R : World ρ μ → World ρ μ → Prop} {lent taken rest : List Handle}

namespace Run

theorem fair_enter (course : Course R) (honest : Honest β R) (object : Handle) (code : ρ)
    (args : List Raw) : Fair β R (args.flatMap Raw.handles) [] (enter β object code args)
      fun answer => answer.elim [] Raw.handles := by
  intro gone w owned lends accounted
  have quiet : w.Quiet { w with entered := w.entered ++ [object] } := ⟨rfl, rfl, .refl _⟩
  obtain ⟨became, accounted'⟩ := honest code args gone _ owned lends (accounted.entered _)
  exact ⟨course.trans _ _ _ (course.quiet _ _ quiet) became, accounted'⟩

theorem fair_invoke (course : Course R) (honest : Honest β R) (target : Handle) (id : HostId)
    (args : List Raw) : Fair β R (args.flatMap Raw.handles) [] (invoke β target id args)
      fun answer => answer.elim [] Raw.handles := by
  intro gone w owned lends accounted
  change R w ((invoke β target id args).outcome w).2 ∧
    World.Accounted β gone ((invoke β target id args).outcome w).2
      (handed _ ((invoke β target id args).outcome w).1 ++ owned)
  cases called : w.host.heap.callee? target id with
  | none =>
    rw [outcome_invoke_none args called]
    exact ⟨course.quiet _ _ (.refl w), accounted⟩
  | some callee =>
    cases callee with
    | push =>
      have names : (w.host.heap.pushAll target args).2.names = w.host.heap.names :=
        w.host.heap.names_pushAll target args
      rw [outcome_invoke_push args called]
      refine ⟨course.quiet _ _ (w.quiet_withHeap names), accounted.withHost rfl ?_⟩
      rw [handed, Heap.handles_pushAll]
      exact accounted.heap.pushAll (fun h inside => accounted.live (lends h inside))
        (Heap.array_of_callee?_push called)
    | construct shape =>
      rw [outcome_invoke_construct args called]
      refine ⟨course.quiet _ _ (w.quiet_withHeap rfl), accounted.withHost rfl ?_⟩
      have made : (w.host.heap.alloc (Form.ofShape shape)).2.Sound gone
          ((w.host.heap.alloc (Form.ofShape shape)).1 :: (w.holdings β ++ owned)) := by
        apply Heap.Sound.alloc
        cases shape <;> exact accounted.heap
      exact made.perm List.perm_middle.symm
    | function f code =>
      have entered := fair_enter course honest f code args gone w owned lends accounted
      rw [outcome_invoke_function args called]
      exact entered

theorem fair_invokeDefault (course : Course R) (honest : Honest β R) (target : Handle)
    (args : List Raw) : Fair β R (args.flatMap Raw.handles) [] (invokeDefault β target args)
      fun answer => answer.elim [] Raw.handles := by
  unfold invokeDefault
  refine fair_get fun w => ?_
  cases w.host.heap.code? target with
  | none => exact fair_pure course (.refl _)
  | some code => exact fair_enter course honest target code args

end Run

namespace Marshal

/-- Writing takes one reference for the result and borrows those of the value. -/
def FairWriter (β : Behaviour ρ μ) (R : World ρ μ → World ρ μ → Prop) (writer : Writer ρ μ) : Prop :=
  Run.Fair β R writer.handles [] writer.write Raw.handles

section

variable (course : Course R) (honest : Honest β R)

include course honest

theorem fair_construct (global : Handle) (shape : Shape) :
    Run.Fair β R lent [] (construct β global shape) Option.toList := by
  refine (Run.fair_onHost course (Host.fair_intern _) (List.nil_subset _)).bind course fun id => ?_
  refine ((Run.fair_invoke course honest global id []).lend (List.nil_subset _)).bind course fun answer => ?_
  cases answer with
  | none => exact Run.fair_pure course (.refl _)
  | some raw =>
    cases raw with
    | scalar => exact Run.fair_pure course (.refl _)
    | object h => exact Run.fair_pure course (.refl _)

theorem fair_pushElements (h : Handle) (push : HostId) {elements : List (Writer ρ μ)}
    (fair : ∀ e ∈ elements, FairWriter β R e ∧ e.handles ⊆ lent) :
    Run.Fair β R lent [] (pushElements β h push elements) fun _ => [] := by
  induction elements with
  | nil => exact Run.fair_pure course (.refl _)
  | cons e rest ih =>
    obtain ⟨⟨writes, lends⟩, others⟩ := List.forall_mem_cons.1 fair
    have pushes (raw : Raw) : Run.Fair β R (raw.handles ++ (e.handles ++ lent)) []
        (do Run.releaseAll ((← Run.invoke β h push [raw]).elim [] Raw.handles)) fun _ => [] := by
      refine ((Run.fair_invoke course honest h push [raw]).lend ?_).bind course fun answer => ?_
      · rw [List.flatMap_singleton]
        exact List.subset_append_left _ _
      · exact (Run.fair_releaseAll course _).perm (.of_eq (List.append_nil _).symm) fun _ => .refl _
    have first : Run.Fair β R lent e.handles (Run.holding e.handles (do
        let raw ← e.write
        Run.holding raw.handles (do
          Run.releaseAll ((← Run.invoke β h push [raw]).elim [] Raw.handles)))) fun _ => [] :=
      Run.fair_holding course
        ((Run.Fair.lend writes (List.subset_append_left _ _)).bind course fun raw =>
          Run.fair_holding course (pushes raw))
    refine (Run.fair_retainAll course lends).bind course fun _ => ?_
    exact (first.perm (.of_eq (List.append_nil _)) fun _ => .refl _).bind course fun _ => ih others

omit honest in
theorem fair_writeProperties (h : Handle) {properties : List (Identifier × Writer ρ μ)}
    (fair : ∀ e ∈ properties, FairWriter β R e.2 ∧ e.2.handles ⊆ lent) :
    Run.Fair β R lent [] (writeProperties h properties) fun _ => [] := by
  induction properties with
  | nil => exact Run.fair_pure course (.refl _)
  | cons e rest ih =>
    obtain ⟨⟨writes, lends⟩, others⟩ := List.forall_mem_cons.1 fair
    have writesOne (raw : Raw) : Run.Fair β R lent raw.handles (Run.holding raw.handles (do
        let id ← Run.onHost (Host.idOf e.1)
        let _ ← Run.onHost (Host.setProperty h id raw))) fun _ => [] := by
      refine Run.fair_holding course ?_
      refine (Run.fair_onHost course (Host.fair_idOf e.1) (List.nil_subset _)).bind course fun id => ?_
      refine (Run.fair_onHost course (Host.fair_setProperty h id raw) ?_).bind course fun _ =>
        Run.fair_pure course (.refl _)
      exact List.subset_append_left _ _
    refine (Run.Fair.lend writes lends).bind course fun raw => ?_
    exact (writesOne raw).bind course fun _ => ih others

theorem fair_fill (h : Handle) (shape : Shape) {properties : Table Identifier (Writer ρ μ)}
    (fair : ∀ e ∈ properties.entries, FairWriter β R e.2 ∧ e.2.handles ⊆ lent) :
    Run.Fair β R lent [] (fill β h shape properties) fun _ => [] := by
  cases shape with
  | plain => exact fair_writeProperties course h fair
  | array =>
    refine (Run.fair_onHost course (Host.fair_intern "push") (List.nil_subset _)).bind course fun push => ?_
    refine fair_pushElements course honest h push fun writer inside => ?_
    rcases Bag.mem_elements inside with rfl | ⟨e, there, rfl⟩
    · exact ⟨Run.fair_pure course (.refl _), List.nil_subset _⟩
    · exact fair e there

theorem fair_build (shape : Shape) {properties : Table Identifier (Writer ρ μ)}
    (fair : ∀ e ∈ properties.entries, FairWriter β R e.2 ∧ e.2.handles ⊆ lent) :
    Run.Fair β R lent [] (build β shape properties) Raw.handles := by
  refine (Run.fair_onHost course Host.fair_globalObject (List.nil_subset _)).bind course fun global? => ?_
  cases global? with
  | none => exact Run.fair_pure course (.refl _)
  | some global =>
    refine Run.fair_holding course ?_
    refine (fair_construct course honest global shape).bind course fun h? => ?_
    cases h? with
    | none => exact Run.fair_pure course (.refl _)
    | some h =>
      refine (Run.fair_guarding course (fair_fill course honest h shape ?_)).bind course
        fun _ => Run.fair_pure course (.refl _)
      exact fun e inside => ⟨(fair e inside).1, fun x holds =>
        List.mem_append_right _ (List.mem_append_right _ ((fair e inside).2 holds))⟩

end

mutual

theorem fair_write (course : Course R) (honest : Honest β R) :
    (v : Value) → FairWriter β R ⟨write β v, v.handles⟩
  | .scalar s => by
    unfold FairWriter
    rw [write]
    exact Run.fair_pure course (.refl _)
  | .object ⟨shape, ⟨entries⟩, some h⟩ => by
    unfold FairWriter
    rw [write]
    refine (Run.fair_retainAll course ?_).bind course fun _ => Run.fair_pure course (.refl _)
    rw [Value.handles]
    exact List.subset_append_right _ _
  | .object ⟨shape, ⟨entries⟩, none⟩ => by
    unfold FairWriter
    rw [write]
    refine fair_build course honest shape fun e inside =>
      ⟨fair_writers course honest entries e inside, fun h holds => ?_⟩
    rw [Value.handles]
    exact List.mem_append_left _ (handles_writers inside holds)

theorem fair_writers (course : Course R) (honest : Honest β R) :
    (entries : List (Identifier × Value)) → ∀ e ∈ writers β entries, FairWriter β R e.2
  | [] => List.forall_mem_nil _
  | (id, v) :: rest => by
    rw [writers]
    exact List.forall_mem_cons.2 ⟨fair_write course honest v, fair_writers course honest rest⟩

end

/-- Arguments are written for as long as they are used. -/
theorem fair_withWritten (course : Course R) (honest : Honest β R) {use : List Raw → Run ρ μ α}
    {given : α → List Handle} {values : List Value}
    (fair : ∀ raws, Run.Fair β R (raws.flatMap Raw.handles ++ lent) [] (use raws) given)
    (lends : values.flatMap Value.handles ⊆ lent) :
    Run.Fair β R lent [] (withWritten β use values) given := by
  induction values generalizing use lent with
  | nil => exact fair []
  | cons v rest ih =>
    obtain ⟨here, others⟩ := List.append_subset.1 lends
    refine (Run.Fair.lend (fair_write course honest v) here).bind course fun raw => ?_
    refine Run.fair_holding course (ih (fun raws => ?_) fun h inside => ?_)
    · refine (fair (raw :: raws)).lend fun h inside => ?_
      simp only [List.flatMap_cons, List.mem_append] at inside ⊢
      tauto
    · exact List.mem_append_right _ (others inside)

end Marshal

end ScriptBoundary
