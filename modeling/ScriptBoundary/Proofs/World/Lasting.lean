import ScriptBoundary.Proofs.Call.Chain
import ScriptBoundary.Proofs.Heap.Contents
import ScriptBoundary.Proofs.Marshal.Keeping
import ScriptBoundary.Proofs.Value

/-!
What outbound calls leave true. A property of the host that the host's own operations and its functions
keep is kept by the writing of arguments, by the chain and by the reading of the result, whether a call
ends well or not.
-/

namespace ScriptBoundary

variable {ρ μ α γ : Type}

/-- What a host does in the course of a call, apart from running functions, leaves it true. -/
structure Host.Lasting (P : Host ρ → Prop) : Prop extends Host.Durable P where
  names : ∀ host names, P host → P { host with heap := { host.heap with names := names } }
  alloc : ∀ host form, P host → P { host with heap := (host.heap.alloc form).2 }
  pushAll : ∀ host target values, P host → P { host with heap := (host.heap.pushAll target values).2 }
  store : ∀ host target id value, P host → P { host with heap := (host.heap.store target id value).2 }

/-! ## Exceptions -/

namespace Heap

@[simp] theorem exceptions_retainAll (heap : Heap ρ) (hs : List Handle) :
    (heap.retainAll hs).exceptions = heap.exceptions := (alike_retainAll heap hs).exceptions

@[simp] theorem exceptions_releaseAll (heap : Heap ρ) (hs : List Handle) :
    (heap.releaseAll hs).exceptions = heap.exceptions := by
  obtain ⟨_, _, is⟩ := heap.exists_releaseAll hs
  rw [is]

end Heap

/-- A host raises no exception of its own accord. -/
theorem Host.lasting_exceptions (texts : List String) :
    Host.Lasting fun host : Host ρ => host.heap.exceptions = texts where
  intern _ _ same := same
  retainAll _ _ same := (Heap.exceptions_retainAll _ _).trans same
  releaseAll _ _ same := (Heap.exceptions_releaseAll _ _).trans same
  names _ _ same := same
  alloc _ _ same := same
  pushAll host target values same := by
    refine Eq.trans ?_ same
    simp only [Heap.pushAll]
    split <;> exact Heap.exceptions_retainAll _ _
  store host target id value same := by
    refine Eq.trans ?_ same
    simp only [Heap.store]
    split
    · split
      · exact Heap.exceptions_retainAll _ _
      · exact (Heap.exceptions_releaseAll _ _).trans (Heap.exceptions_retainAll _ _)
    · rfl

/-! ## Computations -/

namespace Run

variable {P : Host ρ → Prop}

/-- The host has the property afterwards, also after a fault. -/
def Keeps (P : Host ρ → Prop) (op : Run ρ μ α) : Prop := ∀ w, P w.host → P (op.outcome w).2.host

namespace Keeps

theorem pure (a : α) : Keeps P (Pure.pure a : Run ρ μ α) := fun _ here => here

theorem get {next : World ρ μ → Run ρ μ α} (keeps : ∀ w, Keeps P (next w)) :
    Keeps P (MonadState.get >>= next) := fun w here => keeps w w here

theorem onHost {op : HostM ρ α} (keeps : Host.Keeps P op) : Keeps P (Run.onHost op : Run ρ μ α) :=
  fun w here => keeps w.host here

theorem bind {op : Run ρ μ α} {next : α → Run ρ μ γ} (first : Keeps P op) (second : ∀ a, Keeps P (next a)) :
    Keeps P (op >>= next) := by
  intro w here
  have there := first w here
  cases ran : op.outcome w with
  | mk answer w' =>
    rw [ran] at there
    cases answer with
    | error fault => rwa [outcome_bind_fault ran]
    | ok a =>
      rw [outcome_bind ran]
      exact second a w' there

end Keeps

variable (lasting : Host.Lasting P)

include lasting

theorem keeps_retainAll (hs : List Handle) : Keeps P (retainAll hs : Run ρ μ Unit) :=
  .onHost (lasting.toDurable.keeps_retainAll hs)

theorem keeps_releaseAll (hs : List Handle) : Keeps P (releaseAll hs : Run ρ μ Unit) :=
  .onHost (lasting.toDurable.keeps_releaseAll hs)

theorem keeps_holding {op : Run ρ μ α} (keeps : Keeps P op) (hs : List Handle) : Keeps P (holding hs op) := by
  intro w here
  have there := keeps w here
  cases ran : op.outcome w with
  | mk answer w' =>
    rw [ran] at there
    rw [outcome_holding ran]
    exact lasting.releaseAll _ hs there

theorem keeps_guarding {op : Run ρ μ α} (keeps : Keeps P op) (hs : List Handle) : Keeps P (guarding hs op) := by
  intro w here
  have there := keeps w here
  cases ran : op.outcome w with
  | mk answer w' =>
    rw [ran] at there
    cases answer with
    | ok a => rwa [outcome_guarding ran]
    | error fault =>
      rw [outcome_guarding_fault ran]
      exact lasting.releaseAll _ hs there

theorem keeps_globalObject : Keeps P (onHost Host.globalObject : Run ρ μ (Option Handle)) := by
  refine .onHost fun host here => ?_
  rw [Host.run_globalObject]
  split
  · exact here
  · exact lasting.retainAll host _ here

theorem keeps_idOf (id : Identifier) : Keeps P (onHost (Host.idOf id) : Run ρ μ HostId) :=
  .onHost fun host here => lasting.names host _ here

theorem keeps_evaluate (target : Handle) (script : String) :
    Keeps P (onHost (Host.evaluate target script) : Run ρ μ (Option Raw)) := by
  refine .onHost fun host here => ?_
  change P { host with heap := (host.heap.evaluate target script).2 }
  simp only [Heap.evaluate]
  split
  · exact lasting.retainAll host _ here
  · exact lasting.retainAll _ _ (lasting.names host _ here)

theorem keeps_setProperty (h : Handle) (id : HostId) (raw : Raw) :
    Keeps P (onHost (Host.setProperty h id raw) : Run ρ μ Bool) := by
  refine .onHost fun host here => ?_
  rw [Host.run_setProperty]
  split
  · exact here
  · exact lasting.store host h id raw here

end Run

/-! ## Calls -/

section Calls

variable {P : Host ρ → Prop} {β : Behaviour ρ μ}

/-- Functions of the host leave it true. -/
def Behaviour.Keeps (P : Host ρ → Prop) (β : Behaviour ρ μ) : Prop :=
  ∀ code args, Run.Keeps P (β.enter code args)

variable (lasting : Host.Lasting P) (keeps : β.Keeps P)

include keeps

theorem keeps_enter (object : Handle) (code : ρ) (args : List Raw) :
    Run.Keeps P (Run.enter β object code args) := fun _ here => keeps code args _ here

theorem keeps_invokeDefault (target : Handle) (args : List Raw) :
    Run.Keeps P (Run.invokeDefault β target args) := by
  refine .get fun w => ?_
  cases w.host.heap.code? target with
  | none => exact .pure none
  | some code => exact keeps_enter keeps target code args

include lasting

theorem keeps_invoke (target : Handle) (id : HostId) (args : List Raw) :
    Run.Keeps P (Run.invoke β target id args) := by
  intro w here
  cases called : w.host.heap.callee? target id with
  | none => rwa [Run.outcome_invoke_none args called]
  | some callee =>
    cases callee with
    | push =>
      rw [Run.outcome_invoke_push args called]
      exact lasting.pushAll w.host target args here
    | construct shape =>
      rw [Run.outcome_invoke_construct args called]
      exact lasting.alloc w.host _ here
    | function f code =>
      rw [Run.outcome_invoke_function args called]
      exact keeps code args _ here

theorem keeps_construct (global : Handle) (shape : Shape) : Run.Keeps P (Marshal.construct β global shape) := by
  refine (Run.Keeps.onHost fun host here => lasting.intern host _ here).bind fun id => ?_
  refine (keeps_invoke lasting keeps global id []).bind fun answer => ?_
  split <;> exact .pure _

theorem keeps_pushElements (h : Handle) (push : HostId) {elements : List (Marshal.Writer ρ μ)}
    (writes : ∀ e ∈ elements, Run.Keeps P e.write) : Run.Keeps P (Marshal.pushElements β h push elements) := by
  induction elements with
  | nil => exact .pure _
  | cons e rest ih =>
    obtain ⟨here, others⟩ := List.forall_mem_cons.1 writes
    have pushed (raw : Raw) : Run.Keeps P (Run.holding raw.handles do
        let answer ← Run.invoke β h push [raw]
        Run.releaseAll (answer.elim [] Raw.handles)) :=
      Run.keeps_holding lasting ((keeps_invoke lasting keeps h push [raw]).bind fun _ =>
        Run.keeps_releaseAll lasting _) _
    refine (Run.keeps_retainAll lasting _).bind fun _ => ?_
    exact (Run.keeps_holding lasting (here.bind pushed) _).bind fun _ => ih others

omit keeps in
theorem keeps_writeProperties (h : Handle) {properties : List (Identifier × Marshal.Writer ρ μ)}
    (writes : ∀ e ∈ properties, Run.Keeps P e.2.write) : Run.Keeps P (Marshal.writeProperties h properties) := by
  induction properties with
  | nil => exact .pure _
  | cons e rest ih =>
    obtain ⟨here, others⟩ := List.forall_mem_cons.1 writes
    refine here.bind fun raw => (Run.keeps_holding lasting ?_ _).bind fun _ => ih others
    exact (Run.keeps_idOf lasting _).bind fun id =>
      (Run.keeps_setProperty lasting h id raw).bind fun _ => .pure _

theorem keeps_build (shape : Shape) {properties : Table Identifier (Marshal.Writer ρ μ)}
    (writes : ∀ e ∈ properties.entries, Run.Keeps P e.2.write) : Run.Keeps P (Marshal.build β shape properties) := by
  have filled (h : Handle) : Run.Keeps P (Marshal.fill β h shape properties) := by
    cases shape with
    | plain => exact keeps_writeProperties lasting h writes
    | array =>
      refine (Run.Keeps.onHost fun host here => lasting.intern host _ here).bind fun push => ?_
      refine keeps_pushElements lasting keeps h push fun writer inside => ?_
      rcases Bag.mem_elements inside with rfl | ⟨e, there, rfl⟩
      · exact .pure _
      · exact writes e there
  refine (Run.keeps_globalObject lasting).bind fun global? => ?_
  cases global? with
  | none => exact .pure _
  | some global =>
    refine Run.keeps_holding lasting ((keeps_construct lasting keeps global shape).bind fun h? => ?_) _
    cases h? with
    | none => exact .pure _
    | some h => exact (Run.keeps_guarding lasting (filled h) _).bind fun _ => .pure _

end Calls

section Marshal

variable {P : Host ρ → Prop} {β : Behaviour ρ μ}

mutual

theorem keeps_write (lasting : Host.Lasting P) (keeps : β.Keeps P) : (v : Value) → Run.Keeps P (Marshal.write β v)
  | .scalar s => by
    rw [Marshal.write]
    exact .pure _
  | .object ⟨shape, ⟨entries⟩, some h⟩ => by
    rw [Marshal.write]
    exact (Run.keeps_retainAll lasting _).bind fun _ => .pure _
  | .object ⟨shape, ⟨entries⟩, none⟩ => by
    rw [Marshal.write]
    exact keeps_build lasting keeps shape (keeps_writers lasting keeps entries)

theorem keeps_writers (lasting : Host.Lasting P) (keeps : β.Keeps P) : (entries : List (Identifier × Value)) →
    ∀ e ∈ Marshal.writers β entries, Run.Keeps P e.2.write
  | [] => List.forall_mem_nil _
  | (id, v) :: rest => by
    rw [Marshal.writers]
    exact List.forall_mem_cons.2 ⟨keeps_write lasting keeps v, keeps_writers lasting keeps rest⟩

end

variable (lasting : Host.Lasting P) (keeps : β.Keeps P)

include lasting keeps

theorem keeps_withWritten {use : List Raw → Run ρ μ α} (uses : ∀ raws, Run.Keeps P (use raws))
    (values : List Value) : Run.Keeps P (Marshal.withWritten β use values) := by
  induction values generalizing use with
  | nil => exact uses []
  | cons v rest ih =>
    exact (keeps_write lasting keeps v).bind fun raw =>
      Run.keeps_holding lasting (ih fun raws => uses (raw :: raws)) _

theorem keeps_callEvaluated (target : Handle) (args : List Raw) :
    Run.Keeps P (callEvaluated β target args) := by
  refine (Run.keeps_guarding lasting (keeps_invokeDefault keeps target args) _).bind fun answer => ?_
  cases answer with
  | none => exact .pure _
  | some raw => exact (Run.keeps_releaseAll lasting _).bind fun _ => .pure _

theorem keeps_resolve (id : HostId) (script : String) (args : List Raw) :
    Run.Keeps P (resolve β id script args) := by
  refine (Run.keeps_globalObject lasting).bind fun global? => ?_
  cases global? with
  | none => exact .pure _
  | some global =>
    refine Run.keeps_holding lasting ((keeps_invoke lasting keeps global id args).bind fun answer => ?_) _
    cases answer with
    | some raw => exact .pure _
    | none =>
      refine (Run.keeps_evaluate lasting global script).bind fun value => ?_
      match value with
      | none => exact .pure _
      | some (.scalar s) => exact .pure _
      | some (.object target) => exact (keeps_callEvaluated lasting keeps target args).bind fun _ => .pure _

/-- A call that is executed leaves it true. -/
theorem keeps_execute (c : OutboundCall) : Run.Keeps P (c.execute β) := by
  refine keeps_withWritten lasting keeps (fun raws => (Run.keeps_idOf lasting _).bind fun id => ?_) c.args
  refine (keeps_resolve lasting keeps id _ raws).bind fun answer => ?_
  cases answer with
  | error e => exact .pure _
  | ok raw =>
    have read : Run.Keeps P (Run.onHost (Marshal.read raw) : Run ρ μ Value) :=
      .onHost (Marshal.keeps_readAt lasting.toDurable _ _ raw)
    exact read.bind fun v => (Run.keeps_releaseAll lasting _).bind fun _ => .pure _

end Marshal

end ScriptBoundary
