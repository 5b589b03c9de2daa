import ScriptBoundary.Invocation
import ScriptBoundary.Proofs.Heap.Accounting

/-!
What calling into the host comes to, by what is called.
-/

namespace ScriptBoundary

variable {ρ μ α γ : Type}

/-- The world with another heap. -/
def World.withHeap (w : World ρ μ) (heap : Heap ρ) : World ρ μ :=
  { w with host := { w.host with heap := heap } }

/-- The world once references were given back. -/
def World.released (w : World ρ μ) (hs : List Handle) : World ρ μ :=
  w.withHeap (w.host.heap.releaseAll hs)

def Form.ofShape : Shape → Form ρ
  | .plain => .plain
  | .array => .array #[]

@[simp] theorem World.released_nil (w : World ρ μ) : w.released [] = w := by
  simp [World.released, World.withHeap]

namespace Run

/-- The outcome of a computation in a world, and the world after it. -/
def outcome (body : Run ρ μ α) (w : World ρ μ) : Except Fault α × World ρ μ := body.run.run w

variable {β : Behaviour ρ μ} {w w' : World ρ μ}

@[simp] theorem outcome_pure (a : α) : outcome (pure a : Run ρ μ α) w = (.ok a, w) := rfl

theorem outcome_bind {body : Run ρ μ α} {next : α → Run ρ μ γ} {a : α}
    (ran : outcome body w = (.ok a, w')) : outcome (body >>= next) w = outcome (next a) w' := by
  unfold outcome at ran ⊢
  rw [ExceptT.run_bind, StateT.run_bind, ran]
  rfl

theorem outcome_bind_fault {body : Run ρ μ α} {next : α → Run ρ μ γ} {fault : Fault}
    (ran : outcome body w = (.error fault, w')) : outcome (body >>= next) w = (.error fault, w') := by
  unfold outcome at ran ⊢
  rw [ExceptT.run_bind, StateT.run_bind, ran]
  rfl

theorem outcome_get : outcome (get : Run ρ μ (World ρ μ)) w = (.ok w, w) := rfl

theorem outcome_onHost (operation : HostM ρ α) :
    outcome (onHost operation : Run ρ μ α) w
      = (.ok (operation.run w.host).1, { w with host := (operation.run w.host).2 }) := rfl

theorem outcome_releaseAll (hs : List Handle) :
    outcome (releaseAll hs : Run ρ μ Unit) w = (.ok (), w.released hs) := rfl

theorem outcome_holding {hs : List Handle} {body : Run ρ μ α} {answer : Except Fault α}
    (ran : outcome body w = (answer, w')) : outcome (holding hs body) w = (answer, w'.released hs) := by
  unfold outcome at ran ⊢
  rw [holding, ensuring, ExceptT.run_mk, StateT.run_bind, ran]
  rfl

theorem outcome_guarding {hs : List Handle} {body : Run ρ μ α} {a : α}
    (ran : outcome body w = (.ok a, w')) : outcome (guarding hs body) w = (.ok a, w') := by
  unfold outcome at ran ⊢
  rw [guarding, ExceptT.run_mk, StateT.run_bind, ran]
  rfl

theorem outcome_guarding_fault {hs : List Handle} {body : Run ρ μ α} {fault : Fault}
    (ran : outcome body w = (.error fault, w')) :
    outcome (guarding hs body) w = (.error fault, w'.released hs) := by
  unfold outcome at ran ⊢
  rw [guarding, ExceptT.run_mk, StateT.run_bind, ran]
  rfl

section Invoke

variable {target : Handle} {id : HostId} (args : List Raw)

theorem outcome_invoke_none (unknown : w.host.heap.callee? target id = none) :
    outcome (invoke β target id args) w = (.ok none, w) := by
  rw [invoke, outcome_bind outcome_get, unknown]
  rfl

theorem outcome_invoke_push (push : w.host.heap.callee? target id = some .push) :
    outcome (invoke β target id args) w
      = (.ok (w.host.heap.pushAll target args).1, w.withHeap (w.host.heap.pushAll target args).2) := by
  rw [invoke, outcome_bind outcome_get, push]
  rfl

theorem outcome_invoke_construct {shape : Shape}
    (constructor_ : w.host.heap.callee? target id = some (.construct shape)) :
    outcome (invoke β target id args) w
      = (.ok (some (.object (w.host.heap.alloc (Form.ofShape shape)).1)),
          w.withHeap (w.host.heap.alloc (Form.ofShape shape)).2) := by
  rw [invoke, outcome_bind outcome_get, constructor_]
  cases shape <;> rfl

theorem outcome_invoke_function {f : Handle} {code : ρ}
    (called : w.host.heap.callee? target id = some (.function f code)) :
    outcome (invoke β target id args) w
      = outcome (β.enter code args) { w with entered := w.entered ++ [f] } := by
  rw [invoke, outcome_bind outcome_get, called]
  rfl

end Invoke

end Run

/-- Only an array has the method `push`. -/
theorem Heap.array_of_callee?_push {heap : Heap ρ} {target : Handle} {id : HostId}
    (push : heap.callee? target id = some .push) : (heap.elements? target).isSome := by
  simp only [Heap.callee?] at push
  split at push
  · cases push
  · split at push
    next array =>
      rw [Bool.and_eq_true] at array
      exact array.1
    next =>
      split at push
      · obtain ⟨code, _, other⟩ := Option.map_eq_some_iff.1 push
        cases other
      · split at push <;> (repeat' split at push) <;> cases push

end ScriptBoundary
