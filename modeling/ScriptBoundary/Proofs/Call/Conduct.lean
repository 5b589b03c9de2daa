import ScriptBoundary.Call.Outbound
import ScriptBoundary.Proofs.Call.Bridge
import ScriptBoundary.Proofs.Invocation

/-!
What the code of a call does to its bridge. However a call ends on the host thread, by a result, a
failure or a panic, or without having run at all, its latch is signalled afterwards. A call that was
cancelled before does nothing to the host but give back the references of its arguments.
-/

namespace ScriptBoundary

variable {ρ μ α : Type}

namespace World

/-- The world with another bridge under a number. -/
def withBridge (w : World ρ μ) (number : Nat) (b : Bridge) : World ρ μ :=
  { w with bridges := w.bridges.set number b }

theorem bridge_withBridge (w : World ρ μ) {number : Nat} (known : number < w.bridges.length)
    (b : Bridge) : (w.withBridge number b).bridge number = b := by
  simp [bridge, withBridge, known]

theorem bridge_withBridge_of_unknown (w : World ρ μ) {number : Nat}
    (unknown : w.bridges.length ≤ number) (b : Bridge) :
    (w.withBridge number b).bridge number = Bridge.start false := by
  simp [bridge, withBridge, unknown]

/-- A bridge is put back where it was. -/
theorem withBridge_bridge (w : World ρ μ) (number : Nat) :
    w.withBridge number (w.bridge number) = w := by
  unfold withBridge bridge
  by_cases known : number < w.bridges.length
  · simp [known]
  · rw [List.set_eq_of_length_le (Nat.le_of_not_lt known)]

end World

namespace Run

theorem outcome_ensuring (body : Run ρ μ α) (last : WorldM ρ μ Unit) (w : World ρ μ) :
    (body.ensuring last).outcome w = ((body.outcome w).1, (last.run (body.outcome w).2).2) := rfl

end Run

namespace OutboundCall

variable (c : OutboundCall) (w : World ρ μ) (β : Behaviour ρ μ)

/-- The world once the call was offered no result. -/
def offered (w : World ρ μ) : World ρ μ :=
  w.withBridge c.bridge ((w.bridge c.bridge).deliver c.number none).2

theorem run_deliver (result : Option Value) : (c.deliver result).run w
    = ((),
      let w' := w.withBridge c.bridge ((w.bridge c.bridge).deliver c.number result).2
      if ((w.bridge c.bridge).deliver c.number result).1 then w'
      else w'.released (result.elim [] Value.handles)) := by
  unfold deliver
  rw [StateT.run_bind]
  change StateT.run (if !((w.bridge c.bridge).deliver c.number result).1 then _ else _)
    (w.withBridge c.bridge ((w.bridge c.bridge).deliver c.number result).2) = _
  cases ((w.bridge c.bridge).deliver c.number result).1 <;> rfl

theorem run_deliver_none : (c.deliver none).run w = ((), c.offered w) := by
  rw [run_deliver]
  simp [offered]

theorem run_finish : c.finish.run w = ((), (c.offered w).released c.handles) := by
  unfold finish
  rw [StateT.run_bind, run_deliver_none]
  rfl

/-- The end of a call signals its latch, whatever the world looks like by then. -/
theorem signalled_offered : ((c.offered w).bridge c.bridge).latch c.number ≠ .pending := by
  by_cases known : c.bridge < w.bridges.length
  · unfold offered
    rw [World.bridge_withBridge w known]
    exact Bridge.deliver_signals _ _ _
  · unfold offered
    rw [World.bridge_withBridge_of_unknown w (Nat.le_of_not_lt known)]
    intro pending
    cases pending

theorem outcome_perform : (c.perform β).outcome w
    = (((c.attempt β).outcome w).1,
        (c.offered ((c.attempt β).outcome w).2).released c.handles) := by
  unfold perform
  rw [Run.outcome_ensuring, run_finish]

/-- A call that was run has signalled its latch, even if host code panicked. -/
theorem signalled_perform :
    (((c.perform β).outcome w).2.bridge c.bridge).latch c.number ≠ .pending := by
  rw [outcome_perform]
  exact c.signalled_offered _

theorem run_dispatch_of_lost (lost : w.hostGone = true ∨ w.host.failures.dropsTasks = true) :
    (WorldM.dispatch c).run w = ((), (c.offered w).released c.handles) := by
  rw [← run_finish]
  unfold WorldM.dispatch
  rw [StateT.run_bind]
  change StateT.run (if (w.hostGone || w.host.failures.dropsTasks) = true then _ else _) w = _
  rw [if_pos (by simpa using lost)]

theorem run_dispatch_of_kept (kept : ¬(w.hostGone = true ∨ w.host.failures.dropsTasks = true)) :
    (WorldM.dispatch c).run w = ((), { w with queue := w.queue ++ [c] }) := by
  unfold WorldM.dispatch
  rw [StateT.run_bind]
  change StateT.run (if (w.hostGone || w.host.failures.dropsTasks) = true then _ else _) w = _
  rw [if_neg (by simpa using kept)]
  rfl

/-- A call that is not run is signalled when it is dropped. -/
theorem signalled_dispatch (lost : w.hostGone = true ∨ w.host.failures.dropsTasks = true) :
    (((WorldM.dispatch c).run w).2.bridge c.bridge).latch c.number ≠ .pending := by
  rw [c.run_dispatch_of_lost w lost]
  exact c.signalled_offered w

/-! ## What an attempt comes to -/

/-- The world once a failed call was reported to the host, if the bridge does that. -/
def reported (b : Bridge) (e : ResolveError) (w : World ρ μ) : World ρ μ :=
  if b.marshalsExceptions then { w with host := ((Host.raise (c.failureText e)).run w.host).2 } else w

section Attempt

variable {c w β} {w₁ : World ρ μ}

theorem attempt_of_cancelled (cancelled : (w.bridge c.bridge).isCancelled c.number = true) :
    (c.attempt β).outcome w = (.ok (), w) := by
  unfold attempt
  rw [Run.outcome_bind Run.outcome_get]
  change Run.outcome (if (w.bridge c.bridge).isCancelled c.number = true then _ else _) w = _
  rw [if_pos cancelled]
  rfl

theorem attempt_of_open (valid : (w.bridge c.bridge).isCancelled c.number = false) :
    (c.attempt β).outcome w = Run.outcome (do
      match ← c.execute β with
      | .ok value => Run.always (c.deliver (some value))
      | .error e =>
        if (w.bridge c.bridge).marshalsExceptions then Run.onHost (Host.raise (c.failureText e))
        Run.always (c.deliver none)) w := by
  unfold attempt
  rw [Run.outcome_bind Run.outcome_get]
  change Run.outcome (if (w.bridge c.bridge).isCancelled c.number = true then _ else _) w = _
  exact congrArg (Run.outcome · w) (if_neg (by rw [valid]; decide))

theorem attempt_of_value (valid : (w.bridge c.bridge).isCancelled c.number = false) {v : Value}
    (ran : (c.execute β).outcome w = (.ok (.ok v), w₁)) :
    (c.attempt β).outcome w = (.ok (), ((c.deliver (some v)).run w₁).2) := by
  rw [attempt_of_open valid, Run.outcome_bind ran]
  rfl

theorem attempt_of_failure (valid : (w.bridge c.bridge).isCancelled c.number = false)
    {e : ResolveError} (ran : (c.execute β).outcome w = (.ok (.error e), w₁)) :
    (c.attempt β).outcome w
      = (.ok (), ((c.deliver none).run (c.reported (w.bridge c.bridge) e w₁)).2) := by
  rw [attempt_of_open valid, Run.outcome_bind ran]
  unfold reported
  by_cases raises : (w.bridge c.bridge).marshalsExceptions = true
  · simp only [raises, if_true]
    rw [Run.outcome_bind (Run.outcome_onHost _)]
    rfl
  · simp only [raises]
    rfl

theorem attempt_of_panic (valid : (w.bridge c.bridge).isCancelled c.number = false) {fault : Fault}
    (ran : (c.execute β).outcome w = (.error fault, w₁)) :
    (c.attempt β).outcome w = (.error fault, w₁) := by
  rw [attempt_of_open valid]
  unfold Run.outcome at ran ⊢
  rw [ExceptT.run_bind, StateT.run_bind, ran]
  rfl

end Attempt

/-- A call that was cancelled before it starts only gives back its arguments. -/
theorem perform_of_cancelled (cancelled : (w.bridge c.bridge).isCancelled c.number = true) :
    (c.perform β).outcome w = (.ok (), (c.offered w).released c.handles) := by
  rw [outcome_perform, attempt_of_cancelled cancelled]

end OutboundCall

/-! ## After shutdown -/

namespace WorldM

variable (β : Behaviour ρ μ) (w : World ρ μ) {bridge : Nat}

theorem request_of_shutDown (late : (w.bridge bridge).shutDown = true) (id : Identifier)
    (args : List Value) : (request bridge id args).run w = (none, w) := by
  have refused : (onBridge bridge Bridge.register : WorldM ρ μ (Option Nat)).run w = (none, w) := by
    change ((w.bridge bridge).register.1, w.withBridge bridge (w.bridge bridge).register.2) = _
    rw [Bridge.register_of_shutDown late]
    exact congrArg (Prod.mk none) (w.withBridge_bridge bridge)
  unfold request
  rw [StateT.run_bind, refused]
  rfl

/-- A call from an engine thread that comes too late changes nothing. -/
theorem callFromWorker_of_shutDown (late : (w.bridge bridge).shutDown = true) (id : Identifier)
    (args : List Value) : (callFromWorker β bridge id args).run w = (none, w) := by
  unfold callFromWorker
  rw [StateT.run_bind, request_of_shutDown w late]
  rfl

end WorldM

/-- Neither does one on the host thread. -/
theorem Run.callInline_of_shutDown (β : Behaviour ρ μ) (w : World ρ μ) {bridge : Nat}
    (late : (w.bridge bridge).shutDown = true) (id : Identifier) (args : List Value) :
    (callInline β bridge id args).outcome w = (.ok none, w) := by
  have refused : (Run.always (WorldM.request bridge id args) : Run ρ μ _).outcome w = (.ok none, w) :=
    congrArg (fun answer => (Except.ok answer.1, answer.2)) (WorldM.request_of_shutDown w late id args)
  unfold callInline
  rw [Run.outcome_bind refused]
  rfl

end ScriptBoundary
