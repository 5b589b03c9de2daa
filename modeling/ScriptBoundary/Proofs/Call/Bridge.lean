import ScriptBoundary.Call.Bridge
import ScriptBoundary.Proofs.Table

/-!
What the operations of a bridge do to its latches, its pending calls and its flag. Shutdown is taken
apart: the flag is set and the pending set emptied at once, then the latches are cancelled one by one.
-/

namespace ScriptBoundary

namespace Latch

variable {latch : Latch}

theorem isSignalled_iff : latch.isSignalled = true ↔ latch ≠ .pending := by
  cases latch <;> simp [isSignalled, isPending]

theorem complete_fst (result : Option Value) (latch : Latch) :
    (latch.complete result).1 = latch.isPending := by cases latch <;> rfl

theorem cancel_fst (latch : Latch) : latch.cancel.1 = latch.isPending := by cases latch <;> rfl

theorem complete_signals (result : Option Value) (latch : Latch) :
    (latch.complete result).2 ≠ .pending := by cases latch <;> exact fun is => nomatch is

theorem cancel_signals (latch : Latch) : latch.cancel.2 ≠ .pending := by
  cases latch <;> exact fun is => nomatch is

/-- Only a stored result is taken. -/
theorem eq_done_of_take {v : Value} (taken : latch.take.1 = some v) : latch = .done (some v) := by
  cases latch with
  | done result => exact congrArg done taken
  | _ => cases taken

end Latch

namespace Bridge

variable {b : Bridge} {call : Nat}

/-- Cancels one call. -/
def cancel (call : Nat) (b : Bridge) : Bool × Bridge :=
  ((b.latch call).cancel.1, b.setLatch call (b.latch call).cancel.2)

/-- The beginning of shutdown. The latches are still to be cancelled. -/
def close (b : Bridge) : Bridge := { b with pending := [], shutDown := true }

theorem cancelAll_cons (call : Nat) (calls : List Nat) (b : Bridge) :
    b.cancelAll (call :: calls) = (b.cancel call).2.cancelAll calls := rfl

theorem cancelAll_close (calls : List Nat) (b : Bridge) :
    b.close.cancelAll calls = (b.cancelAll calls).close := by
  induction calls generalizing b with
  | nil => rfl
  | cons call rest ih =>
    rw [cancelAll_cons, cancelAll_cons, ← ih]
    rfl

theorem destroy_eq (first : b.shutDown = false) : b.destroy = b.close.cancelAll b.pending := by
  rw [cancelAll_close]
  unfold destroy
  rw [if_neg (by rw [first]; decide)]
  rfl

/-- Only the first time has an effect. -/
theorem destroy_of_shutDown (again : b.shutDown = true) : b.destroy = b := by
  unfold destroy
  exact if_pos again

theorem shutDown_destroy (b : Bridge) : b.destroy.shutDown = true := by
  unfold destroy
  split
  · assumption
  · rfl

theorem register_of_open (open_ : b.shutDown = false) :
    b.register = (some b.nextCall, { b with
      latches := b.latches.insert b.nextCall .pending
      pending := b.pending ++ [b.nextCall]
      nextCall := b.nextCall + 1 }) := by
  unfold register
  rw [if_neg (by rw [open_]; decide)]

theorem register_of_shutDown (late : b.shutDown = true) : b.register = (none, b) := by
  unfold register
  exact if_pos late

theorem open_of_granted (granted : b.register.1 = some call) : b.shutDown = false ∧ call = b.nextCall := by
  by_cases late : b.shutDown = true
  · rw [register_of_shutDown late] at granted
    cases granted
  · have open_ : b.shutDown = false := by simpa using late
    rw [register_of_open open_] at granted
    exact ⟨open_, (Option.some.inj granted).symm⟩

/-! ## Latches -/

theorem latch_setLatch (b : Bridge) (call : Nat) (latch : Latch) (other : Nat) :
    (b.setLatch call latch).latch other = if other = call then latch else b.latch other := by
  unfold Bridge.latch setLatch
  rw [Table.find?_insert]
  by_cases same : other = call <;> simp [same]

theorem latch_register (granted : b.register.1 = some call) (other : Nat) :
    b.register.2.latch other = if other = call then .pending else b.latch other := by
  obtain ⟨open_, rfl⟩ := open_of_granted granted
  rw [register_of_open open_]
  exact latch_setLatch b b.nextCall .pending other

theorem latch_deliver (b : Bridge) (call : Nat) (result : Option Value) (other : Nat) :
    (b.deliver call result).2.latch other
      = if other = call then ((b.latch call).complete result).2 else b.latch other :=
  latch_setLatch b call _ other

theorem latch_cancel (b : Bridge) (call other : Nat) :
    (b.cancel call).2.latch other
      = if other = call then (b.latch call).cancel.2 else b.latch other :=
  latch_setLatch b call _ other

theorem latch_collect (b : Bridge) (call other : Nat) :
    (b.collect call).2.latch other
      = if other = call then (b.latch call).take.2 else b.latch other :=
  latch_setLatch b call _ other

theorem latch_cancelAll (calls : List Nat) (b : Bridge) (n : Nat) :
    (b.cancelAll calls).latch n = b.latch n ∨
      b.latch n = .pending ∧ (b.cancelAll calls).latch n = .cancelled := by
  induction calls generalizing b with
  | nil => exact .inl rfl
  | cons call rest ih =>
    rw [cancelAll_cons]
    have after := ih (b.cancel call).2
    rw [latch_cancel] at after
    by_cases here : n = call
    · subst here
      rw [if_pos rfl] at after
      cases was : b.latch n <;> simp_all [Latch.cancel]
    · rwa [if_neg here] at after

/-- Shutdown cancels calls that are pending, and does nothing to any other. -/
theorem latch_destroy (b : Bridge) (n : Nat) :
    b.destroy.latch n = b.latch n ∨ b.latch n = .pending ∧ b.destroy.latch n = .cancelled := by
  by_cases again : b.shutDown = true
  · exact .inl (by rw [destroy_of_shutDown again])
  · rw [destroy_eq (by simpa using again)]
    exact latch_cancelAll b.pending b.close n

/-- A result is taken up exactly by a latch that is pending. -/
theorem deliver_fst (b : Bridge) (call : Nat) (result : Option Value) :
    (b.deliver call result).1 = (b.latch call).isPending := Latch.complete_fst _ _

theorem cancel_fst (b : Bridge) (call : Nat) : (b.cancel call).1 = (b.latch call).isPending :=
  Latch.cancel_fst _

/-- Whatever is delivered, and however late, the latch has left `pending`. -/
theorem deliver_signals (b : Bridge) (call : Nat) (result : Option Value) :
    (b.deliver call result).2.latch call ≠ .pending := by
  rw [latch_deliver, if_pos rfl]
  exact Latch.complete_signals _ _

end Bridge

end ScriptBoundary
