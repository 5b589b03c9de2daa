import ScriptBoundary.Host.EntryPoints

/-!
What an entry point of a host answers and what it leaves behind, where that depends on the failures
that the host is switched to.
-/

namespace ScriptBoundary.Host

variable {ρ : Type}

theorem run_globalObject (host : Host ρ) :
    globalObject.run host = if host.failures.noGlobal then (none, host)
      else (some global, { host with heap := host.heap.retainAll [global] }) := by
  cases missing : host.failures.noGlobal <;> simp [globalObject, missing] <;> rfl

theorem run_elementObject (host : Host ρ) :
    elementObject.run host = match host.element with
      | none => (none, host)
      | some h => (some h, { host with heap := host.heap.retainAll [h] }) := by
  obtain ⟨heap, element, failures⟩ := host
  cases element <;> simp [elementObject] <;> rfl

theorem run_setProperty (target : Handle) (id : HostId) (value : Raw) (host : Host ρ) :
    (setProperty target id value).run host = if host.failures.refusesWrites then (false, host)
      else ((host.heap.store target id value).1,
        { host with heap := (host.heap.store target id value).2 }) := by
  cases refused : host.failures.refusesWrites <;> simp [setProperty, refused] <;> rfl

theorem run_propertyIds (target : Handle) (host : Host ρ) :
    (propertyIds target).run host
      = (if host.failures.noEnumeration then none else host.heap.propertyIds? target, host) := by
  cases blocked : host.failures.noEnumeration <;> simp [propertyIds, blocked] <;> rfl

end ScriptBoundary.Host
