import ScriptBoundary.Gateway
import ScriptBoundary.Proofs.Call.Conduct
import ScriptBoundary.Proofs.Host.Ownership
import ScriptBoundary.Proofs.Value

/-!
The account of a whole session. Beside what somebody owns who runs at the moment, references are held
by the host for itself, by results that nobody has collected, by the arguments of calls on their way
to the host thread, and by what is bound in registries.
-/

namespace ScriptBoundary

variable {ρ μ : Type}

namespace Latch

/-- The references of a result that nobody has collected. -/
def handles : Latch → List Handle
  | .done result => result.elim [] Value.handles
  | _ => []

/-- A result that is taken up goes into the latch; one that is not stays with whoever offers it. -/
theorem handles_complete (result : Option Value) (latch : Latch) :
    (latch.complete result).2.handles
      = (if (latch.complete result).1 then result.elim [] Value.handles else []) ++ latch.handles := by
  cases latch <;> simp [complete, handles]

theorem handles_cancel (latch : Latch) : latch.cancel.2.handles = latch.handles := by
  cases latch <;> rfl

theorem handles_take (latch : Latch) :
    latch.take.1.elim [] Value.handles ++ latch.take.2.handles = latch.handles := by
  cases latch <;> simp [take, handles]

end Latch

namespace Bridge

variable {b : Bridge} {call : Nat}

def handles (b : Bridge) : List Handle := b.latches.values.flatMap Latch.handles

/-- Latches are in order, and numbers still to come have none. -/
structure Tidy (b : Bridge) : Prop where
  sorted : b.latches.Sorted
  unused : ∀ n, b.nextCall ≤ n → b.latch n = .taken

theorem tidy_start (marshalsExceptions : Bool) : (start marshalsExceptions).Tidy :=
  ⟨Table.sorted_empty, fun _ _ => rfl⟩

theorem handles_setLatch (sorted : b.latches.Sorted) (call : Nat) (latch : Latch) :
    ((b.latch call).handles ++ (b.setLatch call latch).handles).Perm (latch.handles ++ b.handles) := by
  have moved := (Table.values_insert_perm sorted call latch).flatMap_right Latch.handles
  have old : (b.latches.find? call).toList.flatMap Latch.handles = (b.latch call).handles := by
    rw [Bridge.latch]
    cases b.latches.find? call <;> simp [Latch.handles]
  rw [List.flatMap_append, List.flatMap_cons, old] at moved
  exact List.perm_append_comm.trans moved

theorem Tidy.setLatch (tidy : b.Tidy) {latch : Latch} (late : b.nextCall ≤ call → latch = .taken) :
    (b.setLatch call latch).Tidy := by
  refine ⟨Table.sorted_insert tidy.sorted call latch, fun n after => ?_⟩
  rw [latch_setLatch]
  split
  next here => exact late (here ▸ after)
  next => exact tidy.unused n after

theorem Tidy.deliver (tidy : b.Tidy) (call : Nat) (result : Option Value) :
    (b.deliver call result).2.Tidy :=
  tidy.setLatch fun late => by rw [tidy.unused call late]

theorem Tidy.collect (tidy : b.Tidy) (call : Nat) : (b.collect call).2.Tidy := by
  have taken : (b.setLatch call (b.latch call).take.2).Tidy :=
    tidy.setLatch fun late => by rw [tidy.unused call late]; rfl
  exact ⟨taken.sorted, taken.unused⟩

theorem Tidy.cancel (tidy : b.Tidy) (call : Nat) : (b.cancel call).2.Tidy :=
  tidy.setLatch fun late => by rw [tidy.unused call late]; rfl

theorem Tidy.register (tidy : b.Tidy) : b.register.2.Tidy := by
  by_cases late : b.shutDown = true
  · rw [register_of_shutDown late]
    exact tidy
  · rw [register_of_open (by simpa using late)]
    refine ⟨Table.sorted_insert tidy.sorted _ _, fun n after => ?_⟩
    have other : n ≠ b.nextCall := by
      rintro rfl
      exact absurd after (Nat.not_succ_le_self _)
    change (b.setLatch b.nextCall .pending).latch n = .taken
    rw [latch_setLatch, if_neg other]
    exact tidy.unused n (Nat.le_of_succ_le after)

theorem handles_deliver (tidy : b.Tidy) (call : Nat) (result : Option Value) :
    (b.deliver call result).2.handles.Perm
      ((if (b.deliver call result).1 then result.elim [] Value.handles else []) ++ b.handles) := by
  have moved := handles_setLatch tidy.sorted call ((b.latch call).complete result).2
  rw [Latch.handles_complete, List.append_assoc] at moved
  exact (List.perm_append_left_iff _).1 (moved.trans (List.perm_append_comm_assoc _ _ _))

theorem handles_collect (tidy : b.Tidy) (call : Nat) :
    ((b.collect call).1.elim [] Value.handles ++ (b.collect call).2.handles).Perm b.handles := by
  have moved := handles_setLatch tidy.sorted call (b.latch call).take.2
  rw [← Latch.handles_take, List.append_assoc] at moved
  exact (List.perm_append_left_iff _).1 ((List.perm_append_comm_assoc _ _ _).trans moved)

theorem handles_cancel (tidy : b.Tidy) (call : Nat) : (b.cancel call).2.handles.Perm b.handles := by
  have moved := handles_setLatch tidy.sorted call (b.latch call).cancel.2
  rw [Latch.handles_cancel] at moved
  exact (List.perm_append_left_iff _).1 moved

/-- A number that was never used has nothing to give up. -/
theorem handles_register (tidy : b.Tidy) : b.register.2.handles.Perm b.handles := by
  by_cases late : b.shutDown = true
  · rw [register_of_shutDown late]
  · rw [register_of_open (by simpa using late)]
    have moved := handles_setLatch tidy.sorted b.nextCall .pending
    rw [tidy.unused _ (Nat.le_refl _)] at moved
    exact moved

/-- Shutdown gives up no result that is already there. -/
theorem destroy_keeps (tidy : b.Tidy) : b.destroy.Tidy ∧ b.destroy.handles.Perm b.handles := by
  by_cases again : b.shutDown = true
  · rw [destroy_of_shutDown again]
    exact ⟨tidy, .refl _⟩
  have keeps (calls : List Nat) {b' : Bridge} (tidy' : b'.Tidy) :
      (b'.cancelAll calls).Tidy ∧ (b'.cancelAll calls).handles.Perm b'.handles := by
    induction calls generalizing b' with
    | nil => exact ⟨tidy', .refl _⟩
    | cons call rest ih =>
      rw [cancelAll_cons]
      obtain ⟨after, same⟩ := ih (tidy'.cancel call)
      exact ⟨after, same.trans (handles_cancel tidy' call)⟩
  rw [destroy_eq (by simpa using again)]
  have closed : b.close.Tidy := ⟨tidy.sorted, tidy.unused⟩
  exact keeps b.pending closed

end Bridge

/-- The references of the host itself. -/
def Host.own (host : Host ρ) : List Handle := global :: host.element.toList

/-- The tables of a registry are in order. -/
structure Registry.Tidy (r : Registry μ) : Prop where
  properties : r.properties.props.Sorted
  methods : r.methods.Sorted

namespace World

/-- The registries in use. -/
def registries (w : World ρ μ) : List (Registry μ) := w.gateway.toList ++ w.object.toList

/-- Every reference that the session holds, once for each holder. -/
def holdings (β : Behaviour ρ μ) (w : World ρ μ) : List Handle :=
  w.host.own ++ w.bridges.flatMap Bridge.handles ++ w.queue.flatMap OutboundCall.handles
    ++ w.registries.flatMap (Registry.handles β)

/-- The heap is sound for what the session holds and for what is owned beside that. -/
structure Accounted (β : Behaviour ρ μ) (gone : Handle → Prop) (w : World ρ μ)
    (owned : List Handle) : Prop where
  heap : w.host.heap.Sound gone (w.holdings β ++ owned)
  bridges : ∀ b ∈ w.bridges, b.Tidy
  registries : ∀ r ∈ w.registries, r.Tidy

namespace Accounted

variable {β : Behaviour ρ μ} {gone : Handle → Prop} {w : World ρ μ} {owned owned' : List Handle}

theorem perm (accounted : w.Accounted β gone owned) (perm : owned.Perm owned') :
    w.Accounted β gone owned' :=
  { accounted with heap := accounted.heap.perm (perm.append_left _) }

theorem live (accounted : w.Accounted β gone owned) {h : Handle} (inside : h ∈ owned) :
    gone h ∨ ∃ e, w.host.heap.objects.find? h = some e :=
  accounted.heap.live_of_mem (List.mem_append_right _ (List.mem_append_right _ inside))

/-- Only the host and the record of what was entered change. -/
theorem withHost (accounted : w.Accounted β gone owned) {host : Host ρ} {entered : List Handle}
    (element : host.element = w.host.element)
    (sound : host.heap.Sound gone (w.holdings β ++ owned')) :
    ({ w with host := host, entered := entered } : World ρ μ).Accounted β gone owned' where
  heap := by
    have own : host.own = w.host.own := by rw [Host.own, element, Host.own]
    simp only [holdings, World.registries, own] at sound ⊢
    exact sound
  bridges := accounted.bridges
  registries := accounted.registries

theorem entered (accounted : w.Accounted β gone owned) (entered : List Handle) :
    ({ w with entered := entered } : World ρ μ).Accounted β gone owned :=
  ⟨accounted.heap, accounted.bridges, accounted.registries⟩

theorem released {hs : List Handle} (accounted : w.Accounted β gone (hs ++ owned)) :
    (w.released hs).Accounted β gone owned :=
  accounted.withHost rfl (accounted.heap.perm (List.perm_append_comm_assoc _ _ _)).releaseAll

theorem retained (accounted : w.Accounted β gone owned) {hs : List Handle}
    (live : ∀ h ∈ hs, gone h ∨ ∃ e, w.host.heap.objects.find? h = some e) :
    (w.withHeap (w.host.heap.retainAll hs)).Accounted β gone (hs ++ owned) :=
  accounted.withHost rfl ((accounted.heap.retainAll live).perm (List.perm_append_comm_assoc _ _ _))

theorem flatMap_set_perm {α γ : Type} (f : α → List γ) {items : List α} {n : Nat} {old : α}
    (found : items[n]? = some old) (new : α) :
    (f old ++ (items.set n new).flatMap f).Perm (f new ++ items.flatMap f) := by
  induction items generalizing n with
  | nil => cases found
  | cons item rest ih =>
    cases n with
    | zero =>
      cases found
      simp only [List.set_cons_zero, List.flatMap_cons]
      exact List.perm_append_comm_assoc _ _ _
    | succ n =>
      simp only [List.set_cons_succ, List.flatMap_cons]
      refine (List.perm_append_comm_assoc _ _ _).trans ?_
      exact ((ih found).append_left _).trans (List.perm_append_comm_assoc _ _ _)

/-- A bridge changes, and moves references between its latches and an owner. -/
theorem withBridge (accounted : w.Accounted β gone owned) {number : Nat} {b : Bridge}
    (known : number < w.bridges.length) (tidy : b.Tidy)
    (moved : (b.handles ++ owned').Perm ((w.bridge number).handles ++ owned)) :
    (w.withBridge number b).Accounted β gone owned' where
  heap := by
    apply accounted.heap.congr
    intro h
    have found : w.bridges[number]? = some (w.bridge number) := by
      simp [World.bridge, known]
    have others := (flatMap_set_perm Bridge.handles found b).count_eq h
    have here := moved.count_eq h
    simp only [holdings, World.registries, World.withBridge, List.count_append] at others here ⊢
    omega
  bridges := by
    intro b' inside
    rcases List.mem_or_eq_of_mem_set inside with there | rfl
    · exact accounted.bridges b' there
    · exact tidy
  registries := accounted.registries

/-- A bridge changes without giving up anything. -/
theorem keptBridge (accounted : w.Accounted β gone owned) {number : Nat} {b : Bridge} (tidy : b.Tidy)
    (same : b.handles.Perm (w.bridge number).handles) : (w.withBridge number b).Accounted β gone owned := by
  by_cases known : number < w.bridges.length
  · exact accounted.withBridge known tidy (same.append_right _)
  · rw [World.withBridge, List.set_eq_of_length_le (Nat.le_of_not_lt known)]
    exact accounted

/-- References move between the calls in the queue and an owner. -/
theorem withQueue (accounted : w.Accounted β gone owned) {queue : List OutboundCall}
    (moved : (queue.flatMap OutboundCall.handles ++ owned').Perm
      (w.queue.flatMap OutboundCall.handles ++ owned)) :
    ({ w with queue := queue } : World ρ μ).Accounted β gone owned' where
  heap := by
    apply accounted.heap.congr
    intro h
    have here := moved.count_eq h
    simp only [holdings, World.registries, List.count_append] at here ⊢
    omega
  bridges := accounted.bridges
  registries := accounted.registries

theorem tidy_bridge (accounted : w.Accounted β gone owned) (number : Nat) : (w.bridge number).Tidy := by
  by_cases known : number < w.bridges.length
  · have is : w.bridge number = w.bridges[number] := by simp [World.bridge, known]
    rw [is]
    exact accounted.bridges _ (List.getElem_mem known)
  · have is : w.bridge number = Bridge.start false := by simp [World.bridge, known]
    rw [is]
    exact Bridge.tidy_start false

end Accounted

end World

/-- A session that starts on a host is accounted for if the host is. -/
theorem Ledger.Balanced.accounted_start {β : Behaviour ρ μ} {gone : Handle → Prop} {s : Ledger ρ}
    (balanced : s.Balanced gone) (marshalsExceptions : Bool) :
    (World.start s.host marshalsExceptions).Accounted β gone
      (s.raws ++ s.natives.flatMap Raw.handles ++ s.values.flatMap Value.handles) where
  heap := by
    apply balanced.heap.congr
    intro h
    simp [World.holdings, World.registries, World.start, Ledger.owned, Ledger.own, Host.own,
      Bridge.handles, Bridge.start, Table.values, Table.empty]
  bridges b inside := by
    rw [List.mem_singleton.1 inside]
    exact Bridge.tidy_start _
  registries _ inside := nomatch inside

end ScriptBoundary
