import ScriptBoundary.Proofs.Call.Chain
import ScriptBoundary.Proofs.World.Honest

/-!
The parts of an outbound call keep account: its registration, its execution, the offer of its result,
its end, and the collection of the result.
-/

namespace ScriptBoundary

variable {ρ μ : Type} {β : Behaviour ρ μ} {R : World ρ μ → World ρ μ → Prop} {lent : List Handle}

theorem fair_callEvaluated (course : Course R) (honest : Honest β R) (target : Handle) {args : List Raw}
    (lends : args.flatMap Raw.handles ⊆ lent) :
    Run.Fair β R lent [target] (callEvaluated β target args) Raw.handles := by
  have called : Run.Fair β R lent [target] (Run.guarding [target] (Run.invokeDefault β target args))
      fun answer => answer.elim [] Raw.handles ++ [target] :=
    Run.fair_guarding course ((Run.fair_invokeDefault course honest target args).lend
      (List.subset_append_of_subset_right [target] lends))
  refine called.bind course fun answer => ?_
  cases answer with
  | none => exact Run.fair_pure course (.refl _)
  | some raw =>
    have given : Run.Fair β R lent (raw.handles ++ [target]) (Run.releaseAll [target]) fun _ => raw.handles :=
      (Run.fair_releaseAll course [target]).perm List.perm_append_comm fun _ => .refl _
    exact given.bind course fun _ => Run.fair_pure course (.refl _)

/-- Resolving a call borrows the arguments and hands out one reference with the result. -/
theorem fair_resolve (course : Course R) (honest : Honest β R) (id : HostId) (script : String)
    (args : List Raw) : Run.Fair β R (args.flatMap Raw.handles) [] (resolve β id script args)
      (Run.handed Raw.handles) := by
  unfold resolve
  refine (Run.fair_onHost course Host.fair_globalObject (List.nil_subset _)).bind course fun global? => ?_
  cases global? with
  | none => exact Run.fair_pure course (.refl _)
  | some global =>
    have lends : args.flatMap Raw.handles ⊆ [global] ++ args.flatMap Raw.handles :=
      List.subset_append_right _ _
    refine Run.fair_holding course ?_
    refine ((Run.fair_invoke course honest global id args).lend lends).bind course fun answer => ?_
    cases answer with
    | some raw => exact Run.fair_pure course (.refl _)
    | none =>
      refine (Run.fair_onHost course (Host.fair_evaluate global script) (List.nil_subset _)).bind course
        fun value => ?_
      cases value with
      | none => exact Run.fair_pure course (.refl _)
      | some raw =>
        cases raw with
        | scalar s => exact Run.fair_pure course (.refl _)
        | object target =>
          exact (fair_callEvaluated course honest target lends).bind course
            fun _ => Run.fair_pure course (.refl _)

namespace OutboundCall

variable {c : OutboundCall}

/-- Executing a call borrows what it owns and hands out the references of its result. -/
theorem fair_execute (course : Course R) (honest : Honest β R) (c : OutboundCall) :
    Run.Fair β R c.handles [] (c.execute β) (Run.handed Value.handles) := by
  refine Marshal.fair_withWritten course honest (fun raws => ?_) (fun _ inside => inside)
  refine (Run.fair_onHost course (Host.fair_idOf c.id) (List.nil_subset _)).bind course fun id => ?_
  have resolves := (fair_resolve course honest id c.id.expression raws).lend
    (List.subset_append_left _ c.handles)
  refine resolves.bind course fun answer => ?_
  cases answer with
  | error e => exact Run.fair_pure course (.refl _)
  | ok raw =>
    have read : Run.Fair β R (raws.flatMap Raw.handles ++ c.handles) raw.handles
        (Run.onHost (Marshal.read raw)) fun v => v.handles ++ raw.handles :=
      (Run.fair_onHost course (Host.fair_read raw) (List.nil_subset _)).perm
        (.of_eq (List.append_nil _).symm) fun v => .of_eq (List.append_nil _)
    refine read.bind course fun v => ?_
    have given : Run.Fair β R (raws.flatMap Raw.handles ++ c.handles) (v.handles ++ raw.handles)
        (Run.releaseAll raw.handles) fun _ => v.handles :=
      (Run.fair_releaseAll course raw.handles).perm List.perm_append_comm fun _ => .refl _
    exact given.bind course fun _ => Run.fair_pure course (.refl _)

/-! ## The latch -/

/-- The latch of a call. One that no bridge knows has nothing in it. -/
def latch (c : OutboundCall) (w : World ρ μ) : Latch := (w.bridge c.bridge).latch c.number

variable {w w' : World ρ μ}

theorem latch_of_bridges (same : w'.bridges = w.bridges) : c.latch w' = c.latch w := by
  simp only [latch, World.bridge, same]

theorem latch_withBridge (b : Bridge)
    (unknown : w.bridges.length ≤ c.bridge → b.latch c.number = .taken) :
    c.latch (w.withBridge c.bridge b) = b.latch c.number := by
  by_cases known : c.bridge < w.bridges.length
  · rw [latch, World.bridge_withBridge w known]
  · have beyond := Nat.le_of_not_lt known
    rw [latch, World.bridge_withBridge_of_unknown w beyond, unknown beyond]
    rfl

theorem latch_of_unknown (unknown : w.bridges.length ≤ c.bridge) :
    (w.bridge c.bridge).latch c.number = .taken := by
  have is : w.bridge c.bridge = Bridge.start false := by simp [World.bridge, unknown]
  rw [is]
  rfl

theorem latch_deliver (w : World ρ μ) (c : OutboundCall) (result : Option Value) :
    c.latch ((c.deliver result).run w).2 = ((c.latch w).complete result).2 := by
  have offered : c.latch (w.withBridge c.bridge ((w.bridge c.bridge).deliver c.number result).2)
      = ((c.latch w).complete result).2 := by
    have after := Bridge.latch_deliver (w.bridge c.bridge) c.number result c.number
    rw [if_pos rfl] at after
    rw [latch_withBridge _ fun unknown => ?_, after, latch]
    rw [after, latch_of_unknown unknown]
    rfl
  rw [run_deliver]
  by_cases accepted : ((w.bridge c.bridge).deliver c.number result).1 = true
  · simp only [accepted, if_true]
    exact offered
  · simp only [accepted]
    exact offered

theorem latch_finish (w : World ρ μ) (c : OutboundCall) :
    c.latch (c.finish.run w).2 = ((c.latch w).complete none).2 := by
  rw [run_finish, ← latch_deliver, run_deliver_none]
  rfl

theorem latch_collect (w : World ρ μ) (c : OutboundCall) :
    c.latch ((WorldM.collect c).run w).2 = (c.latch w).take.2 := by
  change c.latch (w.withBridge c.bridge ((w.bridge c.bridge).collect c.number).2) = _
  have after := Bridge.latch_collect (w.bridge c.bridge) c.number c.number
  rw [if_pos rfl] at after
  rw [latch_withBridge _ fun unknown => ?_, after, latch]
  rw [after, latch_of_unknown unknown]
  rfl

end OutboundCall

/-! ## Registration -/

theorem WorldM.run_request (number : Nat) (id : Identifier) (args : List Value) (w : World ρ μ) :
    (request number id args).run w =
      let w' := w.withBridge number (w.bridge number).register.2
      match (w.bridge number).register.1 with
      | none => (none, w')
      | some call => (some ⟨number, call, id, args⟩, w'.retained (args.flatMap Value.handles)) := by
  unfold request
  rw [StateT.run_bind]
  change StateT.run (match (w.bridge number).register.1 with | none => _ | some _ => _) _ = _
  cases (w.bridge number).register.1 <;> rfl

theorem OutboundCall.register_of_request {c : OutboundCall} {w w' : World ρ μ}
    (requested : (WorldM.request c.bridge c.id c.args).run w = (some c, w')) :
    (w.bridge c.bridge).register.1 = some c.number ∧
      w'.bridges = (w.withBridge c.bridge (w.bridge c.bridge).register.2).bridges := by
  rw [WorldM.run_request] at requested
  cases granted : (w.bridge c.bridge).register.1 with
  | none =>
    rw [granted] at requested
    cases requested
  | some call =>
    rw [granted] at requested
    obtain ⟨same, rfl⟩ := Prod.mk.inj requested
    rw [← Option.some.inj same]
    exact ⟨rfl, rfl⟩

/-! ## Accounts -/

namespace World.Accounted

variable {gone : Handle → Prop} {w : World ρ μ} {owned : List Handle} {c : OutboundCall}

/-- A result goes into the latch, or is discarded. -/
theorem deliver {result : Option Value}
    (accounted : w.Accounted β gone (result.elim [] Value.handles ++ owned)) :
    ((c.deliver result).run w).2.Accounted β gone owned := by
  have tidy := accounted.tidy_bridge c.bridge
  have moved := Bridge.handles_deliver tidy c.number result
  rw [OutboundCall.run_deliver]
  by_cases accepted : ((w.bridge c.bridge).deliver c.number result).1 = true
  · simp only [accepted, if_true] at moved ⊢
    have known : c.bridge < w.bridges.length := by
      by_contra unknown
      rw [Bridge.deliver_fst, OutboundCall.latch_of_unknown (Nat.le_of_not_lt unknown)] at accepted
      cases accepted
    refine accounted.withBridge known (tidy.deliver c.number result) ?_
    refine (moved.append_right _).trans ?_
    rw [List.append_assoc]
    exact List.perm_append_comm_assoc _ _ _
  · simp only [accepted] at moved ⊢
    exact World.Accounted.released (accounted.keptBridge (tidy.deliver c.number result) moved)

theorem finish (accounted : w.Accounted β gone (c.handles ++ owned)) :
    (c.finish.run w).2.Accounted β gone owned := by
  have nothing : w.Accounted β gone ((none : Option Value).elim [] Value.handles ++ (c.handles ++ owned)) :=
    accounted
  have offered : ((c.deliver none).run w).2.Accounted β gone (c.handles ++ owned) := nothing.deliver
  rw [OutboundCall.run_deliver_none] at offered
  rw [OutboundCall.run_finish]
  exact offered.released

theorem collect (accounted : w.Accounted β gone owned) (c : OutboundCall) :
    ((WorldM.collect c).run w).2.Accounted β gone
      (((WorldM.collect c).run w).1.elim [] Value.handles ++ owned) := by
  have tidy := accounted.tidy_bridge c.bridge
  have moved := Bridge.handles_collect tidy c.number
  change (w.withBridge c.bridge ((w.bridge c.bridge).collect c.number).2).Accounted β gone
    (((w.bridge c.bridge).collect c.number).1.elim [] Value.handles ++ owned)
  by_cases known : c.bridge < w.bridges.length
  · refine accounted.withBridge known (tidy.collect c.number) ?_
    rw [← List.append_assoc]
    exact (List.perm_append_comm.trans moved).append_right _
  · have nothing : ((w.bridge c.bridge).collect c.number).1 = none := by
      rw [Bridge.collect, OutboundCall.latch_of_unknown (Nat.le_of_not_lt known)]
      rfl
    rw [nothing, World.withBridge, List.set_eq_of_length_le (Nat.le_of_not_lt known)]
    exact accounted

theorem destroy (accounted : w.Accounted β gone owned) (number : Nat) :
    ((WorldM.destroyBridge number).run w).2.Accounted β gone owned := by
  have tidy := accounted.tidy_bridge number
  obtain ⟨after, same⟩ := Bridge.destroy_keeps tidy
  exact accounted.keptBridge after same

/-- A call that is registered owns copies of its arguments; its caller keeps its own. -/
theorem request {number : Nat} {id : Identifier} {args : List Value}
    (accounted : w.Accounted β gone owned) (lends : args.flatMap Value.handles ⊆ owned) :
    ((WorldM.request number id args).run w).2.Accounted β gone
      (((WorldM.request number id args).run w).1.elim [] OutboundCall.handles ++ owned) := by
  have tidy := accounted.tidy_bridge number
  have registered : (w.withBridge number (w.bridge number).register.2).Accounted β gone owned :=
    accounted.keptBridge tidy.register (Bridge.handles_register tidy)
  rw [WorldM.run_request]
  cases (w.bridge number).register.1 with
  | none => exact registered
  | some call => exact registered.retained fun h inside => registered.live (lends inside)

end World.Accounted

/-! ## Whole calls -/

section

variable {rest : List Handle}

variable (honest : Honest β Anything)

include honest

end

end ScriptBoundary
