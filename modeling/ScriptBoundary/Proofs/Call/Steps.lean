import ScriptBoundary.Proofs.Call.Conduct
import ScriptBoundary.Proofs.Call.Moves

/-!
The code of calls takes the steps that are told apart here. A request, a dispatch and a collection are
one step each; shutdown and a call on the host thread are several, between which others may take theirs.
-/

namespace ScriptBoundary

variable {ρ μ : Type}

namespace Traffic

variable {s t : Traffic} {w : World ρ μ} {number : Nat} {c : OutboundCall}

/-- The bridge that is used is one of the world. -/
structure Shows (s : Traffic) (w : World ρ μ) (number : Nat) : Prop where
  known : number < w.bridges.length
  bridge : s.bridge = w.bridge number

theorem Shows.withBridge (shows : s.Shows w number) (b : Bridge) {t : Traffic} (same : t.bridge = b) :
    t.Shows (w.withBridge number b) number where
  known := by simpa [World.withBridge] using shows.known
  bridge := same.trans (w.bridge_withBridge shows.known b).symm

theorem Shows.released (shows : s.Shows w number) (hs : List Handle) : s.Shows (w.released hs) number :=
  ⟨shows.known, shows.bridge⟩

/-! ## Shutdown -/

theorem path_cancelAll (calls : List Nat) (b : Bridge) :
    ∃ trace, Path { s with bridge := b, sweep := some calls } trace
      { s with bridge := b.cancelAll calls, sweep := some [] } := by
  induction calls generalizing b with
  | nil => exact ⟨[], .refl _⟩
  | cons call rest ih =>
    obtain ⟨trace, path⟩ := ih (b.cancel call).2
    exact ⟨_, .cons (.cancel call rest (call :: rest) rfl (.refl _)) path⟩

/-- Shutdown, if nobody gets in between. -/
theorem path_destroy (free : s.Free) :
    ∃ trace, Path s trace { s with bridge := s.bridge.destroy } := by
  by_cases late : s.bridge.shutDown = true
  · exact ⟨_, .single (.destroyAgain free late)⟩
  · have first : s.bridge.shutDown = false := by simpa using late
    obtain ⟨trace, path⟩ := path_cancelAll (s := s) s.bridge.pending s.bridge.close
    have through := (Path.cons (.shutDown free first) path).next (.swept rfl)
    rw [← Bridge.destroy_eq first] at through
    have same : { s with bridge := s.bridge.destroy, sweep := none }
        = { s with bridge := s.bridge.destroy } := by
      rw [← free]
    exact ⟨_, same ▸ through⟩

theorem path_destroyBridge (free : s.Free) (shows : s.Shows w number) :
    ∃ trace t, Path s trace t ∧ t.Shows ((WorldM.destroyBridge number).run w).2 number := by
  obtain ⟨trace, path⟩ := path_destroy free
  refine ⟨trace, _, path, shows.withBridge _ ?_⟩
  change s.bridge.destroy = (w.bridge number).destroy
  rw [shows.bridge]

/-! ## Callers -/

/-- A request registers a call with its own identifier and arguments, or is refused. -/
theorem step_request (free : s.Free) (shows : s.Shows w number) (id : Identifier) (args : List Value) :
    (∃ c w', (WorldM.request number id args).run w = (some c, w') ∧ c.bridge = number ∧ c.id = id ∧
      c.args = args ∧ ∃ t, Step s (.registered c) t ∧ t.Shows w' number) ∨
    (WorldM.request number id args).run w = (none, w) ∧ Step s (.refused id args) s := by
  by_cases late : s.bridge.shutDown = true
  · have refused : s.bridge.register.1 = none := by rw [Bridge.register_of_shutDown late]
    exact .inr ⟨WorldM.request_of_shutDown w (shows.bridge ▸ late) id args, .refuse id args free refused⟩
  · have open_ : s.bridge.shutDown = false := by simpa using late
    have granted : s.bridge.register.1 = some s.bridge.nextCall := by rw [Bridge.register_of_open open_]
    let c : OutboundCall := ⟨number, s.bridge.nextCall, id, args⟩
    let registered := w.withBridge number s.bridge.register.2
    have asked : (WorldM.onBridge number Bridge.register : WorldM ρ μ _).run w
        = (some s.bridge.nextCall, registered) := by
      rw [← granted]
      unfold registered
      rw [shows.bridge]
      rfl
    have ran : (WorldM.request number id args).run w
        = (some c, registered.withHeap (registered.host.heap.retainAll c.handles)) := by
      unfold WorldM.request
      rw [StateT.run_bind, asked]
      rfl
    have same : ({ s with bridge := s.bridge.register.2, hand := c :: s.hand } : Traffic).Shows
        registered number := shows.withBridge _ rfl
    exact .inl ⟨c, _, ran, rfl, rfl, rfl, _, .request c free granted, same.known, same.bridge⟩

theorem step_collect (free : s.Free) (shows : s.Shows w c.bridge) {waiting : List OutboundCall}
    (waits : s.waiting.Perm (c :: waiting)) (signalled : s.bridge.latch c.number ≠ .pending) :
    ∃ t, Step s (.returned c ((WorldM.collect c).run w).1) t ∧
      t.Shows ((WorldM.collect c).run w).2 c.bridge := by
  have answer : ((WorldM.collect c).run w).1 = (s.bridge.collect c.number).1 := by
    rw [shows.bridge]
    rfl
  rw [answer]
  refine ⟨_, .return_ c waiting waits free signalled, shows.withBridge _ ?_⟩
  change (s.bridge.collect c.number).2 = ((w.bridge c.bridge).collect c.number).2
  rw [shows.bridge]

/-- A call that is handed over waits in the queue, or ends at once if the host does not take it. -/
theorem step_dispatch (shows : s.Shows w c.bridge) {hand : List OutboundCall}
    (owns : s.hand.Perm (c :: hand)) :
    ∃ e t, Step s e t ∧ t.Shows ((WorldM.dispatch c).run w).2 c.bridge ∧ t.hand = hand ∧
      t.waiting = c :: s.waiting := by
  by_cases lost : w.hostGone = true ∨ w.host.failures.dropsTasks = true
  · refine ⟨_, _, .reject c hand owns, ?_, rfl, rfl⟩
    rw [OutboundCall.run_dispatch_of_lost c w lost]
    refine (shows.withBridge _ ?_).released _
    change (s.bridge.deliver c.number none).2 = _
    rw [shows.bridge]
  · refine ⟨_, _, .dispatch c hand owns, ?_, rfl, rfl⟩
    have queued : (WorldM.dispatch c).run w = ((), { w with queue := w.queue ++ [c] }) := by
      unfold WorldM.dispatch
      rw [StateT.run_bind]
      change StateT.run (if (w.hostGone || w.host.failures.dropsTasks) = true then _ else _) w = _
      rw [if_neg (by simpa using lost)]
      rfl
    rw [queued]
    exact ⟨shows.known, shows.bridge⟩

/-! ## The host thread -/

theorem Shows.deliver (shows : s.Shows w c.bridge) (result : Option Value) :
    (s.deliver c result).Shows ((c.deliver result).run w).2 c.bridge := by
  have delivered := shows.withBridge ((w.bridge c.bridge).deliver c.number result).2
    (t := s.deliver c result) (by rw [Traffic.deliver, shows.bridge])
  rw [OutboundCall.run_deliver]
  cases accepted : ((w.bridge c.bridge).deliver c.number result).1 with
  | true => exact delivered
  | false => exact delivered.released _

theorem Shows.reported (shows : s.Shows w number) (b : Bridge) (e : ResolveError) :
    s.Shows (c.reported b e w) number := by
  unfold OutboundCall.reported
  split <;> exact ⟨shows.known, shows.bridge⟩

section Perform

variable {β : Behaviour ρ μ} {w₁ : World ρ μ} {inline : Bool} {rest : List Frame}

/-- A call that has published its result ends. -/
theorem step_finish (runs : s.Runs) (shows : s.Shows w c.bridge)
    (top : s.frames = ⟨c, inline, .ended⟩ :: rest) :
    ∃ e t, Step s e t ∧ t.Shows (c.finish.run w).2 c.bridge ∧ t.frames = remains c inline ++ rest := by
  refine ⟨_, _, .finish runs top, ?_, rfl⟩
  rw [OutboundCall.run_finish]
  refine (shows.withBridge _ ?_).released _
  change (s.bridge.deliver c.number none).2 = _
  rw [shows.bridge]

/-- A result is published, and the call ends. -/
theorem path_complete (runs : s.Runs) (shows : s.Shows w c.bridge) {result : Option Value}
    (top : s.frames = ⟨c, inline, .computed result⟩ :: rest) :
    ∃ trace t, Path s trace t ∧ t.Shows (c.finish.run ((c.deliver result).run w).2).2 c.bridge ∧
      t.frames = remains c inline ++ rest := by
  have delivered := shows.deliver (c := c) result
  obtain ⟨e, t, last, same, frames⟩ := step_finish
    (s := { s.deliver c result with frames := ⟨c, inline, .ended⟩ :: rest }) runs
    ⟨delivered.known, delivered.bridge⟩ rfl
  exact ⟨_, t, .cons (.complete runs top) (.single last), same, frames⟩

/-- What host code does to the bridge while a call is executed. -/
def Executes (s : Traffic) (c : OutboundCall) (inline : Bool) (rest : List Frame) (w₁ : World ρ μ)
    (ended : Traffic → Prop) : Prop :=
  ∃ trace u, Path { s with frames := ⟨c, inline, .executing⟩ :: rest } trace u ∧ u.Shows w₁ c.bridge ∧
    u.frames = ⟨c, inline, .executing⟩ :: rest ∧ ended u

/-- If host code takes steps while a call is executed, running the call takes steps: up to its end, or
up to where a panic leaves it. -/
theorem path_perform (runs : s.Runs) (shows : s.Shows w c.bridge)
    (top : s.frames = ⟨c, inline, .fresh⟩ :: rest)
    (good : ∀ result w₁, (c.execute β).outcome w = (.ok result, w₁) →
      s.Executes c inline rest w₁ Runs)
    (bad : ∀ fault w₁, (c.execute β).outcome w = (.error fault, w₁) →
      s.Executes c inline rest w₁ fun u => u.panicking = true) :
    ∃ trace t, Path s trace t ∧ t.Shows ((c.perform β).outcome w).2 c.bridge ∧
      t.frames = (match ((c.perform β).outcome w).1 with
        | .ok () => remains c inline ++ rest
        | .error _ => rest) := by
  have perform : (c.perform β).outcome w = (((c.attempt β).outcome w).1,
      (c.finish.run ((c.attempt β).outcome w).2).2) := rfl
  cases valid : (w.bridge c.bridge).isCancelled c.number with
  | true =>
    have skipped : (c.attempt β).outcome w = (.ok (), w) := OutboundCall.attempt_of_cancelled valid
    obtain ⟨e, t, last, same, frames⟩ := step_finish
      (s := { s with frames := ⟨c, inline, .ended⟩ :: rest }) runs ⟨shows.known, shows.bridge⟩ rfl
    have skip : Advance s.bridge c .fresh (.skipped c) .ended := .skip (shows.bridge ▸ valid)
    rw [perform, skipped]
    exact ⟨_, t, .cons (.advance runs top skip) (.single last), same, frames⟩
  | false =>
    have enter : Step s (.entered c) { s with frames := ⟨c, inline, .executing⟩ :: rest } :=
      .advance runs top (.enter (shows.bridge ▸ valid))
    cases ran : (c.execute β).outcome w with
    | mk result w₁ =>
      cases result with
      | error fault =>
        obtain ⟨during, u, path, shows', executing, panicking⟩ := bad fault w₁ ran
        rw [perform, OutboundCall.attempt_of_panic valid ran, OutboundCall.run_finish]
        refine ⟨_, _, (Path.cons enter path).next (.unwind panicking executing rfl), ?_, rfl⟩
        refine (shows'.withBridge _ ?_).released _
        change (u.bridge.deliver c.number none).2 = _
        rw [shows'.bridge]
      | ok result =>
        obtain ⟨during, u, path, shows', executing, runs'⟩ := good result w₁ ran
        cases result with
        | ok v =>
          have compute : Step u (.computed c v) { u with frames := ⟨c, inline, .computed (some v)⟩ :: rest } :=
            .advance runs' executing (.compute v)
          obtain ⟨ending, t, complete, same, frames⟩ := path_complete
            (s := { u with frames := ⟨c, inline, .computed (some v)⟩ :: rest }) runs'
            ⟨shows'.known, shows'.bridge⟩ rfl
          rw [perform, OutboundCall.attempt_of_value valid ran]
          exact ⟨_, t, ((Path.cons enter path).next compute).trans complete, same, frames⟩
        | error e =>
          have failed : Step u (.failed c e) { u with frames := ⟨c, inline, .failed e⟩ :: rest } :=
            .advance runs' executing (.fail e)
          obtain ⟨report, reported⟩ : ∃ event, Advance u.bridge c (.failed e) event (.computed none) := by
            cases on : u.bridge.marshalsExceptions with
            | true => exact ⟨_, .raise e on⟩
            | false => exact ⟨_, .pass e on⟩
          have routed := (Path.single failed).next (.advance runs' rfl reported)
          let told : Traffic := { u with frames := ⟨c, inline, .computed none⟩ :: rest }
          have shown : told.Shows (c.reported (w.bridge c.bridge) e w₁) c.bridge :=
            Shows.reported (s := told) ⟨shows'.known, shows'.bridge⟩ _ e
          obtain ⟨ending, t, complete, same, frames⟩ := path_complete (s := told) runs' shown rfl
          rw [perform, OutboundCall.attempt_of_failure valid ran]
          exact ⟨_, t, ((Path.cons enter path).trans routed).trans complete, same, frames⟩

end Perform

end Traffic

end ScriptBoundary
