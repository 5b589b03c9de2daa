import ScriptBoundary.Proofs.Call.Agreement

/-!
Nobody waits in vain. The host thread never gets stuck: whatever it is in the middle of, it can get on
with the innermost call until that one is gone, so every call that waits can still be signalled.
-/

namespace ScriptBoundary

/-- How much a call has still before it. -/
def Stage.rank : Stage → Nat
  | .fresh => 6
  | .executing => 5
  | .failed _ => 4
  | .computed _ => 3
  | .ended => 2
  | .returning => 1

theorem Stage.rank_pos (stage : Stage) : 1 ≤ stage.rank := by
  cases stage <;> exact Nat.le_add_left 1 _

theorem Stage.isLive_of_inHost {stage : Stage} (inside : stage.inHost = true) : stage.isLive = true := by
  cases stage <;> first | rfl | cases inside

namespace Traffic

variable {s t : Traffic} {e : Event} {trace : List Event} {marshalsExceptions : Bool}

/-- What the host thread has still before it. -/
def load (s : Traffic) : Nat := s.frames.foldr (fun f load => f.stage.rank + load) 0

/-- Only the innermost call is not in host code, and in a panic not even that one. -/
structure Stacked (s : Traffic) : Prop where
  below : ∀ f ∈ s.frames.tail, f.stage.inHost = true
  panicking : s.panicking = true → ∀ f ∈ s.frames, f.stage.inHost = true
  alive : s.alive = false → s.frames = []
  returning : ∀ f ∈ s.frames, f.stage = .returning → s.bridge.latch f.call.number ≠ .pending

theorem stacked_start : (start marshalsExceptions).Stacked where
  below _ inside := nomatch inside
  panicking no := nomatch no
  alive _ := rfl
  returning _ inside := nomatch inside

/-- All calls are in host code while it runs. -/
theorem Stacked.inHost (stacked : s.Stacked) (ready : s.Ready) : ∀ f ∈ s.frames, f.stage.inHost = true := by
  intro f inside
  cases frames : s.frames with
  | nil =>
    rw [frames] at inside
    cases inside
  | cons top rest =>
    rw [frames] at inside
    rcases List.mem_cons.1 inside with rfl | there
    · exact ready.2 f (by rw [frames]; rfl)
    · exact stacked.below f (by rw [frames]; exact there)

/-- A host thread that runs is left alive, with the innermost call anywhere. -/
theorem Stacked.of_runs (runs : t.Runs) (below : ∀ f ∈ t.frames.tail, f.stage.inHost = true)
    (returning : ∀ f ∈ t.frames, f.stage = .returning → t.bridge.latch f.call.number ≠ .pending) :
    t.Stacked where
  below := below
  panicking panicking := by
    rw [runs.2] at panicking
    cases panicking
  alive dead := by
    rw [runs.1] at dead
    cases dead
  returning := returning

theorem Stacked.step (stacked : s.Stacked) (kept : s.Kept trace) (step : Step s e t) : t.Stacked := by
  have still : ∀ f ∈ s.frames, f.stage = .returning → t.bridge.latch f.call.number ≠ .pending := by
    intro f inside returning
    have known : f.call ∈ s.everyone :=
      mem_everyone.2 (.inr (.inr (.inr (List.mem_map_of_mem inside))))
    have issued : s.bridge.Issued f.call.number := kept.issued (kept.registered _ known)
    exact step.move.signalled_of_issued issued (stacked.returning f inside returning)
  have below := stacked.below
  have move := step.move
  cases step with
  | requestInline c _ _ ready | take c _ _ ready =>
    refine .of_runs ready.1 (stacked.inHost ready) fun f inside returning => ?_
    rcases List.mem_cons.1 inside with rfl | there
    · cases returning
    · exact still f there returning
  | advance runs top advance =>
    rw [top] at below still
    refine .of_runs runs below fun f inside returning => ?_
    rcases List.mem_cons.1 inside with rfl | there
    · cases advance <;> cases returning
    · exact still f (List.mem_cons_of_mem _ there) returning
  | complete runs top =>
    rw [top] at below still
    refine .of_runs runs below fun f inside returning => ?_
    rcases List.mem_cons.1 inside with rfl | there
    · cases returning
    · exact still f (List.mem_cons_of_mem _ there) returning
  | @finish c inline rest runs top =>
    rw [top] at below still
    refine .of_runs runs ?_ fun f inside returning => ?_
    · cases inline with
      | false => exact fun f inside => below f (List.mem_of_mem_tail inside)
      | true => exact below
    · rcases List.mem_append.1 inside with here | there
      · cases inline with
        | false => cases here
        | true =>
          obtain rfl := List.mem_singleton.1 here
          exact move.signalled_of_delivered
      · exact still f (List.mem_cons_of_mem _ there) returning
  | returnInline runs top =>
    rw [top] at below still
    refine .of_runs runs (fun f inside => below f (List.mem_of_mem_tail inside)) fun f inside => ?_
    exact still f (List.mem_cons_of_mem _ inside)
  | unwind panicking top =>
    have inHost := stacked.panicking panicking
    have alive := stacked.alive
    rw [top] at below still inHost alive
    constructor
    case below =>
      intro f inside
      exact below f (List.mem_of_mem_tail inside)
    case panicking =>
      intro _ f inside
      exact inHost f (List.mem_cons_of_mem _ inside)
    case alive =>
      intro dead
      cases alive dead
    case returning =>
      intro f inside
      exact still f (List.mem_cons_of_mem _ inside)
  | panic ready => exact ⟨below, fun _ => stacked.inHost ready, stacked.alive, still⟩
  | catch_ =>
    refine ⟨below, fun no => ?_, stacked.alive, still⟩
    cases no
  | die idle => exact ⟨below, stacked.panicking, fun _ => idle, still⟩
  | _ => exact ⟨below, stacked.panicking, stacked.alive, still⟩

theorem stacked_of_path (path : Path (start marshalsExceptions) trace s) : s.Stacked := by
  induction path with
  | refl => exact stacked_start
  | next path step ih => exact ih.step (kept_of_path path) step

/-- Whatever the innermost call is at, the host thread gets on with it. -/
theorem Stacked.gets_on (stacked : s.Stacked) (free : s.Free) {f : Frame} {rest : List Frame}
    (top : s.frames = f :: rest) : ∃ e t, Step s e t ∧ t.Free ∧ t.load < s.load := by
  obtain ⟨c, inline, stage⟩ := f
  have rank := stage.rank_pos
  have load : s.load = stage.rank + rest.foldr (fun f load => f.stage.rank + load) 0 := by
    unfold Traffic.load
    rw [top, List.foldr_cons]
  cases panicking : s.panicking with
  | true =>
    have inHost := stacked.panicking panicking _ (top ▸ List.mem_cons_self)
    refine ⟨_, _, .unwind panicking top (Stage.isLive_of_inHost inHost), free, ?_⟩
    rw [load]
    exact Nat.lt_add_of_pos_left rank
  | false =>
    have alive : s.alive = true := by
      cases dead : s.alive with
      | true => rfl
      | false =>
        have none_ := stacked.alive dead
        rw [top] at none_
        cases none_
    have runs : s.Runs := ⟨alive, panicking⟩
    have less {bridge : Bridge} {stage' : Stage} (lower : stage'.rank < stage.rank) :
        ({ s with bridge := bridge, frames := ⟨c, inline, stage'⟩ :: rest } : Traffic).load < s.load := by
      rw [load]
      unfold Traffic.load
      rw [List.foldr_cons]
      exact Nat.add_lt_add_right lower _
    cases stage with
    | fresh =>
      cases valid : s.bridge.isCancelled c.number with
      | true => exact ⟨_, _, .advance runs top (.skip valid), free, less (by decide)⟩
      | false => exact ⟨_, _, .advance runs top (.enter valid), free, less (by decide)⟩
    | executing => exact ⟨_, _, .advance runs top (.compute .void), free, less (by decide)⟩
    | failed failure =>
      cases on : s.bridge.marshalsExceptions with
      | true => exact ⟨_, _, .advance runs top (.raise failure on), free, less (by simp [Stage.rank])⟩
      | false => exact ⟨_, _, .advance runs top (.pass failure on), free, less (by simp [Stage.rank])⟩
    | computed result => exact ⟨_, _, .complete runs top, free, less (by simp [Stage.rank])⟩
    | ended =>
      refine ⟨_, _, .finish runs top, free, ?_⟩
      rw [load]
      cases inline <;> simp [Traffic.load, remains, Stage.rank]
    | returning =>
      have signalled := stacked.returning _ (top ▸ List.mem_cons_self) rfl
      refine ⟨_, _, .returnInline runs top free signalled, free, ?_⟩
      rw [load]
      exact Nat.lt_add_of_pos_left rank

/-- While shutdown cancels latches, the bridge is closed and has none left. -/
theorem drained_of_path (path : Path (start marshalsExceptions) trace s) :
    s.sweep ≠ none → s.bridge.shutDown = true ∧ s.bridge.pending = [] := by
  induction path with
  | refl => exact fun sweeps => absurd rfl sweeps
  | next path step ih =>
    intro sweeps
    have move := step.move
    cases step with
    | shutDown free first => exact ⟨rfl, rfl⟩
    | cancel call rest calls sweeps' next =>
      have before := ih (by simp [sweeps'])
      exact move.shutDown_of_shutDown before.1 before.2
    | swept done => exact absurd rfl sweeps
    | _ =>
      have before := ih sweeps
      exact move.shutDown_of_shutDown before.1 before.2

/-- While the mutex is free, a call that waits comes to its signal: a task is dropped, or the host
thread gets on with what it is in the middle of. -/
theorem signalled_of_free (path : Path (start marshalsExceptions) trace s) (free : s.Free) {call : Nat}
    (pending : s.bridge.latch call = .pending) :
    ∃ later t, Path s later t ∧ t.bridge.latch call ≠ .pending := by
  induction load : s.load using Nat.strongRecOn generalizing s trace with
  | _ n ih =>
    subst load
    have kept := kept_of_path path
    obtain ⟨c, inside, rfl⟩ := List.mem_map.1 (kept.custody.held call pending)
    unfold live at inside
    rcases List.mem_append.1 inside with there | running
    · rcases List.mem_append.1 there with hand | queue
      · obtain ⟨before, after, parts⟩ := List.append_of_mem hand
        have step : Step s _ _ := .reject c (before ++ after) (parts ▸ List.perm_middle)
        exact ⟨_, _, .single step, step.move.signalled_of_delivered⟩
      · obtain ⟨before, after, parts⟩ := List.append_of_mem queue
        have step : Step s _ _ := .drop c (before ++ after) (parts ▸ List.perm_middle)
        exact ⟨_, _, .single step, step.move.signalled_of_delivered⟩
    · cases frames : s.frames with
      | nil =>
        rw [frames] at running
        cases running
      | cons top rest =>
        obtain ⟨e, t, step, free', less⟩ := (stacked_of_path path).gets_on free frames
        by_cases waits : t.bridge.latch c.number = .pending
        · obtain ⟨later, u, after, signalled⟩ := ih _ less (path.next step) free' waits rfl
          exact ⟨e :: later, u, .cons step after, signalled⟩
        · exact ⟨_, t, .single step, waits⟩

/-- Every call that waits can still be signalled. -/
theorem can_be_signalled (path : Path (start marshalsExceptions) trace s) {call : Nat}
    (pending : s.bridge.latch call = .pending) :
    ∃ later t, Path s later t ∧ t.bridge.latch call ≠ .pending := by
  by_cases free : s.Free
  · exact signalled_of_free path free pending
  · obtain ⟨_, empty⟩ := drained_of_path path free
    rcases covered_of_path path call pending with inside | ⟨calls, sweeps, inside⟩
    · rw [empty] at inside
      cases inside
    · obtain ⟨before, after, rfl⟩ := List.append_of_mem inside
      refine ⟨_, _, .single (.cancel call (before ++ after) _ sweeps List.perm_middle), ?_⟩
      rw [Bridge.latch_cancel, if_pos rfl]
      exact Latch.cancel_signals _

/-- Nobody waits on a latch that nobody will signal, in whatever order callers, the host thread and
shutdown take their steps, and whether or not tasks are dropped or calls panic. What runs a call on the
host thread signals its latch, and so does what drops it unrun. -/
theorem nobody_waits_in_vain {ρ μ : Type} (β : Behaviour ρ μ) {marshalsExceptions : Bool}
    (path : Path (start marshalsExceptions) trace s) :
    Accounted trace s ∧
      (∀ call, s.bridge.latch call = .pending →
        ∃ later t, Path s later t ∧ t.bridge.latch call ≠ .pending) ∧
      ∀ (c : OutboundCall) (w : World ρ μ),
        (((c.perform β).outcome w).2.bridge c.bridge).latch c.number ≠ .pending ∧
        (w.hostGone = true ∨ w.host.failures.dropsTasks = true →
          (((WorldM.dispatch c).run w).2.bridge c.bridge).latch c.number ≠ .pending) :=
  ⟨accounted_of_kept (kept_of_path path), fun _ => can_be_signalled path,
    fun c w => ⟨c.signalled_perform w β, c.signalled_dispatch w⟩⟩

/-- A panic in a call that was made inside another one: the inner latch is signalled on the way out,
and the outer one still waits for the one call that will signal it. -/
theorem nobody_waits_in_vain_of_nested_panic :
    ∃ trace s, Path (start false) trace s ∧ s.bridge.latch 2 = .done none ∧
      s.bridge.latch 1 = .pending ∧ (s.live.map OutboundCall.number).count 1 = 1 ∧
      trace.countP (Event.signals 2) = 1 := by
  let outer : OutboundCall := ⟨0, 1, .name "f", []⟩
  let inner : OutboundCall := ⟨0, 2, .name "g", []⟩
  have called := (Path.single (.request (s := start false) outer rfl rfl)).next
    (.dispatch outer [] (.refl _))
  have entered := (called.next (.take outer [] (.refl _) ⟨⟨rfl, rfl⟩, fun _ is => nomatch is⟩)).next
    (.advance ⟨rfl, rfl⟩ rfl (.enter rfl))
  have nested := (entered.next (.requestInline inner rfl rfl ⟨⟨rfl, rfl⟩, fun f is => by
    cases is
    rfl⟩)).next (.advance ⟨rfl, rfl⟩ rfl (.enter rfl))
  have unwound := (nested.next (.panic ⟨⟨rfl, rfl⟩, fun f is => by
    cases is
    rfl⟩)).next (.unwind rfl rfl rfl)
  let β : Behaviour Unit Unit := ⟨fun _ _ => pure none, fun _ _ _ _ => pure .unhandled, fun _ => []⟩
  have account := (nobody_waits_in_vain β unwound).1
  exact ⟨_, _, unwound, rfl, rfl, (account.live 1 rfl).2, account.once inner (by simp [inner])⟩

end Traffic

end ScriptBoundary
