import Mathlib.Data.List.Pairwise
import ScriptBoundary.Proofs.Call.Agreement
import ScriptBoundary.Proofs.World.Lasting

/-!
Which calls raise a script exception. The host is told once of every call whose resolution failed, if the
bridge marshals exceptions, and of no other. Whether a call is cancelled matters only before it enters the
host: one that is cancelled while it is executed, and fails after that, is told of as well.
-/

namespace ScriptBoundary

namespace Event

/-- The call whose resolution has come to its end. -/
def resolved? : Event → Option OutboundCall
  | .computed c _ | .failed c _ => some c
  | _ => none

/-- A call whose resolution failed, and how that is told. -/
def failure? : Event → Option (OutboundCall × String)
  | .failed c e => some (c, c.failureText e)
  | _ => none

def exception? : Event → Option (OutboundCall × String)
  | .raised c text => some (c, text)
  | _ => none

def failures (trace : List Event) : List (OutboundCall × String) := trace.filterMap failure?

def exceptions (trace : List Event) : List (OutboundCall × String) := trace.filterMap exception?

/-- Not both are the end of one call's resolution. -/
def Apart (e e' : Event) : Prop :=
  ∀ c, e.resolved? = some c → ∀ d, e'.resolved? = some d → c.number ≠ d.number

instance : Std.Symm Apart := ⟨fun _ _ apart c is d is' => (apart d is' c is).symm⟩

theorem filterMap_concat {α : Type} (f : Event → Option α) (trace : List Event) (e : Event) :
    (trace ++ [e]).filterMap f = trace.filterMap f ++ (f e).toList := by
  rw [List.filterMap_append]
  cases is : f e <;> simp [is]

theorem resolved?_of_failure? {e : Event} {p : OutboundCall × String} (failed : e.failure? = some p) :
    e.resolved? = some p.1 := by
  cases e <;> cases failed
  rfl

end Event

theorem Bridge.Move.marshalsExceptions {b b' : Bridge} {e : Event} (move : Move b e b') :
    b'.marshalsExceptions = b.marshalsExceptions := by
  cases move with
  | register c granted =>
    rw [register_of_open (open_of_granted granted).1]
  | _ => rfl

namespace Stage

/-- The call is still to be resolved. -/
def isUnresolved : Stage → Bool
  | .fresh | .executing => true
  | _ => false

end Stage

/-- The failure that is about to be told. -/
def Frame.failure? (f : Frame) : Option (OutboundCall × String) :=
  match f.stage with
  | .failed e => some (f.call, f.call.failureText e)
  | _ => none

namespace Traffic

variable {s t : Traffic} {e : Event} {trace past later : List Event} {c : OutboundCall} {text : String}
  {marshalsExceptions : Bool}

/-! ## Every call is resolved once -/

/-- Calls whose resolution may still come to its end. -/
def unresolved (s : Traffic) : List OutboundCall :=
  s.hand ++ s.queue ++ (s.frames.filter fun f => f.stage.isUnresolved).map Frame.call

theorem unresolved_tail (f : Frame) (rest : List Frame) (n : Nat) :
    (((rest.filter fun f => f.stage.isUnresolved).map Frame.call).map OutboundCall.number).count n
      ≤ ((((f :: rest).filter fun f => f.stage.isUnresolved).map Frame.call).map OutboundCall.number).count n :=
  ((((List.sublist_cons_self f rest).filter fun f => f.stage.isUnresolved).map Frame.call).map
    OutboundCall.number).count_le n

/-- Only a registration adds to the calls that are unresolved, and a resolution takes its call away. -/
theorem Step.unresolved (step : Step s e t) (n : Nat) :
    ((t.unresolved ++ e.resolved?.toList).map OutboundCall.number).count n
      ≤ ((s.unresolved ++ e.registered?.toList).map OutboundCall.number).count n := by
  unfold Traffic.unresolved
  simp only [List.map_append, List.count_append]
  cases step with
  | request c | requestInline c =>
    simp only [Event.resolved?, Event.registered?, Option.toList_none, Option.toList_some, List.map_cons,
      List.map_nil, List.count_nil, List.count_cons, List.filter_cons, Stage.isUnresolved, if_true]
    omega
  | reject c hand owns | drop c queue owns =>
    have counted := (owns.map OutboundCall.number).count_eq n
    simp only [List.map_cons, List.count_cons] at counted
    simp only [Event.resolved?, Option.toList_none, List.map_nil, List.count_nil, deliver]
    omega
  | dispatch c hand owns | take c queue owns =>
    have counted := (owns.map OutboundCall.number).count_eq n
    simp only [List.map_cons, List.count_cons] at counted
    simp only [Event.resolved?, Option.toList_none, List.map_nil, List.count_nil, List.map_append, List.map_cons,
      List.count_append, List.count_cons, List.filter_cons, Stage.isUnresolved, if_true]
    omega
  | @unwind c inline stage rest _ top =>
    have counted := Traffic.unresolved_tail ⟨c, inline, stage⟩ rest n
    rw [top]
    simp only [Event.resolved?, Option.toList_none, List.map_nil, List.count_nil, deliver]
    omega
  | @returnInline c inline rest _ top =>
    have counted := Traffic.unresolved_tail ⟨c, inline, .returning⟩ rest n
    rw [top]
    simp only [Event.resolved?, Option.toList_none, List.map_nil, List.count_nil, collect]
    omega
  | @finish c inline rest _ top =>
    have none_ : ((remains c inline).filter fun f => f.stage.isUnresolved) = [] := by cases inline <;> rfl
    simp only [top, List.filter_append, none_, deliver]
    exact Nat.le_refl _
  | advance _ top advance =>
    rw [top]
    cases advance <;>
    · simp only [Event.resolved?, Event.registered?, Option.toList_none, Option.toList_some, List.map_cons,
        List.map_nil, List.count_nil, List.count_cons, List.filter_cons, Stage.isUnresolved, if_true,
        Bool.false_eq_true, if_false]
      omega
  | complete _ top =>
    simp only [top, deliver]
    exact Nat.le_refl _
  | _ => exact Nat.le_refl _

theorem unresolved_of_path (path : Path (start marshalsExceptions) trace s) (n : Nat) :
    ((s.unresolved ++ trace.filterMap Event.resolved?).map OutboundCall.number).count n
      ≤ ((Event.calls trace).map OutboundCall.number).count n := by
  induction path with
  | refl => exact Nat.le_refl _
  | next path step ih =>
    have counted := step.unresolved n
    rw [Event.filterMap_concat, Bridge.Numbered.calls_append]
    simp only [List.map_append, List.count_append] at ih counted ⊢
    omega

/-- No call is resolved a second time. -/
theorem resolved_once (path : Path (start marshalsExceptions) trace s) : trace.Pairwise Event.Apart := by
  have resolved : ((trace.filterMap Event.resolved?).map OutboundCall.number).Nodup := by
    apply List.nodup_iff_count_le_one.2
    intro n
    have counted := unresolved_of_path path n
    have single := List.nodup_iff_count_le_one.1 (kept_of_path path).numbered.distinct n
    simp only [List.map_append, List.count_append] at counted
    omega
  exact List.pairwise_filterMap.1 (List.pairwise_map.1 resolved)

/-! ## Every failure is told -/

/-- Failures that are about to be told, the innermost first. -/
def reporting (s : Traffic) : List (OutboundCall × String) := s.frames.filterMap Frame.failure?

/-- A panic gets in between a failure and its exception. -/
inductive Interrupts (s : Traffic) : OutboundCall × String → Traffic → Prop where
  | mk {c : OutboundCall} {inline : Bool} {e : ResolveError} {rest : List Frame} (panicking : s.panicking = true)
      (top : s.frames = ⟨c, inline, .failed e⟩ :: rest) :
      Interrupts s (c, c.failureText e) { s.deliver c none with frames := rest }

/-- In the course of the run, a panic kept the host from being told. -/
def Interrupted (marshalsExceptions : Bool) (trace : List Event) (s : Traffic) (p : OutboundCall × String) : Prop :=
  ∃ past before after later, Path (start marshalsExceptions) past before ∧ before.Interrupts p after ∧
    Path after later s ∧ trace = past ++ .delivered p.1 none (before.bridge.deliver p.1.number none).1 :: later

theorem Interrupted.next {p : OutboundCall × String} (interrupted : Interrupted marshalsExceptions trace s p)
    (step : Step s e t) : Interrupted marshalsExceptions (trace ++ [e]) t p := by
  obtain ⟨past, before, after, later, path, interrupts, rest, rfl⟩ := interrupted
  refine ⟨past, before, after, later ++ [e], path, interrupts, rest.next step, ?_⟩
  rw [List.append_assoc, List.cons_append]

/-- A failure is about to be told until it is, unless a panic interrupts that. -/
theorem Step.reporting (step : Step s e t) (on : s.bridge.marshalsExceptions = true) :
    (∃ p, e = .delivered p.1 none (s.bridge.deliver p.1.number none).1 ∧ s.Interrupts p t ∧
      s.reporting = p :: t.reporting) ∨
      (s.reporting ++ e.failure?.toList).Perm (e.exception?.toList ++ t.reporting) := by
  unfold Traffic.reporting
  cases step with
  | @unwind c inline stage rest panicking top =>
    rw [top]
    cases stage with
    | failed error => exact .inl ⟨_, rfl, .mk panicking top, rfl⟩
    | _ => exact .inr (.of_eq (List.append_nil _))
  | advance _ top advance =>
    refine .inr ?_
    rw [top]
    cases advance with
    | fail error => exact List.perm_append_singleton _ _
    | pass _ off =>
      rw [on] at off
      cases off
    | _ => exact .of_eq (List.append_nil _)
  | @finish c inline rest _ top =>
    refine .inr (.of_eq ?_)
    rw [top]
    cases inline <;> exact List.append_nil _
  | complete _ top | returnInline _ top =>
    refine .inr (.of_eq ?_)
    rw [top]
    exact List.append_nil _
  | _ => exact .inr (.of_eq (List.append_nil _))

theorem marshalsExceptions_of_path (path : Path (start marshalsExceptions) trace s) :
    s.bridge.marshalsExceptions = marshalsExceptions :=
  path.keeps (P := fun s => s.bridge.marshalsExceptions = marshalsExceptions)
    (fun step was => step.move.marshalsExceptions.trans was) rfl

/-- Every failure was told, or is about to be, or a panic has interrupted that. -/
theorem told_of_path (path : Path (start true) trace s) :
    ∃ left, (Event.failures trace).Perm (Event.exceptions trace ++ s.reporting ++ left) ∧
      ∀ p ∈ left, Interrupted true trace s p := by
  induction path with
  | refl => exact ⟨[], .nil, fun _ inside => nomatch inside⟩
  | @next s t past e path step ih =>
    obtain ⟨left, parts, interrupted⟩ := ih
    have still : ∀ p ∈ left, Interrupted true (past ++ [e]) t p := fun p inside => (interrupted p inside).next step
    unfold Event.failures Event.exceptions at parts ⊢
    rw [Event.filterMap_concat, Event.filterMap_concat]
    rcases step.reporting (marshalsExceptions_of_path path) with ⟨p, rfl, interrupts, same⟩ | moved
    · refine ⟨p :: left, ?_, fun q inside => ?_⟩
      · simp only [Event.failure?, Event.exception?, Option.toList_none, List.append_nil]
        rw [same] at parts
        refine parts.trans ?_
        rw [List.append_assoc, List.append_assoc]
        exact List.perm_middle.symm.append_left _
      · rcases List.mem_cons.1 inside with rfl | there
        · exact ⟨past, s, t, [], path, interrupts, .refl t, rfl⟩
        · exact still q there
    · have last := (@List.perm_append_comm _ left e.failure?.toList).append_left
        (past.filterMap Event.exception? ++ s.reporting)
      have told := (moved.append_left (past.filterMap Event.exception?)).append_right left
      refine ⟨left, (parts.append_right _).trans ?_, still⟩
      simp only [List.append_assoc] at last told ⊢
      exact last.trans told

/-! ## Nothing else is told -/

/-- A call whose failure is about to be told was executed and has failed. -/
theorem failed_of_path (path : Path (start marshalsExceptions) trace s) : ∀ f ∈ s.frames, ∀ error,
    f.stage = .failed error → [.registered f.call, .entered f.call, .failed f.call error].Sublist trace := by
  induction path with
  | refl => exact fun _ inside => nomatch inside
  | @next s t past e path step ih =>
    intro f inside error failed
    rcases step.frames f inside with there | fresh | ⟨stage, there, advance⟩ | ended | ended
    · exact (ih f there error failed).trans (List.sublist_append_left _ _)
    · cases fresh.symm.trans failed
    · rw [failed] at advance
      cases advance
      have entered := (evidence_of_path path).frames _ there
      exact entered.append_right [.failed f.call error]
    · cases ended.symm.trans failed
    · cases ended.symm.trans failed

theorem Step.failed_of_raised (step : Step s (.raised c text) t) : s.bridge.marshalsExceptions = true ∧
    ∃ inline error, ⟨c, inline, .failed error⟩ ∈ s.frames ∧ text = c.failureText error := by
  generalize is : Event.raised c text = e at step
  cases step with
  | @advance _ inline _ _ _ _ _ top advance =>
    cases advance with
    | raise error on =>
      cases is
      exact ⟨on, inline, error, top ▸ List.mem_cons_self, rfl⟩
    | _ => cases is
  | _ => cases is

/-- Whatever is told of failed before, and the bridge marshals exceptions. -/
theorem raised_of_path (path : Path (start marshalsExceptions) trace s) (inside : .raised c text ∈ trace) :
    marshalsExceptions = true ∧ ∃ error, text = c.failureText error ∧
      [.registered c, .entered c, .failed c error, .raised c text].Sublist trace := by
  obtain ⟨past, later, rfl⟩ := List.append_of_mem inside
  obtain ⟨before, _, first, step, _⟩ := path.split_cons
  obtain ⟨on, inline, error, top, rfl⟩ := step.failed_of_raised
  rw [marshalsExceptions_of_path first] at on
  have failed := failed_of_path first _ top error rfl
  exact ⟨on, error, rfl, failed.append (List.singleton_sublist.2 List.mem_cons_self)⟩

/-- A call that computed a value has not failed. -/
theorem computed_apart (path : Path (start marshalsExceptions) trace s) {v : Value} {error : ResolveError}
    (computed : .computed c v ∈ trace) : .failed c error ∉ trace := by
  intro failed
  have apart := (resolved_once path).forall computed failed fun same => nomatch same
  exact apart c rfl c rfl rfl

theorem failures_once (path : Path (start marshalsExceptions) trace s) :
    ((Event.failures trace).map fun p => p.1.number).Nodup := by
  apply List.pairwise_map.2
  apply List.pairwise_filterMap.2
  refine (resolved_once path).imp fun apart p is q is' => ?_
  exact apart p.1 (Event.resolved?_of_failure? is) q.1 (Event.resolved?_of_failure? is')

end Traffic

/-! ## The code -/

section Code

variable {ρ μ : Type}

/-- The script exceptions of the host, oldest first. -/
def World.exceptions (w : World ρ μ) : List String := w.host.heap.exceptions

/-- Functions of the host raise none. -/
def Behaviour.Mute (β : Behaviour ρ μ) : Prop := ∀ texts, β.Keeps fun host => host.heap.exceptions = texts

/-- What the host is told once a call was executed. -/
def OutboundCall.told (c : OutboundCall) (b : Bridge) : Except Fault (Except ResolveError Value) → List String
  | .ok (.error e) => if b.marshalsExceptions then [c.failureText e] else []
  | _ => []

/-- The exceptions that come of one call. -/
structure Reports (β : Behaviour ρ μ) (c : OutboundCall) (w : World ρ μ) : Prop where
  /-- The host is not told of a call that is cancelled before it starts. -/
  cancelled : (w.bridge c.bridge).isCancelled c.number = true →
    ((c.perform β).outcome w).2.exceptions = w.exceptions
  /-- Any other call is executed, and the host is told if that fails. -/
  executed : (w.bridge c.bridge).isCancelled c.number = false →
    ((c.perform β).outcome w).2.exceptions = ((c.execute β).outcome w).2.exceptions
      ++ c.told (w.bridge c.bridge) ((c.execute β).outcome w).1
  /-- The execution raises no exception of its own. -/
  quiet : β.Mute → ((c.execute β).outcome w).2.exceptions = w.exceptions
  /-- An error of the resolution is the host's, and is no cancellation. -/
  category : ∀ e, ((c.execute β).outcome w).1 = .ok (.error e) → e.category = .hostCallFailure

@[simp] theorem World.exceptions_released (w : World ρ μ) (hs : List Handle) :
    (w.released hs).exceptions = w.exceptions := Heap.exceptions_releaseAll _ _

namespace OutboundCall

variable {β : Behaviour ρ μ} {c : OutboundCall} {w : World ρ μ}

theorem exceptions_deliver (result : Option Value) :
    ((c.deliver result).run w).2.exceptions = w.exceptions := by
  rw [run_deliver]
  dsimp only
  split
  · rfl
  · exact World.exceptions_released _ _

theorem exceptions_perform :
    ((c.perform β).outcome w).2.exceptions = ((c.attempt β).outcome w).2.exceptions := by
  rw [outcome_perform]
  exact World.exceptions_released _ _

theorem exceptions_reported (b : Bridge) (e : ResolveError) :
    (c.reported b e w).exceptions = w.exceptions ++ c.told b (.ok (.error e)) := by
  unfold reported told
  split
  · rfl
  · exact (List.append_nil _).symm

theorem exceptions_attempt (valid : (w.bridge c.bridge).isCancelled c.number = false) :
    ((c.attempt β).outcome w).2.exceptions = ((c.execute β).outcome w).2.exceptions
      ++ c.told (w.bridge c.bridge) ((c.execute β).outcome w).1 := by
  cases ran : (c.execute β).outcome w with
  | mk result w₁ =>
    cases result with
    | error fault =>
      rw [attempt_of_panic valid ran]
      exact (List.append_nil _).symm
    | ok answer =>
      cases answer with
      | error e => rw [attempt_of_failure valid ran, exceptions_deliver, exceptions_reported]
      | ok v =>
        rw [attempt_of_value valid ran, exceptions_deliver]
        exact (List.append_nil _).symm

end OutboundCall

theorem Resolves.category {β : Behaviour ρ μ} {id : HostId} {script : String} {args : List Raw} {w w' : World ρ μ}
    {e : ResolveError} (resolves : Resolves β id script args w (.ok (.error e)) w') :
    e.category = .hostCallFailure := by
  cases resolves with
  | noGlobal => rfl
  | evaluated _ _ evaluates => cases evaluates <;> rfl

theorem reports (β : Behaviour ρ μ) (c : OutboundCall) (w : World ρ μ) : Reports β c w where
  cancelled early := by rw [OutboundCall.exceptions_perform, OutboundCall.attempt_of_cancelled early]
  executed valid := OutboundCall.exceptions_perform.trans (OutboundCall.exceptions_attempt valid)
  quiet mute := keeps_execute (Host.lasting_exceptions _) (mute _) c w rfl
  category e failed := by
    obtain ⟨result, w₁, executes⟩ := OutboundCall.exists_executes β c w
    rw [executes.outcome] at failed
    cases executes <;> cases failed
    next resolves => exact resolves.category

end Code

namespace Traffic

variable {trace : List Event} {s : Traffic} {marshalsExceptions : Bool}

/-- Which calls the host is told of in a run. -/
structure Routed (marshalsExceptions : Bool) (trace : List Event) (s : Traffic) : Prop where
  /-- A bridge that does not marshal exceptions raises none. -/
  off : marshalsExceptions = false → ∀ c text, .raised c text ∉ trace
  /-- Any other raises one for every failure, unless it has yet to do so or a panic has interrupted that. -/
  told : marshalsExceptions = true → ∃ left,
    (Event.failures trace).Perm (Event.exceptions trace ++ s.reporting ++ left) ∧
      ∀ p ∈ left, Interrupted marshalsExceptions trace s p
  /-- No call fails twice. -/
  once : ((Event.failures trace).map fun p => p.1.number).Nodup
  /-- An exception follows a failure of its own, and tells of that. -/
  failed : ∀ c text, .raised c text ∈ trace → ∃ error, text = c.failureText error ∧
    [.registered c, .entered c, .failed c error, .raised c text].Sublist trace
  /-- None is raised for a call that computed a value. -/
  computed : ∀ c v, .computed c v ∈ trace → ∀ text, .raised c text ∉ trace
  /-- None is raised for a call that was cancelled before it entered the host. -/
  cancelled : ∀ past c later, trace = past ++ .cancelled c.number true :: later → .entered c ∉ past →
    ∀ text, .raised c text ∉ trace
  /-- Where host code does not panic, and has ended, every failure was told of, and nothing else. -/
  quiet : marshalsExceptions = true → .panicked ∉ trace → s.frames = [] →
    (Event.exceptions trace).Perm (Event.failures trace)

/-- A panic is under way only after it began. -/
theorem panicked_of_path (path : Path (start marshalsExceptions) trace s) :
    s.panicking = true → .panicked ∈ trace := by
  induction path with
  | refl => exact nofun
  | next _ step ih =>
    intro panicking
    cases step with
    | panic => exact List.mem_append_right _ (List.mem_singleton_self _)
    | catch_ => cases panicking
    | _ => exact List.mem_append_left _ (ih panicking)

theorem Interrupted.panicked {p : OutboundCall × String} (interrupted : Interrupted marshalsExceptions trace s p) :
    .panicked ∈ trace := by
  obtain ⟨past, before, after, later, path, interrupts, _, rfl⟩ := interrupted
  cases interrupts with
  | mk panicking => exact List.mem_append_left _ (panicked_of_path path panicking)

theorem cancelled_routed {past later : List Event} {c : OutboundCall} {text : String}
    (path : Path (start marshalsExceptions) (past ++ .cancelled c.number true :: later) s)
    (early : .entered c ∉ past) : .raised c text ∉ past ++ .cancelled c.number true :: later := by
  intro raised
  obtain ⟨_, error, _, behind⟩ := raised_of_path path raised
  have entered : .entered c ∈ past ++ .cancelled c.number true :: later := behind.subset (by simp)
  rcases List.mem_append.1 entered with before | after
  · exact early before
  · exact skipped_agreed path ((List.mem_cons.1 after).resolve_left nofun)

theorem routed_of_path (path : Path (start marshalsExceptions) trace s) :
    Routed marshalsExceptions trace s := by
  have told : marshalsExceptions = true → ∃ left,
      (Event.failures trace).Perm (Event.exceptions trace ++ s.reporting ++ left) ∧
        ∀ p ∈ left, Interrupted marshalsExceptions trace s p := by
    rintro rfl
    exact told_of_path path
  constructor
  case off =>
    rintro rfl c text raised
    cases (raised_of_path path raised).1
  case told => exact told
  case once => exact failures_once path
  case failed => exact fun c text raised => (raised_of_path path raised).2
  case computed =>
    intro c v computed text raised
    obtain ⟨_, error, _, behind⟩ := raised_of_path path raised
    have failed : .failed c error ∈ trace := behind.subset (by simp)
    exact computed_apart path computed failed
  case cancelled =>
    rintro past c later rfl early text
    exact cancelled_routed path early
  case quiet =>
    intro on calm idle
    obtain ⟨left, parts, interrupted⟩ := told on
    have nothing : left = [] := List.eq_nil_iff_forall_not_mem.2 fun p inside => calm (interrupted p inside).panicked
    rw [nothing, reporting, idle, List.filterMap_nil, List.append_nil, List.append_nil] at parts
    exact parts.symm

/-- A call that enters the host and whose resolution then fails is told of exactly once if the bridge
marshals exceptions, whether or not it has been cancelled meanwhile. No other call is told of. -/
theorem exceptions_routed {ρ μ : Type} (β : Behaviour ρ μ) (path : Path (start marshalsExceptions) trace s) :
    Routed marshalsExceptions trace s ∧ ∀ (c : OutboundCall) (w : World ρ μ), Reports β c w :=
  ⟨routed_of_path path, reports β⟩

/-- A host function shuts the bridge down, and the resolution of its call fails after that. -/
theorem late_failure : let c : OutboundCall := ⟨0, 1, .name "f", []⟩
    ∃ s, Path (start true) [.registered c, .entered c, .shutDown [1], .cancelled 1 true, .swept,
      .failed c (.evaluate "(f)"), .raised c (c.failureText (.evaluate "(f)")), .delivered c none false,
      .delivered c none false, .returned c none] s ∧ s.frames = [] := by
  intro c
  let running (latch : Latch) (pending : List Nat) (shutDown : Bool) (stage : Stage) : Traffic :=
    ⟨⟨⟨[(1, latch)]⟩, pending, 2, shutDown, true⟩, [], [], [], [⟨c, true, stage⟩], true, false, none⟩
  have entered : Path (start true) [.registered c, .entered c] (running .pending [1] false .executing) :=
    (Path.single (.requestInline (s := start true) c rfl rfl ⟨⟨rfl, rfl⟩, fun _ is => nomatch is⟩)).next
      (.advance ⟨rfl, rfl⟩ rfl (.enter rfl))
  have cancelled : Path (running .pending [1] false .executing) [.shutDown [1], .cancelled 1 true, .swept]
      (running .cancelled [] true .executing) :=
    ((Path.single (.shutDown (s := running .pending [1] false .executing) rfl rfl)).next
      (.cancel 1 [] [1] rfl (.refl _))).next (.swept rfl)
  have raised : Path (running .cancelled [] true .executing)
      [.failed c (.evaluate "(f)"), .raised c (c.failureText (.evaluate "(f)"))]
      (running .cancelled [] true (.computed none)) :=
    (Path.single (.advance ⟨rfl, rfl⟩ rfl (.fail _))).next (.advance ⟨rfl, rfl⟩ rfl (.raise _ rfl))
  have ended : Path (running .cancelled [] true (.computed none))
      [.delivered c none false, .delivered c none false, .returned c none] _ :=
    ((Path.single (.complete ⟨rfl, rfl⟩ rfl)).next (.finish ⟨rfl, rfl⟩ rfl)).next
      (.returnInline ⟨rfl, rfl⟩ rfl rfl fun pending => nomatch pending)
  exact ⟨_, entered.trans (cancelled.trans (raised.trans ended)), rfl⟩

theorem exceptions_routed_of_late_failure : let c : OutboundCall := ⟨0, 1, .name "f", []⟩
    ∃ trace s, Path (start true) trace s ∧ .cancelled c.number true ∈ trace ∧ .panicked ∉ trace ∧ s.frames = [] ∧
      (Event.exceptions trace).Perm [(c, c.failureText (.evaluate "(f)"))] := by
  intro c
  obtain ⟨s, path, idle⟩ := late_failure
  let β : Behaviour Unit Unit := ⟨fun _ _ => pure none, fun _ _ _ _ => pure .unhandled, fun _ => []⟩
  have routed := (exceptions_routed β path).1
  exact ⟨_, s, path, by simp [c], by simp, idle, routed.quiet rfl (by simp) idle⟩

/-- So a call that shutdown has cancelled may be told of, if it had entered the host by then. -/
theorem cancelled_call_raises : ¬ ∀ trace s, Path (start true) trace s → ∀ (c : OutboundCall) text,
    .cancelled c.number true ∈ trace → .raised c text ∉ trace := by
  intro never
  obtain ⟨s, path, _⟩ := late_failure
  let c : OutboundCall := ⟨0, 1, .name "f", []⟩
  exact never _ s path c (c.failureText (.evaluate "(f)")) (by simp [c]) (by simp [c])

end Traffic

end ScriptBoundary
