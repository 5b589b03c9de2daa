import ScriptBoundary.Proofs.Call.Settling
import ScriptBoundary.Proofs.Identifier

/-!
The life of one outbound call among everybody else: from its registration until the call itself has
ended and its caller has dropped what it got. Others may do anything in between that keeps account, and
shutdown may begin at any time: before the call runs, while host code runs, or before its result is
offered.
-/

namespace ScriptBoundary

variable {ρ μ : Type}

/-- How far a call has come. -/
inductive Phase where
  /-- Somebody owns the call, and it was not run. -/
  | held
  | queued
  /-- It was run, and its result is still to be offered. -/
  | computed (result : Option Value)
  | panicked
  | offered
  | ended
  /-- The call ended without having offered a result of its own. -/
  | unanswered

inductive Caller where
  | waiting
  | answered (result : Option Value)
  /-- The caller has dropped what it got. -/
  | done

namespace Phase

/-- The references that the call owns, apart from those that the session holds for it. -/
def handles (c : OutboundCall) : Phase → List Handle
  | .held | .panicked | .offered => c.handles
  | .computed result => result.elim [] Value.handles ++ c.handles
  | .queued | .ended | .unanswered => []

/-- The call has not yet told its caller anything. -/
def isOpen : Phase → Bool
  | .held | .queued | .computed _ | .panicked => true
  | .offered | .ended | .unanswered => false

end Phase

def Caller.handles : Caller → List Handle
  | .answered result => result.elim [] Value.handles
  | .waiting | .done => []

namespace OutboundCall

variable {c : OutboundCall} {w w' w'' : World ρ μ}

/-- Nothing happens to the latch, except that shutdown cancels it. -/
def Spares (c : OutboundCall) (w w' : World ρ μ) : Prop :=
  c.latch w' = c.latch w ∨ c.latch w = .pending ∧ c.latch w' = .cancelled

/-- Host code leaves it to the call that it runs for to signal the latch; shutdown may do so as well. -/
structure Undisturbed (c : OutboundCall) (w w' : World ρ μ) : Prop where
  pending : c.latch w = .pending → c.latch w' = .pending ∨ c.latch w' = .cancelled
  cancelled : c.latch w = .cancelled → c.latch w' = .cancelled

theorem course_undisturbed (c : OutboundCall) : Course (c.Undisturbed : World ρ μ → World ρ μ → Prop) where
  quiet w w' quiet := by
    have same := latch_of_bridges (c := c) quiet.bridges
    exact ⟨fun pending => .inl (same.trans pending), fun cancelled => same.trans cancelled⟩
  trans w w' w'' first second := by
    refine ⟨fun pending => ?_, fun cancelled => second.cancelled (first.cancelled cancelled)⟩
    rcases first.pending pending with still | cancelled
    · exact second.pending still
    · exact .inr (second.cancelled cancelled)

theorem spares_destroy (c : OutboundCall) (w : World ρ μ) (number : Nat) :
    c.Spares w ((WorldM.destroyBridge number).run w).2 := by
  change c.Spares w (w.withBridge number (w.bridge number).destroy)
  by_cases other : c.bridge = number
  · subst other
    have destroyed := Bridge.latch_destroy (w.bridge c.bridge) c.number
    unfold Spares
    rw [latch_withBridge _ fun unknown => ?_]
    · exact destroyed
    · rw [latch_of_unknown unknown] at destroyed
      rcases destroyed with same | ⟨pending, _⟩
      · exact same
      · cases pending
  · left
    simp only [latch, World.bridge, World.withBridge, List.getD_eq_getElem?_getD]
    rw [List.getElem?_set_ne (Ne.symm other)]

end OutboundCall

/-- A call, its caller, and the session around them. -/
structure Life (ρ μ : Type) where
  world : World ρ μ
  /-- What everybody else owns. -/
  others : List Handle
  phase : Phase
  caller : Caller

namespace Life

def owned (c : OutboundCall) (s : Life ρ μ) : List Handle :=
  s.phase.handles c ++ s.caller.handles ++ s.others

/-- Nobody will do anything for the call any more. A caller on the host thread goes down with a panic,
so that nobody is left to collect. -/
def Over (s : Life ρ μ) : Prop := s.phase = .unanswered ∨ s.phase = .ended ∧ s.caller = .done

/-- What happens to a call, one thing after another. -/
inductive Step (β : Behaviour ρ μ) (c : OutboundCall) : Life ρ μ → Life ρ μ → Prop where
  | elsewhere {s} (w : World ρ μ) (others : List Handle)
      (keeps : ∀ gone mine, s.world.Accounted β gone (mine ++ s.others) →
        w.Accounted β gone (mine ++ others))
      (spares : c.Spares s.world w) : Step β c s { s with world := w, others := others }
  | shutDown {s} (number : Nat) :
      Step β c s { s with world := ((WorldM.destroyBridge number).run s.world).2 }
  | dispatch {s} (held : s.phase = .held) :
      Step β c s { s with world := { s.world with queue := s.world.queue ++ [c] }, phase := .queued }
  | take {s} (queued : s.phase = .queued) (queue : List OutboundCall)
      (among : s.world.queue.Perm (c :: queue)) :
      Step β c s { s with world := { s.world with queue := queue }, phase := .held }
  | compute {s} {v : Value} {w : World ρ μ} (held : s.phase = .held)
      (valid : (s.world.bridge c.bridge).isCancelled c.number = false)
      (ran : (c.execute β).outcome s.world = (.ok (.ok v), w)) :
      Step β c s { s with world := w, phase := .computed (some v) }
  | fail {s} {e : ResolveError} {w : World ρ μ} (held : s.phase = .held)
      (valid : (s.world.bridge c.bridge).isCancelled c.number = false)
      (ran : (c.execute β).outcome s.world = (.ok (.error e), w)) :
      Step β c s
        { s with world := c.reported (s.world.bridge c.bridge) e w, phase := .computed none }
  | panic {s} {fault : Fault} {w : World ρ μ} (held : s.phase = .held)
      (valid : (s.world.bridge c.bridge).isCancelled c.number = false)
      (ran : (c.execute β).outcome s.world = (.error fault, w)) :
      Step β c s { s with world := w, phase := .panicked }
  | offer {s} {result : Option Value} (computed : s.phase = .computed result) :
      Step β c s { s with world := ((c.deliver result).run s.world).2, phase := .offered }
  | finish {s} (offered : s.phase = .offered) :
      Step β c s { s with world := (c.finish.run s.world).2, phase := .ended }
  /-- The end of a call that panicked, was skipped because it was cancelled, or was lost on the way. -/
  | drop {s} (unheard : s.phase = .held ∨ s.phase = .panicked) :
      Step β c s { s with world := (c.finish.run s.world).2, phase := .unanswered }
  | collect {s} (waits : s.caller = .waiting) (signalled : c.latch s.world ≠ .pending) :
      Step β c s
        { s with
          world := ((WorldM.collect c).run s.world).2
          caller := .answered ((WorldM.collect c).run s.world).1 }
  | discard {s} {result : Option Value} (answered : s.caller = .answered result) :
      Step β c s { s with world := s.world.released (result.elim [] Value.handles), caller := .done }

/-- What a call that was requested in a session can come to. Its caller and others own `owned` besides. -/
inductive Reachable (β : Behaviour ρ μ) (c : OutboundCall) (w : World ρ μ) (owned : List Handle) :
    Life ρ μ → Prop where
  | start {w'} (requested : (WorldM.request c.bridge c.id c.args).run w = (some c, w')) :
      Reachable β c w owned ⟨w', owned, .held, .waiting⟩
  | next {s t} : Reachable β c w owned s → Step β c s t → Reachable β c w owned t

/-! ## Accounts -/

variable {β : Behaviour ρ μ} {c : OutboundCall} {gone : Handle → Prop} {s t : Life ρ μ}

theorem accounted_reported {w : World ρ μ} {owned : List Handle} (accounted : w.Accounted β gone owned)
    (b : Bridge) (e : ResolveError) : (c.reported b e w).Accounted β gone owned := by
  unfold OutboundCall.reported
  split
  · exact accounted.withHost rfl (accounted.heap.of_eq rfl rfl rfl)
  · exact accounted

theorem Step.accounted (honest : Honest β c.Undisturbed) (step : Step β c s t)
    (accounted : s.world.Accounted β gone (s.owned c)) : t.world.Accounted β gone (t.owned c) := by
  obtain ⟨w, others, phase, caller⟩ := s
  have executed {w' : World ρ μ} {result : Except Fault (Except ResolveError Value)}
      (accounted : w.Accounted β gone (c.handles ++ caller.handles ++ others))
      (ran : (c.execute β).outcome w = (result, w')) :
      w'.Accounted β gone (Run.handed (Run.handed Value.handles) result
        ++ (c.handles ++ caller.handles ++ others)) := by
    have after := (OutboundCall.fair_execute c.course_undisturbed honest c gone w
      (c.handles ++ caller.handles ++ others) (fun h inside => by simp [inside]) accounted).2
    rwa [show (c.execute β).run.run w = (result, w') from ran] at after
  cases step with
  | elsewhere w' others' keeps _ =>
    exact keeps gone (phase.handles c ++ caller.handles) accounted
  | shutDown number => exact accounted.destroy number
  | dispatch held =>
    cases held
    refine accounted.withQueue ?_
    simp only [owned, Phase.handles, List.flatMap_append, List.flatMap_singleton]
    simp
  | take queued queue among =>
    cases queued
    refine accounted.withQueue ?_
    have moved := (among.flatMap_right OutboundCall.handles).symm.append_right
      (caller.handles ++ others)
    simp only [owned, Phase.handles, List.flatMap_cons, List.nil_append, List.append_assoc] at moved ⊢
    exact (List.perm_append_comm_assoc _ _ _).trans moved
  | compute held _ ran =>
    cases held
    exact (executed accounted ran).perm (by simp [owned, Phase.handles, Run.handed])
  | fail held _ ran =>
    cases held
    exact accounted_reported (executed accounted ran) _ _
  | panic held _ ran =>
    cases held
    exact executed accounted ran
  | offer computed =>
    cases computed
    refine World.Accounted.deliver (accounted.perm ?_)
    simp [owned, Phase.handles]
  | finish offered =>
    cases offered
    exact World.Accounted.finish (accounted.perm (by simp [owned, Phase.handles]))
  | drop unheard =>
    refine World.Accounted.finish (accounted.perm ?_)
    rcases unheard with held | panicked
    · cases held
      simp [owned, Phase.handles]
    · cases panicked
      simp [owned, Phase.handles]
  | collect waits _ =>
    cases waits
    refine (accounted.collect c).perm ?_
    simp only [owned, Caller.handles, List.append_nil, ← List.append_assoc]
    exact List.perm_append_comm.append_right _
  | discard answered =>
    cases answered
    refine World.Accounted.released (accounted.perm ?_)
    simp only [owned, Caller.handles, List.append_nil, List.append_assoc]
    exact List.perm_append_comm_assoc _ _ _

/-! ## The latch -/

/-- What the latch of a call tells of it. -/
structure Latched (c : OutboundCall) (s : Life ρ μ) : Prop where
  opened : s.phase.isOpen = true → c.latch s.world = .pending ∨ c.latch s.world = .cancelled
  closed : s.phase.isOpen = false → c.latch s.world ≠ .pending
  /-- Nothing is left once the caller has come for it. -/
  collected : s.caller ≠ .waiting → c.latch s.world ≠ .pending ∧ (c.latch s.world).handles = []
  /-- A caller who comes for a result before there is one gets none. -/
  early : s.phase.isOpen = true ∨ s.phase = .unanswered → s.caller.handles = []
  unanswered : s.phase = .unanswered → (c.latch s.world).handles = []

theorem Latched.spared (latched : s.Latched c) {w : World ρ μ} (spares : c.Spares s.world w)
    (others : List Handle) : ({ s with world := w, others := others } : Life ρ μ).Latched c := by
  rcases spares with same | ⟨pending, cancelled⟩
  · constructor
    case opened => simpa only [same] using latched.opened
    case closed => simpa only [same] using latched.closed
    case collected => simpa only [same] using latched.collected
    case early => exact latched.early
    case unanswered => simpa only [same] using latched.unanswered
  · have nothing : c.latch w ≠ .pending ∧ (c.latch w).handles = [] := by simp [cancelled, Latch.handles]
    exact ⟨fun _ => .inr cancelled, fun _ => nothing.1, fun _ => nothing, latched.early, fun _ => nothing.2⟩

/-- The call gets on, without a signal to its caller. -/
theorem Latched.unsignalled (latched : s.Latched c) {w : World ρ μ} {phase : Phase}
    (was : s.phase.isOpen = true) (is : phase.isOpen = true) (undisturbed : c.Undisturbed s.world w) :
    ({ s with world := w, phase := phase } : Life ρ μ).Latched c := by
  have still : c.latch w = .pending ∨ c.latch w = .cancelled := by
    rcases latched.opened was with pending | cancelled
    · exact undisturbed.pending pending
    · exact .inr (undisturbed.cancelled cancelled)
  constructor
  case opened => exact fun _ => still
  case closed => simp [is]
  case collected =>
    intro came
    rcases latched.opened was with pending | cancelled
    · exact absurd pending (latched.collected came).1
    · simp [undisturbed.cancelled cancelled, Latch.handles]
  case early => exact fun _ => latched.early (.inl was)
  case unanswered =>
    rintro rfl
    cases is

/-- The call signals its latch, which takes up the result if it is still pending. -/
theorem Latched.signalled (latched : s.Latched c) {w : World ρ μ} {phase : Phase} {result : Option Value}
    (completed : c.latch w = ((c.latch s.world).complete result).2) (is : phase.isOpen = false)
    (nothing : phase = .unanswered → s.phase.isOpen = true ∧ result = none) :
    ({ s with world := w, phase := phase } : Life ρ μ).Latched c := by
  constructor
  case opened => simp [is]
  case closed =>
    intro _
    rw [completed]
    exact Latch.complete_signals _ _
  case collected =>
    intro came
    obtain ⟨signalled, empty⟩ := latched.collected came
    have same : c.latch w = c.latch s.world := by
      rw [completed]
      cases was : c.latch s.world <;> first | rfl | exact absurd was signalled
    rw [same]
    exact ⟨signalled, empty⟩
  case early =>
    rintro (other | rfl)
    · simp [is] at other
    · exact latched.early (.inl (nothing rfl).1)
  case unanswered =>
    rintro rfl
    obtain ⟨was, rfl⟩ := nothing rfl
    rw [completed]
    rcases latched.opened was with pending | cancelled
    · rw [pending]
      rfl
    · rw [cancelled]
      rfl

theorem Step.latched (honest : Honest β c.Undisturbed) (step : Step β c s t)
    (accounted : s.world.Accounted β gone (s.owned c)) (latched : s.Latched c) : t.Latched c := by
  have executed {w : World ρ μ} {result : Except Fault (Except ResolveError Value)}
      (held : s.phase = .held) (ran : (c.execute β).outcome s.world = (result, w)) :
      c.Undisturbed s.world w := by
    have after := (OutboundCall.fair_execute c.course_undisturbed honest c gone s.world (s.owned c)
      (fun h inside => by simp [owned, held, Phase.handles, inside]) accounted).1
    rwa [show (c.execute β).run.run s.world = (result, w) from ran] at after
  have wasHeld (held : s.phase = .held) : s.phase.isOpen = true := by rw [held]; rfl
  cases step with
  | elsewhere w others _ spares => exact latched.spared spares others
  | shutDown number => exact latched.spared (c.spares_destroy s.world number) s.others
  | dispatch held =>
    exact latched.unsignalled (wasHeld held) rfl (c.course_undisturbed.quiet _ _ ⟨rfl, rfl, .refl _⟩)
  | take queued queue =>
    exact latched.unsignalled (by rw [queued]; rfl) rfl (c.course_undisturbed.quiet _ _ ⟨rfl, rfl, .refl _⟩)
  | compute held _ ran | panic held _ ran => exact latched.unsignalled (wasHeld held) rfl (executed held ran)
  | fail held _ ran =>
    refine latched.unsignalled (wasHeld held) rfl (c.course_undisturbed.trans _ _ _ (executed held ran) ?_)
    refine c.course_undisturbed.quiet _ _ ?_
    unfold OutboundCall.reported
    split
    · exact ⟨rfl, rfl, .refl _⟩
    · exact .refl _
  | offer computed =>
    exact latched.signalled (OutboundCall.latch_deliver _ _ _) rfl fun other => by cases other
  | finish offered =>
    exact latched.signalled (OutboundCall.latch_finish _ _) rfl fun other => by cases other
  | drop unheard =>
    refine latched.signalled (OutboundCall.latch_finish _ _) rfl fun _ => ⟨?_, rfl⟩
    rcases unheard with held | panicked
    · exact wasHeld held
    · rw [panicked]
      rfl
  | collect waits signalled =>
    have after := OutboundCall.latch_collect s.world c
    have nothing : c.latch ((WorldM.collect c).run s.world).2 ≠ .pending ∧
        (c.latch ((WorldM.collect c).run s.world).2).handles = [] := by
      rw [after]
      cases is : c.latch s.world <;> simp_all [Latch.take, Latch.handles]
    have got : ((WorldM.collect c).run s.world).1 = (c.latch s.world).take.1 := rfl
    constructor
    case opened =>
      intro opened
      rcases latched.opened opened with pending | cancelled
      · exact absurd pending signalled
      · rw [after, cancelled]
        exact .inr rfl
    case closed => exact fun _ => nothing.1
    case collected => exact fun _ => nothing
    case early =>
      intro early
      have empty : (c.latch s.world).handles = [] := by
        rcases early with opened | unanswered
        · rcases latched.opened opened with pending | cancelled
          · exact absurd pending signalled
          · rw [cancelled]
            rfl
        · exact latched.unanswered unanswered
      have parted := Latch.handles_take (c.latch s.world)
      rw [empty, List.append_eq_nil_iff] at parted
      exact parted.1
    case unanswered => exact fun _ => nothing.2
  | discard answered =>
    constructor
    case opened => exact latched.opened
    case closed => exact latched.closed
    case collected => exact fun _ => latched.collected (by rw [answered]; intro is; cases is)
    case early => exact fun _ => rfl
    case unanswered => exact latched.unanswered

/-! ## Whole lives -/

variable {w : World ρ μ} {owned : List Handle}

theorem latched_start {w' : World ρ μ} (known : c.bridge < w.bridges.length)
    (requested : (WorldM.request c.bridge c.id c.args).run w = (some c, w')) :
    (⟨w', owned, .held, .waiting⟩ : Life ρ μ).Latched c := by
  obtain ⟨granted, became⟩ := OutboundCall.register_of_request requested
  have pending : c.latch w' = .pending := by
    rw [OutboundCall.latch_of_bridges became, OutboundCall.latch, World.bridge_withBridge w known,
      Bridge.latch_register granted, if_pos rfl]
  constructor
  case opened => exact fun _ => .inl pending
  case closed => exact fun other => by cases other
  case collected => exact fun came => absurd rfl came
  case early => exact fun _ => rfl
  case unanswered => exact fun other => by cases other

/-- What is true at every moment of the life of a call. -/
theorem kept_of_reachable (honest : Honest β c.Undisturbed) (known : c.bridge < w.bridges.length)
    (accounted : w.Accounted β gone owned) (lends : c.handles ⊆ owned)
    (reached : Reachable β c w owned s) : s.world.Accounted β gone (s.owned c) ∧ s.Latched c := by
  induction reached with
  | start requested =>
    have registered : ((WorldM.request c.bridge c.id c.args).run w).2.Accounted β gone
        (((WorldM.request c.bridge c.id c.args).run w).1.elim [] OutboundCall.handles ++ owned) :=
      accounted.request lends
    rw [requested] at registered
    refine ⟨registered.perm ?_, latched_start known requested⟩
    simp [Life.owned, Phase.handles, Caller.handles]
  | next _ step ih => exact ⟨step.accounted honest ih.1, step.latched honest ih.1 ih.2⟩

/-- When nobody will do anything for a call any more, neither anybody nor its latch holds anything. -/
theorem Latched.ends (latched : s.Latched c) (ends : s.Over) :
    (c.latch s.world).handles = [] ∧ s.owned c = s.others := by
  rcases ends with unanswered | ⟨ended, done⟩
  · refine ⟨latched.unanswered unanswered, ?_⟩
    rw [Life.owned, latched.early (.inr unanswered), unanswered]
    rfl
  · refine ⟨(latched.collected (by rw [done]; intro is; cases is)).2, ?_⟩
    rw [Life.owned, ended, done]
    rfl

/-- To run a call is to go through a part of its life: however it ends, it has ended, and if host code
panicked it has told its caller nothing. -/
theorem Reachable.perform (reached : Reachable β c w owned s) (held : s.phase = .held) :
    ∃ phase, Reachable β c w owned { s with world := ((c.perform β).outcome s.world).2, phase := phase } ∧
      (phase = .unanswered ∨ phase = .ended ∧ ((c.perform β).outcome s.world).1 = .ok ()) := by
  have dropped {t : Life ρ μ} (unheard : t.phase = .held ∨ t.phase = .panicked)
      (reached : Reachable β c w owned t) :
      Reachable β c w owned
        ⟨(c.offered t.world).released c.handles, t.others, .unanswered, t.caller⟩ := by
    have next := reached.next (.drop unheard)
    rwa [OutboundCall.run_finish] at next
  have finished {t : Life ρ μ} (result : Option Value) (computed : t.phase = .computed result)
      (reached : Reachable β c w owned t) :
      Reachable β c w owned ⟨(c.offered ((c.deliver result).run t.world).2).released c.handles,
        t.others, .ended, t.caller⟩ := by
    have offered := reached.next (.offer computed)
    generalize ((c.deliver result).run t.world).2 = w' at offered ⊢
    have next := offered.next (.finish rfl)
    rwa [OutboundCall.run_finish] at next
  rw [OutboundCall.outcome_perform]
  cases cancelled : (s.world.bridge c.bridge).isCancelled c.number with
  | true =>
    rw [OutboundCall.attempt_of_cancelled cancelled]
    exact ⟨.unanswered, dropped (.inl held) reached, .inl rfl⟩
  | false =>
    cases ran : (c.execute β).outcome s.world with
    | mk result w' =>
      cases result with
      | error fault =>
        rw [OutboundCall.attempt_of_panic cancelled ran]
        exact ⟨.unanswered, dropped (.inr rfl) (reached.next (.panic held cancelled ran)), .inl rfl⟩
      | ok answer =>
        cases answer with
        | error e =>
          rw [OutboundCall.attempt_of_failure cancelled ran]
          have through := finished none rfl (reached.next (.fail held cancelled ran))
          exact ⟨.ended, through, .inr ⟨rfl, rfl⟩⟩
        | ok v =>
          rw [OutboundCall.attempt_of_value cancelled ran]
          have through := finished (some v) rfl (reached.next (.compute held cancelled ran))
          exact ⟨.ended, through, .inr ⟨rfl, rfl⟩⟩

/-- What outbound calls come to, and what becomes of the references that they take. -/
structure Settled (β : Behaviour ρ μ) (gone : Handle → Prop) (c : OutboundCall) (w : World ρ μ)
    (owned : List Handle) : Prop where
  /-- Calls are resolved along the chain, which says what is given back on each of its paths. -/
  chain : ∀ id script args (w : World ρ μ) answer w',
    (resolve β id script args).outcome w = (answer, w') ↔ Resolves β id script args w answer w'
  execution : ∀ (w : World ρ μ) result w',
    (c.execute β).outcome w = (result, w') ↔ c.Executes β w result w'
  /-- What stands in the parentheses is the name, or the integer in decimal. -/
  script : c.id.Spells c.id.display
  /-- At every moment all counts are accounted for by what objects and expressions hold, what the
  session holds, and what the call, its caller and others own. -/
  accounted : ∀ s, Reachable β c w owned s → s.world.Accounted β gone (s.owned c)
  /-- In the end nothing is left of the call, in its latch or elsewhere. -/
  ends : ∀ s, Reachable β c w owned s → s.Over →
    s.owned c = s.others ∧ (c.latch s.world).handles = []
  /-- The code that runs a call goes through a part of its life. -/
  performs : ∀ s, Reachable β c w owned s → s.phase = .held → ∃ phase,
    Reachable β c w owned { s with world := ((c.perform β).outcome s.world).2, phase := phase } ∧
      (phase = .unanswered ∨ phase = .ended ∧ ((c.perform β).outcome s.world).1 = .ok ())
  inline : ∀ number id args, Run.Fair β Anything (args.flatMap Value.handles) []
    (Run.callInline β number id args) fun result => result.elim [] Value.handles
  worker : ∀ number id args, WorldM.Fair β Anything (args.flatMap Value.handles) []
    (WorldM.callFromWorker β number id args) fun result => result.elim [] Value.handles

end Life

end ScriptBoundary
