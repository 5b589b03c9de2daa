import ScriptBoundary.Proofs.Call.Conduct
import ScriptBoundary.Proofs.Call.Custody

/-!
Results and shutdown agree. What a call returns was computed by the call itself and accepted by its
latch in time. A latch that shutdown cancels stays cancelled, its call returns nothing, and if the
call was not entered it never is. Shutdown cancels one latch after another, and a result may get to a
latch first; after shutdown has begun, nothing is registered any more.
-/

namespace ScriptBoundary

namespace Bridge.Move

variable {b b' : Bridge} {e : Event} {call : Nat}

theorem turn_of_issued (move : Move b e b') (issued : b.Issued call) :
    Latch.Turn call (b.latch call) e (b'.latch call) := move.turn fun unissued => absurd issued unissued

theorem signalled_of_issued (move : Move b e b') (issued : b.Issued call)
    (left : b.latch call ≠ .pending) : b'.latch call ≠ .pending :=
  (move.turn_of_issued issued).signalled (fun _ => move.old_of_issued issued) left

theorem issued_of_issued (move : Move b e b') (issued : b.Issued call) : b'.Issued call :=
  move.issued (Nat.le_trans issued.1 (Nat.le_of_lt issued.2)) issued

theorem shutDown_of_shutDown (move : Move b e b') (late : b.shutDown = true) (empty : b.pending = []) :
    b'.shutDown = true ∧ b'.pending = [] := by
  cases move with
  | register c granted =>
    rw [(open_of_granted granted).1] at late
    cases late
  | collect c _ =>
    refine ⟨late, ?_⟩
    change b.pending.erase c.number = []
    rw [empty]
    rfl
  | close => exact ⟨rfl, rfl⟩
  | _ => exact ⟨late, empty⟩

theorem pending_of_registered {c : OutboundCall} (move : Move b (.registered c) b') :
    b'.pending = b.pending ++ [c.number] := by
  cases move with
  | register _ granted =>
    obtain ⟨open_, number⟩ := open_of_granted granted
    rw [register_of_open open_, number]
  | quiet quiet => cases quiet

theorem cancelled_of_event {accepted : Bool} (move : Move b (.cancelled call accepted) b') :
    b' = (b.cancel call).2 ∧ accepted = (b.cancel call).1 := by
  generalize is : Event.cancelled call accepted = e at move
  cases move with
  | cancel other =>
    cases is
    exact ⟨rfl, rfl⟩
  | quiet quiet =>
    subst is
    cases quiet
  | _ => cases is

theorem shutDown_of_event {calls : List Nat} (move : Move b (.shutDown calls) b') :
    b.shutDown = false ∧ b' = b.close ∧ calls = b.pending := by
  generalize is : Event.shutDown calls = e at move
  cases move with
  | close first =>
    cases is
    exact ⟨first, rfl, rfl⟩
  | quiet quiet =>
    subst is
    cases quiet
  | _ => cases is

theorem done_of_returned {c : OutboundCall} {v : Value} (move : Move b (.returned c (some v)) b') :
    b.latch c.number = .done (some v) ∧ b'.latch c.number = .taken := by
  generalize is : Event.returned c (some v) = e at move
  cases move with
  | collect other signalled =>
    obtain ⟨rfl, answer⟩ := Event.returned.inj is
    have done : b.latch c.number = .done (some v) := Latch.eq_done_of_take answer.symm
    refine ⟨done, ?_⟩
    rw [latch_collect, if_pos rfl, done]
    rfl
  | quiet quiet =>
    subst is
    cases quiet
  | _ => cases is

end Bridge.Move

/-! ## Where results come from -/

/-- What has happened to a call by the time it stands where it stands. -/
def Frame.evidence (f : Frame) : List Event :=
  match f.stage with
  | .executing | .failed _ => [.registered f.call, .entered f.call]
  | .computed (some v) => [.registered f.call, .entered f.call, .computed f.call v]
  | _ => [.registered f.call]

namespace Traffic

variable {s t u : Traffic} {e : Event} {trace past later : List Event} {c : OutboundCall} {v : Value}
  {call : Nat} {marshalsExceptions : Bool}

/-- Every result lies behind a computation of its own. -/
structure Evidence (trace : List Event) (s : Traffic) : Prop where
  frames : ∀ f ∈ s.frames, f.evidence.Sublist trace
  latches : ∀ n v, s.bridge.latch n = .done (some v) → ∃ c : OutboundCall, c.number = n ∧
    [.registered c, .entered c, .computed c v, .delivered c (some v) true].Sublist trace

theorem Step.computed_of_delivered {accepted : Bool} (step : Step s (.delivered c (some v) accepted) t) :
    ∃ inline, ⟨c, inline, .computed (some v)⟩ ∈ s.frames := by
  generalize is : Event.delivered c (some v) accepted = e at step
  cases step with
  | @complete c' inline result rest _ top =>
    cases is
    exact ⟨inline, top ▸ List.mem_cons_self⟩
  | advance _ _ advance =>
    subst is
    cases advance
  | _ => cases is

theorem Step.open_of_entered (step : Step s (.entered c) t) :
    s.bridge.isCancelled c.number = false := by
  generalize is : Event.entered c = e at step
  cases step with
  | advance _ _ advance =>
    cases advance with
    | enter valid =>
      cases is
      exact valid
    | _ => cases is
  | _ => cases is

namespace Evidence

/-- A call that gets on leaves a trace. -/
theorem advance {b : Bridge} {inline : Bool} {stage stage' : Stage}
    (before : (Frame.mk c inline stage).evidence.Sublist trace) (step : Advance b c stage e stage') :
    (Frame.mk c inline stage').evidence.Sublist (trace ++ [e]) := by
  have old {events : List Event} (inside : events.Sublist trace) : events.Sublist (trace ++ [e]) :=
    inside.trans (List.sublist_append_left _ _)
  have next {events : List Event} (inside : events.Sublist trace) :
      (events ++ [e]).Sublist (trace ++ [e]) := inside.append_right [e]
  cases step with
  | enter => exact next before
  | skip => exact old before
  | compute => exact next before
  | fail => exact old before
  | raise | pass =>
    exact old ((List.sublist_append_left [Event.registered c] [.entered c]).trans before)

theorem registered {f : Frame} (inside : f.evidence.Sublist trace) :
    [Event.registered f.call].Sublist trace := by
  refine List.Sublist.trans ?_ inside
  unfold Frame.evidence
  split <;> simp

theorem frames_step (evidence : Evidence trace s) (known : ∀ c ∈ s.everyone, .registered c ∈ trace)
    (step : Step s e t) : ∀ f ∈ t.frames, f.evidence.Sublist (trace ++ [e]) := by
  have old {events : List Event} (inside : events.Sublist trace) : events.Sublist (trace ++ [e]) :=
    inside.trans (List.sublist_append_left _ _)
  have frames := evidence.frames
  intro f inside
  cases step with
  | requestInline c =>
    rcases List.mem_cons.1 inside with rfl | there
    · exact List.sublist_append_right _ _
    · exact old (frames f there)
  | take c queue owns =>
    rcases List.mem_cons.1 inside with rfl | there
    · have here : c ∈ s.everyone := mem_everyone.2 (.inr (.inl (owns.mem_iff.2 List.mem_cons_self)))
      exact old (List.singleton_sublist.2 (known c here))
    · exact old (frames f there)
  | advance _ top advance =>
    rw [top] at frames
    rcases List.mem_cons.1 inside with rfl | there
    · exact Evidence.advance (frames _ List.mem_cons_self) advance
    · exact old (frames f (List.mem_cons_of_mem _ there))
  | complete _ top =>
    rw [top] at frames
    rcases List.mem_cons.1 inside with rfl | there
    · have first := registered (frames _ List.mem_cons_self)
      exact old first
    · exact old (frames f (List.mem_cons_of_mem _ there))
  | @finish c inline rest _ top =>
    rw [top] at frames
    rcases List.mem_append.1 inside with here | there
    · cases inline with
      | false => cases here
      | true =>
        obtain rfl := List.mem_singleton.1 here
        have first := registered (frames _ List.mem_cons_self)
        exact old first
    · exact old (frames f (List.mem_cons_of_mem _ there))
  | unwind _ top | returnInline _ top =>
    rw [top] at frames
    exact old (frames f (List.mem_cons_of_mem _ inside))
  | _ => exact old (frames f inside)

theorem latches_step (evidence : Evidence trace s) (numbered : s.bridge.Numbered trace)
    (step : Step s e t) {n : Nat} (done : t.bridge.latch n = .done (some v)) :
    ∃ c : OutboundCall, c.number = n ∧
      [.registered c, .entered c, .computed c v, .delivered c (some v) true].Sublist (trace ++ [e]) := by
  have turn := step.move.turn (numbered.unused n)
  rw [done] at turn
  generalize was : s.bridge.latch n = latch at turn
  cases turn with
  | completed c _ own =>
    obtain ⟨inline, inside⟩ := step.computed_of_delivered
    exact ⟨c, own, (evidence.frames _ inside).append_right [_]⟩
  | kept =>
    obtain ⟨c, own, inside⟩ := evidence.latches n v was
    exact ⟨c, own, inside.trans (List.sublist_append_left _ _)⟩

end Evidence

theorem evidence_of_path (path : Path (start marshalsExceptions) trace s) : Evidence trace s := by
  induction path with
  | refl => exact ⟨fun _ inside => (nomatch inside), fun _ _ done => (nomatch done)⟩
  | next path step ih =>
    have kept := kept_of_path path
    exact ⟨ih.frames_step kept.registered step, fun _ _ => ih.latches_step kept.numbered step⟩

/-! ## What stays as it is -/

/-- What every turn keeps of the latch of a call that was registered is true at the end. -/
theorem Path.latch {P : Latch → Prop} (kept : ∀ {latch e latch'}, Latch.Turn call latch e latch' →
    (∀ c, e = .registered c → c.number ≠ call) → P latch → P latch') (path : Path s trace t)
    (issued : s.bridge.Issued call) (holds : P (s.bridge.latch call)) : P (t.bridge.latch call) := by
  have both := path.keeps (P := fun s => s.bridge.Issued call ∧ P (s.bridge.latch call))
    (fun step ⟨known, now⟩ => ⟨step.move.issued_of_issued known,
      kept (step.move.turn_of_issued known) (fun _ => step.move.old_of_issued known) now⟩)
    ⟨issued, holds⟩
  exact both.2

theorem Path.signalled (path : Path s trace t) (issued : s.bridge.Issued call)
    (left : s.bridge.latch call ≠ .pending) : t.bridge.latch call ≠ .pending :=
  path.latch (P := fun latch => latch ≠ .pending) (fun turn old left => turn.signalled old left) issued left

theorem Path.cancelled (path : Path s trace t) (issued : s.bridge.Issued call)
    (cancelled : s.bridge.latch call = .cancelled) : t.bridge.latch call = .cancelled := by
  refine path.latch (P := fun latch => latch = .cancelled) (fun turn _ was => ?_) issued cancelled
  subst was
  exact turn.cancelled_of_cancelled

theorem Path.taken (path : Path s trace t) (issued : s.bridge.Issued call)
    (taken : s.bridge.latch call = .taken) : t.bridge.latch call = .taken := by
  refine path.latch (P := fun latch => latch = .taken) (fun turn old was => ?_) issued taken
  subst was
  exact turn.taken_of_taken old

theorem Path.shutDown (path : Path s trace t) (late : s.bridge.shutDown = true)
    (empty : s.bridge.pending = []) : t.bridge.shutDown = true ∧ t.bridge.pending = [] :=
  path.keeps (P := fun s => s.bridge.shutDown = true ∧ s.bridge.pending = [])
    (fun step kept => step.move.shutDown_of_shutDown kept.1 kept.2) ⟨late, empty⟩

/-- The state after a step of a run, and the run that follows. -/
theorem cut (path : Path (start marshalsExceptions) (past ++ e :: later) u) :
    ∃ s t, Kept past s ∧ Evidence past s ∧ Step s e t ∧ Kept (past ++ [e]) t ∧ Path t later u := by
  obtain ⟨s, t, before, step, after⟩ := path.split_cons
  exact ⟨s, t, kept_of_path before, evidence_of_path before, step, kept_of_path (before.next step), after⟩

/-- A cancellation that is accepted settles the latch. -/
theorem cancelled_after (path : Path (start marshalsExceptions) (past ++ .cancelled call true :: later) u) :
    ∃ t, t.bridge.Issued call ∧ t.bridge.latch call = .cancelled ∧ Path t later u := by
  obtain ⟨s, t, kept, _, step, kept', after⟩ := cut path
  have turn := step.move.turn (kept.numbered.unused call)
  have signals : (Event.cancelled call true).signals call = true := by simp [Event.signals]
  obtain ⟨was, _⟩ := turn.signals_iff.1 signals
  have cancelled : t.bridge.latch call = .cancelled := by
    obtain ⟨same, _⟩ := step.move.cancelled_of_event
    rw [same, Bridge.latch_cancel, if_pos rfl, was]
    rfl
  exact ⟨t, kept'.issued_of_latch (by simp [cancelled]), cancelled, after⟩

/-- A result that is handed to its caller settles the latch. -/
theorem taken_after (path : Path (start marshalsExceptions) (past ++ .returned c (some v) :: later) u) :
    ∃ t, t.bridge.Issued c.number ∧ t.bridge.latch c.number = .taken ∧ Path t later u := by
  obtain ⟨s, t, kept, _, step, kept', after⟩ := cut path
  obtain ⟨done, taken⟩ := step.move.done_of_returned
  have issued : s.bridge.Issued c.number := kept.issued_of_latch (by simp [done])
  exact ⟨t, step.move.issued_of_issued issued, taken, after⟩

/-- Every pending latch is known to the bridge, or to the shutdown in progress. -/
def Covered (s : Traffic) : Prop :=
  ∀ n, s.bridge.latch n = .pending → n ∈ s.bridge.pending ∨ ∃ calls, s.sweep = some calls ∧ n ∈ calls

theorem Covered.step (covered : s.Covered) (numbered : s.bridge.Numbered trace) (step : Step s e t) :
    t.Covered := by
  intro n pending
  rcases Custody.pending_before numbered step pending with was | ⟨c, rfl, rfl⟩
  · have before := covered n was
    cases step with
    | request c _ granted | requestInline c _ granted =>
      rw [(Bridge.Move.register c granted).pending_of_registered]
      exact before.imp_left (List.mem_append_left _)
    | return_ c _ _ _ signalled | returnInline _ _ _ signalled =>
      refine before.imp_left fun inside => (List.mem_erase_of_ne ?_).2 inside
      rintro rfl
      exact signalled was
    | shutDown free =>
      refine .inr ⟨_, rfl, before.resolve_right ?_⟩
      rintro ⟨calls, held, _⟩
      rw [free] at held
      cases held
    | cancel call rest calls sweeps next =>
      apply before.imp_right
      rintro ⟨calls', held, inside⟩
      rw [sweeps, Option.some.injEq] at held
      subst held
      refine ⟨rest, rfl, (List.mem_cons.1 (next.mem_iff.1 inside)).resolve_left fun own => ?_⟩
      rw [own, Bridge.latch_cancel, if_pos rfl] at pending
      exact Latch.cancel_signals _ pending
    | swept done =>
      refine .inl (before.resolve_right ?_)
      rintro ⟨calls, held, inside⟩
      rw [done, Option.some.injEq] at held
      subst held
      cases inside
    | destroyAgain _ again =>
      rw [Bridge.destroy_of_shutDown again]
      exact before
    | _ => exact before
  · refine .inl ?_
    rw [step.move.pending_of_registered]
    exact List.mem_append_right _ (List.mem_singleton_self _)

theorem covered_of_path (path : Path (start marshalsExceptions) trace s) : s.Covered := by
  induction path with
  | refl => exact fun _ pending => nomatch pending
  | next path step ih => exact ih.step (kept_of_path path).numbered step

theorem Step.idle_of_swept (step : Step s .swept t) : t.sweep = none := by
  generalize is : Event.swept = e at step
  cases step with
  | swept => rfl
  | advance _ _ advance =>
    subst is
    cases advance
  | _ => cases is

theorem shutDown_after {calls : List Nat}
    (path : Path (start marshalsExceptions) (past ++ .shutDown calls :: later) u) :
    ∃ t, t.bridge.shutDown = true ∧ t.bridge.pending = [] ∧ Path t later u := by
  obtain ⟨s, t, _, _, step, _, after⟩ := cut path
  obtain ⟨_, same, _⟩ := step.move.shutDown_of_event
  exact ⟨t, same ▸ rfl, same ▸ rfl, after⟩

/-- Once shutdown is through, no latch is pending. -/
theorem swept_after {calls : List Nat} {during : List Event}
    (path : Path (start marshalsExceptions) (past ++ .shutDown calls :: (during ++ .swept :: later)) u) :
    ∃ t, Kept (past ++ .shutDown calls :: (during ++ [.swept])) t ∧
      (∀ call, t.bridge.latch call ≠ .pending) ∧ Path t later u := by
  have parted : past ++ .shutDown calls :: (during ++ .swept :: later)
      = (past ++ .shutDown calls :: during) ++ .swept :: later := by simp
  rw [parted] at path
  obtain ⟨s, t, before, step, after⟩ := path.split_cons
  have through := before.next step
  rw [List.append_assoc, List.cons_append] at through
  refine ⟨t, kept_of_path through, fun call pending => ?_, after⟩
  rcases covered_of_path through call pending with inside | ⟨_, held, _⟩
  · obtain ⟨_, late, empty, until_⟩ := shutDown_after through
    rw [(until_.shutDown late empty).2] at inside
    cases inside
  · rw [step.idle_of_swept] at held
    cases held

/-! ## Agreement -/

/-- How results and shutdown go together in a run. -/
structure Agreed (trace : List Event) (s : Traffic) : Prop where
  /-- A call returns what it computed itself, if its latch accepted that and was not cancelled. -/
  result : ∀ c v, .returned c (some v) ∈ trace →
    [.registered c, .entered c, .computed c v, .delivered c (some v) true,
      .returned c (some v)].Sublist trace ∧ .cancelled c.number true ∉ trace
  /-- A call whose latch shutdown found pending returns nothing. -/
  cancelled : ∀ c result, .cancelled c.number true ∈ trace → .returned c result ∈ trace → result = none
  /-- When shutdown is through, it has cancelled every latch that was pending when it began, unless a
  result came first. -/
  decided : ∀ past calls during later, trace = past ++ .shutDown calls :: (during ++ .swept :: later) →
    ∀ c, .registered c ∈ past → past.countP (Event.signals c.number) = 0 →
    .cancelled c.number true ∈ during ∨ ∃ result, .delivered c result true ∈ during
  /-- A call whose latch was pending when shutdown began returns a result only if that was accepted
  before shutdown came to its latch. -/
  found : ∀ past calls later, trace = past ++ .shutDown calls :: later → ∀ c v, .registered c ∈ past →
    past.countP (Event.signals c.number) = 0 → .returned c (some v) ∈ later →
    ∃ before after, later = before ++ .delivered c (some v) true :: after ∧ .swept ∉ before ∧
      ∀ accepted, .cancelled c.number accepted ∉ before
  /-- A call that is cancelled before it starts never enters the host. -/
  skipped : ∀ past c later, trace = past ++ .cancelled c.number true :: later → .entered c ∉ later
  /-- After shutdown has begun, no call is registered: whoever passes the mutex is refused. -/
  refused : ∀ past calls later, trace = past ++ .shutDown calls :: later →
    (∀ c, .registered c ∉ later) ∧ s.bridge.register = (none, s.bridge)
  /-- Nothing is pending any more, and shutdown has no effect a second time. -/
  settled : ∀ past calls later, trace = past ++ .shutDown calls :: later →
    s.bridge.pending = [] ∧ s.bridge.destroy = s.bridge ∧ ∀ calls', .shutDown calls' ∉ later

theorem result_agreed (path : Path (start marshalsExceptions) trace s)
    (inside : .returned c (some v) ∈ trace) :
    [.registered c, .entered c, .computed c v, .delivered c (some v) true,
      .returned c (some v)].Sublist trace ∧ .cancelled c.number true ∉ trace := by
  constructor
  · obtain ⟨past, later, rfl⟩ := List.append_of_mem inside
    obtain ⟨s, t, kept, evidence, step, _, _⟩ := cut path
    obtain ⟨done, _⟩ := step.move.done_of_returned
    obtain ⟨d, number, behind⟩ := evidence.latches _ v done
    have registered := kept.registered c (step.call rfl)
    have registered' : .registered d ∈ past := behind.subset List.mem_cons_self
    obtain rfl := kept.numbered.eq_of_number registered registered' number.symm
    exact behind.append (List.singleton_sublist.2 List.mem_cons_self)
  · intro cancelled
    obtain ⟨past, later, rfl⟩ := List.append_of_mem inside
    obtain ⟨t, issued, taken, after⟩ := taken_after path
    obtain ⟨past', later', same⟩ := List.append_of_mem cancelled
    rw [same] at path
    obtain ⟨t', issued', cancelled', after'⟩ := cancelled_after path
    have one := after.taken issued taken
    rw [after'.cancelled issued' cancelled'] at one
    cases one

theorem cancelled_agreed (path : Path (start marshalsExceptions) trace s) {result : Option Value}
    (cancelled : .cancelled c.number true ∈ trace) (returned : .returned c result ∈ trace) :
    result = none := by
  cases result with
  | none => rfl
  | some v => exact absurd cancelled (result_agreed path returned).2

theorem skipped_agreed (path : Path (start marshalsExceptions) (past ++ .cancelled c.number true :: later) s) :
    .entered c ∉ later := by
  intro inside
  obtain ⟨t, issued, cancelled, after⟩ := cancelled_after path
  obtain ⟨before, rest, rfl⟩ := List.append_of_mem inside
  obtain ⟨u, _, until_, step, _⟩ := after.split_cons
  have valid := step.open_of_entered
  unfold Bridge.isCancelled at valid
  rw [until_.cancelled issued cancelled] at valid
  cases valid

theorem refused_agreed {calls : List Nat}
    (path : Path (start marshalsExceptions) (past ++ .shutDown calls :: later) s) :
    (∀ c, .registered c ∉ later) ∧ s.bridge.register = (none, s.bridge) := by
  obtain ⟨t, late, empty, after⟩ := shutDown_after path
  refine ⟨fun c inside => ?_, Bridge.register_of_shutDown (after.shutDown late empty).1⟩
  obtain ⟨before, rest, rfl⟩ := List.append_of_mem inside
  obtain ⟨u, _, until_, step, _⟩ := after.split_cons
  have open_ := step.move.nextCall_of_registered.1
  rw [(until_.shutDown late empty).1] at open_
  cases open_

theorem settled_agreed {calls : List Nat}
    (path : Path (start marshalsExceptions) (past ++ .shutDown calls :: later) s) :
    s.bridge.pending = [] ∧ s.bridge.destroy = s.bridge ∧ ∀ calls', .shutDown calls' ∉ later := by
  obtain ⟨t, late, empty, after⟩ := shutDown_after path
  obtain ⟨late', empty'⟩ := after.shutDown late empty
  refine ⟨empty', Bridge.destroy_of_shutDown late', fun calls' inside => ?_⟩
  obtain ⟨before, rest, rfl⟩ := List.append_of_mem inside
  obtain ⟨u, _, until_, step, _⟩ := after.split_cons
  have first := step.move.shutDown_of_event.1
  rw [(until_.shutDown late empty).1] at first
  cases first

/-- A latch that was pending when shutdown began has left that state in its course. -/
theorem decided_agreed {calls : List Nat} {during : List Event}
    (path : Path (start marshalsExceptions) (past ++ .shutDown calls :: (during ++ .swept :: later)) s)
    (registered : .registered c ∈ past) (unsignalled : past.countP (Event.signals c.number) = 0) :
    .cancelled c.number true ∈ during ∨ ∃ result, .delivered c result true ∈ during := by
  obtain ⟨t, kept, signalled, _⟩ := swept_after path
  have issued : t.bridge.Issued c.number := kept.issued (List.mem_append_left _ registered)
  have once := kept.signals c.number
  rw [if_pos ⟨issued, Latch.isSignalled_iff.2 (signalled _)⟩] at once
  have here : during.countP (Event.signals c.number) = 1 := by
    simpa [unsignalled, Event.signals] using once
  obtain ⟨e, inside, signals⟩ := List.countP_pos_iff.1 (here ▸ Nat.one_pos)
  rcases Event.signals_iff.1 signals with rfl | ⟨d, result, own, rfl⟩
  · exact .inl inside
  · have there : .delivered d result true ∈ past ++ .shutDown calls :: (during ++ .swept :: later) := by
      simp [inside]
    obtain rfl := (kept_of_path path).numbered.eq_of_number (registered_of_call path there rfl)
      (by simp [registered]) own
    exact .inr ⟨result, inside⟩

theorem found_agreed {calls : List Nat}
    (path : Path (start marshalsExceptions) (past ++ .shutDown calls :: later) s)
    (registered : .registered c ∈ past) (unsignalled : past.countP (Event.signals c.number) = 0)
    (returned : .returned c (some v) ∈ later) :
    ∃ before after, later = before ++ .delivered c (some v) true :: after ∧ .swept ∉ before ∧
      ∀ accepted, .cancelled c.number accepted ∉ before := by
  have signals : (Event.delivered c (some v) true).signals c.number = true := by simp [Event.signals]
  have inside : .delivered c (some v) true ∈ later := by
    have behind := (result_agreed path (List.mem_append_right _ (List.mem_cons_of_mem _ returned))).1
    have there : .delivered c (some v) true ∈ past ++ .shutDown calls :: later :=
      behind.subset (by simp)
    rcases List.mem_append.1 there with early | late
    · exact absurd signals (List.countP_eq_zero.1 unsignalled _ early)
    · exact (List.mem_cons.1 late).resolve_left (by rintro ⟨⟩)
  obtain ⟨before, after, rfl⟩ := List.append_of_mem inside
  rw [← List.cons_append, ← List.append_assoc] at path
  obtain ⟨u, _, until_, step, _⟩ := path.split_cons
  have pending : u.bridge.latch c.number = .pending :=
    ((step.move.turn ((kept_of_path until_).numbered.unused _)).signals_iff.1 signals).1
  refine ⟨before, after, rfl, fun swept => ?_, fun accepted cancelled => ?_⟩
  · obtain ⟨first, second, rfl⟩ := List.append_of_mem swept
    obtain ⟨t, kept, signalled, rest⟩ := swept_after until_
    exact rest.signalled (kept.issued (by simp [registered])) (signalled _) pending
  · obtain ⟨first, second, rfl⟩ := List.append_of_mem cancelled
    rw [← List.cons_append, ← List.append_assoc] at until_
    obtain ⟨_, t, _, _, step, kept, rest⟩ := cut until_
    refine rest.signalled (kept.issued (by simp [registered])) ?_ pending
    rw [step.move.cancelled_of_event.1, Bridge.latch_cancel, if_pos rfl]
    exact Latch.cancel_signals _

/-- Results and shutdown agree in every run. A call that is run after its cancellation does nothing but
give back its arguments, and one that is made after shutdown does nothing at all. -/
theorem results_and_shutdown_agree {ρ μ : Type} (β : Behaviour ρ μ)
    (path : Path (start marshalsExceptions) trace s) :
    Agreed trace s ∧
      (∀ (c : OutboundCall) (w : World ρ μ), (w.bridge c.bridge).isCancelled c.number = true →
        (c.perform β).outcome w = (.ok (), (c.offered w).released c.handles)) ∧
      ∀ (w : World ρ μ) number id args, (w.bridge number).shutDown = true →
        (WorldM.callFromWorker β number id args).run w = (none, w) ∧
        (Run.callInline β number id args).outcome w = (.ok none, w) := by
  refine ⟨?_, ?_, ?_⟩
  · constructor
    case result => exact fun _ _ => result_agreed path
    case cancelled => exact fun _ _ => cancelled_agreed path
    case decided =>
      rintro past calls during later rfl c
      exact decided_agreed path
    case found =>
      rintro past calls later rfl c v
      exact found_agreed path
    case skipped =>
      rintro past c later rfl
      exact skipped_agreed path
    case refused =>
      rintro past calls later rfl
      exact refused_agreed path
    case settled =>
      rintro past calls later rfl
      exact settled_agreed path
  · intro c w cancelled
    exact c.perform_of_cancelled w β cancelled
  · intro w number id args late
    exact ⟨WorldM.callFromWorker_of_shutDown β w late id args,
      Run.callInline_of_shutDown β w late id args⟩

/-- The traffic of the first call of a bridge, whose caller waits. -/
def ofOne (c : OutboundCall) (latch : Latch) (pending : List Nat) (shutDown : Bool)
    (frames : List Frame) : Traffic :=
  ⟨⟨⟨[(1, latch)]⟩, pending, 2, shutDown, false⟩, [], [c], [], frames, true, false, none⟩

theorem entered_ofOne (bridge : Nat) (id : Identifier) (args : List Value) :
    let c : OutboundCall := ⟨bridge, 1, id, args⟩
    Path (start false) [.registered c, .dispatched c, .taken c, .entered c]
      (ofOne c .pending [1] false [⟨c, false, .executing⟩]) := by
  intro c
  have taken : Path (start false) [.registered c, .dispatched c, .taken c]
      (ofOne c .pending [1] false [⟨c, false, .fresh⟩]) :=
    ((Path.single (.request (s := start false) c rfl rfl)).next (.dispatch c [] (.refl _))).next
      (.take c [] (.refl _) ⟨⟨rfl, rfl⟩, fun _ inside => nomatch inside⟩)
  exact taken.next (.advance ⟨rfl, rfl⟩ rfl (.enter rfl))

/-- A call is executing when shutdown begins. Its result comes too late, and it returns nothing. -/
theorem results_and_shutdown_agree_of_late_result :
    let c : OutboundCall := ⟨0, 1, .name "f", []⟩
    ∃ trace s, Path (start false) trace s ∧ .entered c ∈ trace ∧ .computed c (.int32 8) ∈ trace ∧
      .cancelled 1 true ∈ trace ∧ (∀ result, .returned c result ∈ trace → result = none) ∧
      s.bridge.register = (none, s.bridge) ∧ s.bridge.pending = [] := by
  intro c
  have entered := entered_ofOne 0 (.name "f") []
  have cancelled : Path (ofOne c .pending [1] false [⟨c, false, .executing⟩])
      [.shutDown [1], .cancelled 1 true, .swept] (ofOne c .cancelled [] true [⟨c, false, .executing⟩]) :=
    ((Path.single (.shutDown (s := ofOne c .pending [1] false [⟨c, false, .executing⟩]) rfl rfl)).next
      (.cancel 1 [] [1] rfl (.refl _))).next (.swept rfl)
  have late : Path (ofOne c .cancelled [] true [⟨c, false, .executing⟩])
      [.computed c (.int32 8), .delivered c (some (.int32 8)) false, .delivered c none false]
      (ofOne c .cancelled [] true []) :=
    ((Path.single (.advance ⟨rfl, rfl⟩ rfl (.compute (.int32 8)))).next
      (.complete ⟨rfl, rfl⟩ rfl)).next (@Step.finish _ c false [] ⟨rfl, rfl⟩ rfl)
  have returned := (entered.trans (cancelled.trans late)).next
    (.return_ c [] (.refl _) rfl fun pending => nomatch pending)
  let before : List Event := [.registered c, .dispatched c, .taken c, .entered c]
  let after : List Event := [.cancelled 1 true, .swept, .computed c (.int32 8),
    .delivered c (some (.int32 8)) false, .delivered c none false, .returned c none]
  have whole : Path (start false) (before ++ .shutDown [1] :: after) _ := returned
  let β : Behaviour Unit Unit := ⟨fun _ _ => pure none, fun _ _ _ _ => pure .unhandled, fun _ => []⟩
  have agreed := (results_and_shutdown_agree β whole).1
  refine ⟨_, _, whole, by simp [before], by simp [after], by simp [after], ?_, ?_, ?_⟩
  · intro result
    exact agreed.cancelled c result (by simp [c, after])
  · exact (agreed.refused before [1] after rfl).2
  · exact (agreed.settled before [1] after rfl).1

/-- A call is executing when shutdown begins, with its latch pending. The result is accepted before shutdown
comes to that latch, and the caller gets it. -/
theorem result_outruns_shutdown :
    let c : OutboundCall := ⟨0, 1, .name "f", []⟩
    ∃ s t, Path (start false) [.registered c, .dispatched c, .taken c, .entered c] s ∧
      s.bridge.shutDown = false ∧ s.bridge.latch 1 = .pending ∧
      Path s [.shutDown [1], .computed c (.int32 8), .delivered c (some (.int32 8)) true,
        .cancelled 1 false, .swept, .delivered c none false, .returned c (some (.int32 8))] t := by
  intro c
  have computed : Path (ofOne c .pending [1] false [⟨c, false, .executing⟩])
      [.shutDown [1], .computed c (.int32 8)]
      { ofOne c .pending [] true [⟨c, false, .computed (some (.int32 8))⟩] with sweep := some [1] } :=
    (Path.single (.shutDown (s := ofOne c .pending [1] false [⟨c, false, .executing⟩]) rfl rfl)).next
      (.advance ⟨rfl, rfl⟩ rfl (.compute (.int32 8)))
  have swept : Path
      { ofOne c .pending [] true [⟨c, false, .computed (some (.int32 8))⟩] with sweep := some [1] }
      [.delivered c (some (.int32 8)) true, .cancelled 1 false, .swept]
      (ofOne c (.done (some (.int32 8))) [] true [⟨c, false, .ended⟩]) :=
    ((Path.single (.complete ⟨rfl, rfl⟩ rfl)).next (.cancel 1 [] [1] rfl (.refl _))).next (.swept rfl)
  have finished := (computed.trans swept).next (@Step.finish _ c false [] ⟨rfl, rfl⟩ rfl)
  have returned := finished.next (.return_ c [] (.refl _) rfl fun pending => nomatch pending)
  exact ⟨_, _, entered_ofOne 0 (.name "f") [], rfl, rfl, returned⟩

end Traffic

end ScriptBoundary
