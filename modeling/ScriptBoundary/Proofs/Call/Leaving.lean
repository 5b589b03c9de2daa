import ScriptBoundary.Proofs.Call.Progress

/-!
How calls leave the pending set. A caller that gets its result takes the call out of it; a caller on the
host thread that a panic unwinds never comes to do that. So what is pending is what is in progress
and, until shutdown, what a panic has left behind.
-/

namespace ScriptBoundary

namespace Event

def answered? : Event → Option OutboundCall
  | .returned c _ => some c
  | _ => none

/-- The calls whose callers came back with an answer, oldest first. -/
def answered (trace : List Event) : List OutboundCall := trace.filterMap answered?

theorem answered_append (trace : List Event) (e : Event) :
    answered (trace ++ [e]) = answered trace ++ e.answered?.toList := by
  unfold answered
  rw [List.filterMap_append]
  cases e <;> rfl

theorem mem_answered {trace : List Event} {c : OutboundCall} :
    c ∈ answered trace ↔ ∃ result, .returned c result ∈ trace := by
  unfold answered
  rw [List.mem_filterMap]
  constructor
  · rintro ⟨e, inside, is⟩
    cases e <;> cases is
    exact ⟨_, inside⟩
  · rintro ⟨result, inside⟩
    exact ⟨_, inside, rfl⟩

end Event

namespace Traffic

variable {s t u : Traffic} {e : Event} {trace past later : List Event} {c : OutboundCall}
  {marshalsExceptions : Bool}

/-- Calls whose callers are not through with them. -/
def inProgress (s : Traffic) : List OutboundCall :=
  s.hand ++ s.waiting ++ (s.frames.filter Frame.inline).map Frame.call

/-- A panic unwinds the caller of an in-line call, which does not come to collect the result. -/
inductive Unwinds (s : Traffic) (c : OutboundCall) : Traffic → Prop where
  | mk {stage : Stage} {rest : List Frame} (panicking : s.panicking = true)
      (top : s.frames = ⟨c, true, stage⟩ :: rest) (live : stage.isLive = true) :
      Unwinds s c { s.deliver c none with frames := rest }

theorem Unwinds.step (unwinds : s.Unwinds c t) :
    Step s (.delivered c none (s.bridge.deliver c.number none).1) t := by
  cases unwinds with
  | mk panicking top live => exact .unwind panicking top live

/-- In the course of the run, the caller of the call was unwound. -/
def Abandoned (marshalsExceptions : Bool) (trace : List Event) (s : Traffic) (c : OutboundCall) : Prop :=
  ∃ past before after later, Path (start marshalsExceptions) past before ∧ before.Unwinds c after ∧
    Path after later s ∧ trace = past ++ .delivered c none (before.bridge.deliver c.number none).1 :: later

theorem Abandoned.next (abandoned : Abandoned marshalsExceptions trace s c) (step : Step s e t) :
    Abandoned marshalsExceptions (trace ++ [e]) t c := by
  obtain ⟨past, before, after, later, path, unwinds, rest, rfl⟩ := abandoned
  refine ⟨past, before, after, later ++ [e], path, unwinds, rest.next step, ?_⟩
  rw [List.append_assoc, List.cons_append]

theorem abandoned_of_unwinds (path : Path (start marshalsExceptions) trace s) (unwinds : s.Unwinds c t) :
    Abandoned marshalsExceptions
      (trace ++ [.delivered c none (s.bridge.deliver c.number none).1]) t c :=
  ⟨trace, s, t, [], path, unwinds, .refl t, rfl⟩

/-- Only calls of the host thread itself are left for their callers to collect. -/
theorem inline_of_returning (path : Path s trace t)
    (inline : ∀ f ∈ s.frames, f.stage = .returning → f.inline = true) :
    ∀ f ∈ t.frames, f.stage = .returning → f.inline = true := by
  refine path.keeps (P := fun s => ∀ f ∈ s.frames, f.stage = .returning → f.inline = true) ?_ inline
  intro s e t step inline f inside returning
  cases step with
  | requestInline | take =>
    rcases List.mem_cons.1 inside with rfl | there
    · cases returning
    · exact inline f there returning
  | advance _ top advance =>
    rw [top] at inline
    rcases List.mem_cons.1 inside with rfl | there
    · cases advance <;> cases returning
    · exact inline f (List.mem_cons_of_mem _ there) returning
  | complete _ top =>
    rw [top] at inline
    rcases List.mem_cons.1 inside with rfl | there
    · cases returning
    · exact inline f (List.mem_cons_of_mem _ there) returning
  | @finish c own rest _ top =>
    rw [top] at inline
    rcases List.mem_append.1 inside with here | there
    · cases own with
      | false => cases here
      | true =>
        obtain rfl := List.mem_singleton.1 here
        rfl
    · exact inline f (List.mem_cons_of_mem _ there) returning
  | unwind _ top | returnInline _ top =>
    rw [top] at inline
    exact inline f (List.mem_cons_of_mem _ inside) returning
  | _ => exact inline f inside returning

/-- A caller begins with its registration and ends by an answer or by a panic. -/
theorem Step.inProgress (step : Step s e t)
    (inline : ∀ f ∈ s.frames, f.stage = .returning → f.inline = true) :
    (∃ c, e = .registered c ∧ t.inProgress.Perm (c :: s.inProgress)) ∨
      (∃ c result, e = .returned c result ∧ s.inProgress.Perm (c :: t.inProgress)) ∨
      (∃ c, e = .delivered c none (s.bridge.deliver c.number none).1 ∧ s.Unwinds c t ∧
        s.inProgress.Perm (c :: t.inProgress)) ∨
      e.registered? = none ∧ e.answered? = none ∧ t.inProgress.Perm s.inProgress := by
  unfold Traffic.inProgress
  cases step with
  | request c => exact .inl ⟨c, rfl, .refl _⟩
  | requestInline c => exact .inl ⟨c, rfl, List.perm_middle⟩
  | return_ c waiting waits =>
    exact .inr (.inl ⟨c, _, rfl, ((waits.append_left _).trans List.perm_middle).append_right _⟩)
  | @returnInline c own rest _ top =>
    obtain rfl : own = true := inline ⟨c, own, .returning⟩ (top ▸ List.mem_cons_self) rfl
    refine .inr (.inl ⟨c, _, rfl, ?_⟩)
    rw [top]
    exact List.perm_middle
  | @unwind c own stage rest panicking top live =>
    cases own with
    | true =>
      refine .inr (.inr (.inl ⟨c, rfl, .mk panicking top live, ?_⟩))
      rw [top]
      exact List.perm_middle
    | false =>
      refine .inr (.inr (.inr ⟨rfl, rfl, ?_⟩))
      rw [top]
      exact .refl _
  | dispatch c hand owns | reject c hand owns =>
    refine .inr (.inr (.inr ⟨rfl, rfl, List.Perm.append_right _ ?_⟩))
    exact List.perm_middle.trans (owns.symm.append_right _)
  | @advance c own stage stage' rest e _ top advance =>
    refine .inr (.inr (.inr ⟨?_, ?_, ?_⟩))
    · cases advance <;> rfl
    · cases advance <;> rfl
    · rw [top]
      cases own <;> exact .refl _
  | @complete c own result rest _ top =>
    refine .inr (.inr (.inr ⟨rfl, rfl, ?_⟩))
    rw [top]
    cases own <;> exact .refl _
  | @finish c own rest _ top =>
    refine .inr (.inr (.inr ⟨rfl, rfl, ?_⟩))
    rw [top]
    cases own <;> exact .refl _
  | _ => exact .inr (.inr (.inr ⟨rfl, rfl, .refl _⟩))

theorem Unwinds.inProgress (unwinds : s.Unwinds c t) :
    s.inProgress.Perm (c :: t.inProgress) := by
  cases unwinds with
  | mk panicking top live =>
    unfold Traffic.inProgress
    rw [top]
    exact List.perm_middle

/-! ## Runs -/

theorem inline_of_path (path : Path (start marshalsExceptions) trace s) :
    ∀ f ∈ s.frames, f.stage = .returning → f.inline = true :=
  inline_of_returning path fun _ inside => nomatch inside

/-- Every call that was registered is in progress, or was answered, or its caller was unwound. -/
theorem parted_of_path (path : Path (start marshalsExceptions) trace s) :
    ∃ left, (Event.calls trace).Perm (s.inProgress ++ Event.answered trace ++ left) ∧
      ∀ c ∈ left, Abandoned marshalsExceptions trace s c := by
  induction path with
  | refl => exact ⟨[], .nil, fun _ inside => nomatch inside⟩
  | @next s t past e path step ih =>
    obtain ⟨left, parts, abandoned⟩ := ih
    have still : ∀ c ∈ left, Abandoned marshalsExceptions (past ++ [e]) t c :=
      fun c inside => (abandoned c inside).next step
    rw [Bridge.Numbered.calls_append, Event.answered_append]
    rcases step.inProgress (inline_of_path path) with ⟨c, rfl, begins⟩ | ⟨c, result, rfl, ends⟩ |
      ⟨c, rfl, unwinds, ends⟩ | ⟨unregistered, unanswered, same⟩
    · have begun := (begins.append_right (Event.answered past)).append_right left
      refine ⟨left, ?_, still⟩
      simp only [Event.registered?, Event.answered?, Option.toList_some, Option.toList_none, List.append_nil]
      exact ((List.perm_append_singleton _ _).trans (parts.cons c)).trans begun.symm
    · have ended : (s.inProgress ++ Event.answered past).Perm (t.inProgress ++ (Event.answered past ++ [c])) := by
        rw [← List.append_assoc]
        exact (ends.append_right _).trans (List.perm_append_singleton _ _).symm
      refine ⟨left, ?_, still⟩
      simp only [Event.registered?, Event.answered?, Option.toList_some, Option.toList_none, List.append_nil]
      exact parts.trans (ended.append_right left)
    · have ended := ((ends.append_right (Event.answered past)).append_right left).trans List.perm_middle.symm
      refine ⟨c :: left, ?_, fun d inside => ?_⟩
      · simp only [Event.registered?, Event.answered?, Option.toList_none, List.append_nil]
        exact parts.trans ended
      · rcases List.mem_cons.1 inside with rfl | there
        · exact abandoned_of_unwinds path unwinds
        · exact still d there
    · refine ⟨left, ?_, still⟩
      rw [unregistered, unanswered, Option.toList_none, List.append_nil, List.append_nil]
      exact parts.trans ((same.symm.append_right _).append_right _)

/-- A caller that is through with its call is not heard of again. -/
theorem gone_of_path (path : Path s trace t) (issued : s.bridge.Issued c.number)
    (inline : ∀ f ∈ s.frames, f.stage = .returning → f.inline = true) (out : c ∉ s.inProgress) :
    c ∉ t.inProgress ∧ c ∉ Event.answered trace := by
  induction path with
  | refl => exact ⟨out, List.not_mem_nil⟩
  | @next s t past e path step ih =>
    obtain ⟨out', unanswered⟩ := ih
    have known : s.bridge.Issued c.number := path.keeps
      (P := fun s => s.bridge.Issued c.number) (fun step => step.move.issued_of_issued) issued
    rw [Event.answered_append]
    rcases step.inProgress (inline_of_returning path inline) with ⟨d, rfl, begins⟩ |
      ⟨d, result, rfl, ends⟩ | ⟨d, rfl, unwinds, ends⟩ | ⟨_, none_, same⟩
    · refine ⟨fun inside => ?_, by simpa [Event.answered?] using unanswered⟩
      rcases List.mem_cons.1 (begins.mem_iff.1 inside) with rfl | there
      · exact step.move.old_of_issued known rfl rfl
      · exact out' there
    · refine ⟨fun inside => out' (ends.mem_iff.2 (List.mem_cons_of_mem d inside)), fun inside => ?_⟩
      rcases List.mem_append.1 inside with before | now
      · exact unanswered before
      · obtain rfl := List.mem_singleton.1 now
        exact out' (ends.mem_iff.2 List.mem_cons_self)
    · refine ⟨fun inside => out' (ends.mem_iff.2 (List.mem_cons_of_mem d inside)), ?_⟩
      simpa [Event.answered?] using unanswered
    · refine ⟨fun inside => out' (same.mem_iff.1 inside), ?_⟩
      simpa [none_] using unanswered

/-- Where the calls of a run are by now: each in exactly one place. -/
structure Parted (marshalsExceptions : Bool) (trace : List Event) (s : Traffic)
    (left : List OutboundCall) : Prop where
  parts : (Event.calls trace).Perm (s.inProgress ++ Event.answered trace ++ left)
  distinct : ((s.inProgress ++ Event.answered trace ++ left).map OutboundCall.number).Nodup
  abandoned : ∀ c, c ∈ left ↔ Abandoned marshalsExceptions trace s c

theorem distinct_of_parts (path : Path (start marshalsExceptions) trace s) {left : List OutboundCall}
    (parts : (Event.calls trace).Perm (s.inProgress ++ Event.answered trace ++ left)) :
    ((s.inProgress ++ Event.answered trace ++ left).map OutboundCall.number).Nodup :=
  (parts.map OutboundCall.number).nodup_iff.1 (kept_of_path path).numbered.distinct

/-- Nobody comes back to a call whose caller was unwound. -/
theorem Abandoned.gone (abandoned : Abandoned marshalsExceptions trace s c) :
    .registered c ∈ trace ∧ c ∉ s.inProgress ∧ c ∉ Event.answered trace := by
  obtain ⟨past, before, after, later, path, unwinds, rest, rfl⟩ := abandoned
  have kept := kept_of_path path
  have whole := path.next unwinds.step
  obtain ⟨left, parts, _⟩ := parted_of_path path
  have ends := unwinds.inProgress
  have here : c ∈ before.inProgress := ends.mem_iff.2 List.mem_cons_self
  have registered : .registered c ∈ past := by
    rw [← Bridge.Numbered.mem_calls, parts.mem_iff]
    exact List.mem_append_left _ (List.mem_append_left _ here)
  have distinct := List.Nodup.of_map _ (distinct_of_parts path parts)
  have apart := List.nodup_append.1 distinct.of_append_left
  have out : c ∉ after.inProgress := (List.nodup_cons.1 (ends.nodup_iff.1 apart.1)).1
  have issued : after.bridge.Issued c.number :=
    unwinds.step.move.issued_of_issued (kept.issued registered)
  obtain ⟨out', unanswered⟩ := gone_of_path rest issued (inline_of_path whole) out
  refine ⟨List.mem_append_left _ registered, out', fun inside => ?_⟩
  rw [List.append_cons] at inside
  unfold Event.answered at inside unanswered
  rw [List.filterMap_append] at inside
  rcases List.mem_append.1 inside with before' | after'
  · change c ∈ Event.answered _ at before'
    rw [Event.answered_append] at before'
    have past' : c ∈ Event.answered past := by simpa [Event.answered?] using before'
    exact apart.2.2 c here c past' rfl
  · exact unanswered after'

theorem exists_parted (path : Path (start marshalsExceptions) trace s) :
    ∃ left, Parted marshalsExceptions trace s left := by
  obtain ⟨left, parts, abandoned⟩ := parted_of_path path
  refine ⟨left, parts, distinct_of_parts path parts, fun c => ⟨abandoned c, fun gone => ?_⟩⟩
  obtain ⟨registered, out, unanswered⟩ := gone.gone
  rw [← Bridge.Numbered.mem_calls, parts.mem_iff, List.mem_append, List.mem_append] at registered
  tauto

/-! ## The pending set -/

/-- A bridge that is shut down by a step has nothing pending. -/
theorem drained_of_move {b b' : Bridge} (move : b.Move e b') (open_ : b.shutDown = false)
    (late : b'.shutDown = true) : b'.pending = [] := by
  cases move with
  | register c granted =>
    rw [Bridge.register_of_open open_] at late
    exact absurd late (by simp [open_])
  | close => rfl
  | _ => exact absurd late (ne_true_of_eq_false open_)

theorem drained_of_shutDown (path : Path (start marshalsExceptions) trace s) :
    s.bridge.shutDown = true → s.bridge.pending = [] := by
  induction path with
  | refl => exact fun late => nomatch late
  | @next s t past e path step ih =>
    intro late
    cases was : s.bridge.shutDown with
    | true => exact (step.move.shutDown_of_shutDown was (ih was)).2
    | false => exact drained_of_move step.move was late

theorem shutDown_of_drained (path : Path (start marshalsExceptions) trace s) {calls : List Nat}
    (inside : .shutDown calls ∈ trace) : s.bridge.shutDown = true := by
  obtain ⟨past, later, rfl⟩ := List.append_of_mem inside
  obtain ⟨before, after, _, _, step, _, rest⟩ := cut path
  obtain ⟨_, closed, _⟩ := step.move.shutDown_of_event
  exact (rest.shutDown (by rw [closed]; rfl) (by rw [closed]; rfl)).1

/-- What is pending: until shutdown, the calls that are in progress and those whose callers were unwound. -/
theorem mem_pending (path : Path (start marshalsExceptions) trace s) (n : Nat) :
    n ∈ s.bridge.pending ↔ s.bridge.shutDown = false ∧
      ∃ c, c.number = n ∧ (c ∈ s.inProgress ∨ Abandoned marshalsExceptions trace s c) := by
  have account := accounted_of_kept (kept_of_path path)
  have numbered := (kept_of_path path).numbered
  obtain ⟨left, parted⟩ := exists_parted path
  have place (c : OutboundCall) : .registered c ∈ trace ↔
      (c ∈ s.inProgress ∨ c ∈ Event.answered trace) ∨ Abandoned marshalsExceptions trace s c := by
    rw [← Bridge.Numbered.mem_calls, parted.parts.mem_iff, List.mem_append, List.mem_append,
      parted.abandoned]
  rw [account.pending]
  constructor
  · rintro ⟨⟨c, registered, rfl⟩, unreturned, undrained⟩
    have inside : c.number ∈ s.bridge.pending :=
      (account.pending c.number).2 ⟨⟨c, registered, rfl⟩, unreturned, undrained⟩
    refine ⟨?_, c, rfl, ?_⟩
    · by_contra late
      rw [drained_of_shutDown path (by simpa using late)] at inside
      cases inside
    · rcases (place c).1 registered with (here | answered) | gone
      · exact .inl here
      · obtain ⟨result, back⟩ := Event.mem_answered.1 answered
        exact absurd rfl (unreturned c result back)
      · exact .inr gone
  · rintro ⟨open_, c, rfl, held⟩
    have registered : .registered c ∈ trace := (place c).2 (held.imp_left .inl)
    refine ⟨⟨c, registered, rfl⟩, fun d result back same => ?_, fun calls shut => ?_⟩
    · have answered : d ∈ Event.answered trace := Event.mem_answered.2 ⟨result, back⟩
      obtain rfl := numbered.eq_of_number ((place d).2 (.inl (.inr answered))) registered same
      rcases held with here | gone
      · have distinct := List.Nodup.of_map _ parted.distinct
        exact (List.nodup_append.1 distinct.of_append_left).2.2 d here d answered rfl
      · exact gone.gone.2.2 answered
    · rw [shutDown_of_drained path shut] at open_
      cases open_

/-- The caller of a call that was handed over waits for it until it gets an answer. -/
theorem waiting_of_dispatched (path : Path s trace t) (inside : .dispatched c ∈ trace) :
    c ∈ t.waiting ∨ ∃ result, .returned c result ∈ trace := by
  induction path with
  | refl => cases inside
  | @next s t past e path step ih =>
    have before : .dispatched c ∈ past → c ∈ s.waiting ∨ ∃ result, .returned c result ∈ past ++ [e] :=
      fun there => (ih there).imp_right fun ⟨result, back⟩ => ⟨result, List.mem_append_left _ back⟩
    have earlier (other : e ≠ .dispatched c) :
        c ∈ s.waiting ∨ ∃ result, .returned c result ∈ past ++ [e] := by
      rcases List.mem_append.1 inside with there | here
      · exact before there
      · exact absurd (List.mem_singleton.1 here).symm other
    cases step with
    | dispatch d hand owns =>
      rcases List.mem_append.1 inside with there | here
      · exact (before there).imp_left (List.mem_cons_of_mem d)
      · cases List.mem_singleton.1 here
        exact .inl List.mem_cons_self
    | reject d => exact (earlier (by simp)).imp_left (List.mem_cons_of_mem d)
    | return_ d waiting waits =>
      rcases earlier (by simp) with there | back
      · rcases List.mem_cons.1 (waits.mem_iff.1 there) with rfl | there
        · exact .inr ⟨_, List.mem_append_right _ (List.mem_singleton_self _)⟩
        · exact .inl there
      · exact .inr back
    | advance _ _ advance => exact earlier (by cases advance <;> simp)
    | _ => exact earlier (by simp)

/-- How calls leave the pending set. -/
structure Left (marshalsExceptions : Bool) (trace : List Event) (s : Traffic) : Prop where
  /-- A call that has come back is pending no longer, whatever it came back with. -/
  returned : ∀ c result, .returned c result ∈ trace → c.number ∉ s.bridge.pending
  /-- A caller on an engine thread comes back, or still waits. -/
  dispatched : ∀ c, .dispatched c ∈ trace → c ∈ s.waiting ∨ ∃ result, .returned c result ∈ trace
  /-- A call on the host thread whose caller is unwound by a panic stays until shutdown. -/
  pending : ∀ n, n ∈ s.bridge.pending ↔ s.bridge.shutDown = false ∧
    ∃ c, c.number = n ∧ (c ∈ s.inProgress ∨ Abandoned marshalsExceptions trace s c)
  /-- Once no call is in progress, nothing else is pending. -/
  quiet : s.inProgress = [] → (∀ c, ¬ Abandoned marshalsExceptions trace s c) → s.bridge.pending = []

theorem left_of_path (path : Path (start marshalsExceptions) trace s) :
    Left marshalsExceptions trace s where
  returned c result back inside := by
    have account := accounted_of_kept (kept_of_path path)
    exact ((account.pending c.number).1 inside).2.1 c result back rfl
  dispatched _ := waiting_of_dispatched path
  pending := mem_pending path
  quiet idle unwound := by
    apply List.eq_nil_iff_forall_not_mem.2
    intro n inside
    obtain ⟨_, c, _, here | gone⟩ := (mem_pending path n).1 inside
    · rw [idle] at here
      cases here
    · exact unwound c gone

end Traffic

/-! ## The code -/

section Code

variable {ρ μ : Type} (β : Behaviour ρ μ) {bridge : Nat} {id : Identifier} {args : List Value}
  {w w₁ w₂ : World ρ μ} {c : OutboundCall}

/-- A caller on the host thread collects the result of a call that ends. -/
theorem Run.callInline_of_end (request : (WorldM.request bridge id args).run w = (some c, w₁))
    (ends : (c.perform β).outcome w₁ = (.ok (), w₂)) : (callInline β bridge id args).outcome w
      = (.ok ((WorldM.collect c).run w₂).1, ((WorldM.collect c).run w₂).2) := by
  have asked : (Run.always (WorldM.request bridge id args) : Run ρ μ _).outcome w = (.ok (some c), w₁) :=
    congrArg (fun answer => (Except.ok answer.1, answer.2)) request
  unfold callInline
  rw [Run.outcome_bind asked, Run.outcome_bind ends]
  rfl

/-- A panic takes the caller with it, and nothing is collected. -/
theorem Run.callInline_of_fault (request : (WorldM.request bridge id args).run w = (some c, w₁))
    {fault : Fault} (faults : (c.perform β).outcome w₁ = (.error fault, w₂)) :
    (callInline β bridge id args).outcome w = (.error fault, w₂) := by
  have asked : (Run.always (WorldM.request bridge id args) : Run ρ μ _).outcome w = (.ok (some c), w₁) :=
    congrArg (fun answer => (Except.ok answer.1, answer.2)) request
  unfold callInline
  rw [Run.outcome_bind asked, Run.outcome_bind_fault faults]

/-- A caller on an engine thread collects the result however the call has ended. -/
theorem WorldM.callFromWorker_of_request
    (request : (WorldM.request bridge id args).run w = (some c, w₁)) :
    (callFromWorker β bridge id args).run w
      = (collect c).run ((drain β).run ((dispatch c).run w₁).2).2 := by
  unfold callFromWorker
  rw [StateT.run_bind, request]
  rfl

end Code

namespace Traffic

variable {trace : List Event} {s : Traffic} {marshalsExceptions : Bool}

/-- A call leaves the pending set when its caller comes back with an answer, on whichever thread that is
and however the host function ended, or when shutdown begins. A caller on an engine thread always comes
back; one on the host thread is unwound by a panic, its result is not collected, and the call stays. -/
theorem calls_leave {ρ μ : Type} (β : Behaviour ρ μ) (path : Path (start marshalsExceptions) trace s) :
    Left marshalsExceptions trace s ∧
      ∀ (bridge : Nat) (id : Identifier) (args : List Value) (w w₁ : World ρ μ) (c : OutboundCall),
        (WorldM.request bridge id args).run w = (some c, w₁) →
        (WorldM.callFromWorker β bridge id args).run w
            = (WorldM.collect c).run ((WorldM.drain β).run ((WorldM.dispatch c).run w₁).2).2 ∧
        (∀ w₂, (c.perform β).outcome w₁ = (.ok (), w₂) →
          (Run.callInline β bridge id args).outcome w
            = (.ok ((WorldM.collect c).run w₂).1, ((WorldM.collect c).run w₂).2)) ∧
        ∀ fault w₂, (c.perform β).outcome w₁ = (.error fault, w₂) →
          (Run.callInline β bridge id args).outcome w = (.error fault, w₂) :=
  ⟨left_of_path path, fun _ _ _ _ _ _ request =>
    ⟨WorldM.callFromWorker_of_request β request,
      fun _ ends => Run.callInline_of_end β request ends,
      fun _ _ faults => Run.callInline_of_fault β request faults⟩⟩

/-- A call on an engine thread whose host function calls out itself, and panics while that second call
is executed: both end, and the caller of the first comes back. The second call stays. -/
theorem calls_leave_of_nested_panic :
    ∃ trace s, Path (start false) trace s ∧ s.inProgress = [] ∧ s.bridge.pending = [2] ∧
      Left false trace s := by
  let outer : OutboundCall := ⟨0, 1, .name "f", []⟩
  let inner : OutboundCall := ⟨0, 2, .name "g", []⟩
  have called := (Path.single (.request (s := start false) outer rfl rfl)).next
    (.dispatch outer [] (.refl _))
  have entered := (called.next (.take outer [] (.refl _) ⟨⟨rfl, rfl⟩, fun _ is => nomatch is⟩)).next
    (.advance ⟨rfl, rfl⟩ rfl (.enter rfl))
  have nested := (entered.next (.requestInline inner rfl rfl ⟨⟨rfl, rfl⟩, fun f is => by
    cases is
    rfl⟩)).next (.advance ⟨rfl, rfl⟩ rfl (.enter rfl))
  have unwound := ((nested.next (.panic ⟨⟨rfl, rfl⟩, fun f is => by
    cases is
    rfl⟩)).next (.unwind rfl rfl rfl)).next (.unwind rfl rfl rfl)
  have returned := unwound.next (.return_ outer [] (.refl _) rfl fun pending => nomatch pending)
  let β : Behaviour Unit Unit := ⟨fun _ _ => pure none, fun _ _ _ _ => pure .unhandled, fun _ => []⟩
  exact ⟨_, _, returned, rfl, rfl, (calls_leave β returned).1⟩

/-- So not every call takes itself out of the pending set: one that panics on the host thread is still
there when no call is in progress. -/
theorem panicked_call_stays :
    ¬ ∀ trace s, Path (start false) trace s → s.inProgress = [] → s.bridge.pending = [] := by
  intro always
  let c : OutboundCall := ⟨0, 1, .name "f", []⟩
  have entered := (Path.single (.requestInline (s := start false) c rfl rfl
    ⟨⟨rfl, rfl⟩, fun _ is => nomatch is⟩)).next (.advance ⟨rfl, rfl⟩ rfl (.enter rfl))
  have unwound := (entered.next (.panic ⟨⟨rfl, rfl⟩, fun f is => by
    cases is
    rfl⟩)).next (.unwind rfl rfl rfl)
  cases always _ _ (unwound.next (.catch_ rfl)) rfl

end Traffic

end ScriptBoundary
