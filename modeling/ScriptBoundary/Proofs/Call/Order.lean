import ScriptBoundary.Proofs.Call.Leaving

/-!
The order in which calls start. A caller passes the mutex, lets go of it, and only then hands its call
over; another caller may get in between. So calls start in the order in which they were queued, which is
the order of their numbers only for callers that do not overlap.
-/

namespace ScriptBoundary

namespace Event

def dispatched? : Event → Option OutboundCall
  | .dispatched c => some c
  | _ => none

def taken? : Event → Option OutboundCall
  | .taken c => some c
  | _ => none

def entered? : Event → Option OutboundCall
  | .entered c => some c
  | _ => none

/-- The calls that were queued for the host thread, in that order. -/
def queued (trace : List Event) : List OutboundCall := trace.filterMap dispatched?

/-- The calls that the host thread took off the queue, in that order. -/
def unqueued (trace : List Event) : List OutboundCall := trace.filterMap taken?

/-- The calls that entered the host after they had been queued, in the order in which they entered. -/
def started (trace : List Event) : List OutboundCall :=
  (trace.filterMap entered?).filter fun c => c.number ∈ (queued trace).map OutboundCall.number

section Append

variable {trace : List Event} {c d : OutboundCall} {e : Event}

theorem queued_append (trace : List Event) (e : Event) :
    queued (trace ++ [e]) = queued trace ++ e.dispatched?.toList := by
  unfold queued
  rw [List.filterMap_append]
  cases e <;> rfl

theorem unqueued_append (trace : List Event) (e : Event) :
    unqueued (trace ++ [e]) = unqueued trace ++ e.taken?.toList := by
  unfold unqueued
  rw [List.filterMap_append]
  cases e <;> rfl

theorem mem_queued : c ∈ queued trace ↔ .dispatched c ∈ trace := by
  unfold queued
  rw [List.mem_filterMap]
  constructor
  · rintro ⟨e, inside, is⟩
    cases e <;> cases is
    exact inside
  · intro inside
    exact ⟨_, inside, rfl⟩

theorem started_dispatched (unentered : ∀ d, .entered d ∈ trace → d.number ≠ c.number) :
    started (trace ++ [.dispatched c]) = started trace := by
  unfold started
  rw [queued_append, List.filterMap_append, List.map_append]
  refine (congrArg (List.filter _) (List.append_nil _)).trans (List.filter_congr fun d inside => ?_)
  obtain ⟨e, there, is⟩ := List.mem_filterMap.1 inside
  have other : d.number ≠ c.number := by
    cases e <;> cases is
    exact unentered d there
  simp [dispatched?, other]

theorem started_entered (inside : c ∈ queued trace) :
    started (trace ++ [.entered c]) = started trace ++ [c] := by
  have known : c.number ∈ (queued trace).map OutboundCall.number := List.mem_map_of_mem inside
  unfold started
  rw [queued_append, List.filterMap_append]
  simp only [dispatched?, Option.toList_none, List.append_nil, List.filter_append]
  congr 1
  exact List.filter_cons_of_pos (by simpa using known)

theorem started_entered_of_other (other : ∀ d ∈ queued trace, d.number ≠ c.number) :
    started (trace ++ [.entered c]) = started trace := by
  have unknown : c.number ∉ (queued trace).map OutboundCall.number := by
    rintro inside
    obtain ⟨d, there, same⟩ := List.mem_map.1 inside
    exact other d there same
  unfold started
  rw [queued_append, List.filterMap_append]
  simp only [dispatched?, Option.toList_none, List.append_nil, List.filter_append]
  rw [show [Event.entered c].filterMap entered? = [c] from rfl,
    List.filter_cons_of_neg (by simpa using unknown), List.filter_nil, List.append_nil]

theorem started_of_quiet (undispatched : e.dispatched? = none) (unentered : e.entered? = none) :
    started (trace ++ [e]) = started trace := by
  unfold started
  rw [queued_append, List.filterMap_append, undispatched]
  simp [unentered]

end Append

end Event

namespace Traffic

variable {s t u : Traffic} {e : Event} {trace past later : List Event} {c d : OutboundCall}
  {marshalsExceptions : Bool}

/-- A run in which the host serves its queue first in, first out. What it drops it does not reorder. -/
inductive Served : Traffic → List Event → Traffic → Prop where
  | refl (s : Traffic) : Served s [] s
  | next {s t u : Traffic} {past : List Event} {e : Event} (run : Served s past t) (step : Step t e u)
      (first : ∀ c, e = .taken c → t.queue = c :: u.queue)
      (order : u.queue.Sublist (t.queue ++ e.dispatched?.toList)) : Served s (past ++ [e]) u

theorem Served.path (run : Served s trace t) : Path s trace t := by
  induction run with
  | refl => exact .refl _
  | next _ step _ _ ih => exact ih.next step

/-- The call that the host thread took off the queue last, until it enters or is skipped. -/
def fresh (s : Traffic) : List OutboundCall :=
  match s.frames with
  | ⟨c, false, .fresh⟩ :: _ => [c]
  | _ => []

theorem fresh_of_head (other : ∀ f ∈ s.frames.head?, f.stage ≠ .fresh) : s.fresh = [] := by
  unfold fresh
  split
  · rename_i c rest top
    exact absurd rfl (other ⟨c, false, .fresh⟩ (by rw [top]; rfl))
  · rfl

theorem fresh_of_stage {f : Frame} {rest : List Frame} (top : s.frames = f :: rest)
    (other : f.stage ≠ .fresh) : s.fresh = [] := by
  apply fresh_of_head
  rw [top]
  rintro _ ⟨⟩
  exact other

theorem fresh_of_inHost (inside : ∀ f ∈ s.frames, f.stage.inHost = true) : s.fresh = [] := by
  apply fresh_of_head
  intro f top is
  have impossible := inside f (List.mem_of_mem_head? top)
  rw [is] at impossible
  cases impossible

/-- A call that is taken off the queue is the next to enter. -/
theorem Step.fresh (stacked : s.Stacked) (step : Step s e t) :
    (∃ c, e = .taken c ∧ s.fresh = [] ∧ t.fresh = [c]) ∨
      (∃ c inline rest, e = .entered c ∧ s.frames = ⟨c, inline, .fresh⟩ :: rest ∧ t.fresh = []) ∨
      e.taken? = none ∧ e.entered? = none ∧ (t.fresh = [] ∨ t.fresh = s.fresh) := by
  have below := stacked.below
  cases step with
  | take c queue owns ready => exact .inl ⟨c, rfl, fresh_of_inHost (stacked.inHost ready), rfl⟩
  | requestInline => exact .inr (.inr ⟨rfl, rfl, .inl rfl⟩)
  | @advance c inline stage stage' rest e _ top advance =>
    have left (other : stage' ≠ .fresh) :
        ({ s with frames := ⟨c, inline, stage'⟩ :: rest } : Traffic).fresh = [] := fresh_of_stage rfl other
    cases advance with
    | enter => exact .inr (.inl ⟨c, inline, rest, rfl, top, left (by simp)⟩)
    | _ => exact .inr (.inr ⟨rfl, rfl, .inl (left (by simp))⟩)
  | complete => exact .inr (.inr ⟨rfl, rfl, .inl (fresh_of_stage rfl (by simp))⟩)
  | @finish c inline rest _ top =>
    rw [top] at below
    cases inline with
    | true => exact .inr (.inr ⟨rfl, rfl, .inl rfl⟩)
    | false => exact .inr (.inr ⟨rfl, rfl, .inl (fresh_of_inHost below)⟩)
  | unwind _ top | returnInline _ top =>
    rw [top] at below
    exact .inr (.inr ⟨rfl, rfl, .inl (fresh_of_inHost below)⟩)
  | _ => exact .inr (.inr ⟨rfl, rfl, .inr rfl⟩)

/-! ## Runs -/

/-- A call that was queued is not one that somebody is about to hand over, or that runs in line. -/
theorem number_ne_of_queued (path : Path (start marshalsExceptions) trace s) (queued : d ∈ Event.queued trace)
    (here : c ∈ s.hand ∨ c ∈ (s.frames.filter Frame.inline).map Frame.call) : d.number ≠ c.number := by
  obtain ⟨left, parted⟩ := exists_parted path
  have apart := parted.distinct
  have elsewhere : d ∈ s.waiting ∨ d ∈ Event.answered trace :=
    (waiting_of_dispatched path (Event.mem_queued.1 queued)).imp_right Event.mem_answered.2
  unfold inProgress at apart
  simp only [List.map_append, List.nodup_append, List.mem_append] at apart
  obtain ⟨⟨⟨⟨_, _, inHand⟩, _, inline⟩, _, unanswered⟩, _⟩ := apart
  rcases here with hand | frame <;> rcases elsewhere with waiting | answered
  · exact (inHand _ (List.mem_map_of_mem hand) _ (List.mem_map_of_mem waiting)).symm
  · exact (unanswered _ (.inl (.inl (List.mem_map_of_mem hand))) _ (List.mem_map_of_mem answered)).symm
  · exact inline _ (.inr (List.mem_map_of_mem waiting)) _ (List.mem_map_of_mem frame)
  · exact (unanswered _ (.inr (List.mem_map_of_mem frame)) _ (List.mem_map_of_mem answered)).symm

/-- A call that its caller has yet to hand over has not entered the host. -/
theorem unentered_of_path (path : Path (start marshalsExceptions) trace s) :
    ∀ c ∈ s.hand, ∀ d, .entered d ∈ trace → d.number ≠ c.number := by
  induction path with
  | refl => exact fun _ inside => nomatch inside
  | @next s t past e path step ih =>
    have kept := kept_of_path path
    have old {c : OutboundCall} (inside : c ∈ s.hand) (other : ∀ d, e ≠ .entered d) :
        ∀ d, .entered d ∈ past ++ [e] → d.number ≠ c.number := by
      intro d entered
      rcases List.mem_append.1 entered with there | here
      · exact ih c inside d there
      · exact absurd (List.mem_singleton.1 here).symm (other d)
    intro c inside
    have live := kept.custody.distinct
    cases step with
    | request c' free granted =>
      rcases List.mem_cons.1 inside with rfl | there
      · intro d entered
        rcases List.mem_append.1 entered with there | here
        · have registered := registered_of_call path there rfl
          have issued := kept.issued registered
          exact ((Bridge.Move.register c granted).old_of_issued issued rfl).symm
        · cases List.mem_singleton.1 here
      · exact old there (by simp)
    | dispatch c' hand owns | reject c' hand owns =>
      exact old (owns.mem_iff.2 (List.mem_cons_of_mem _ inside)) (by simp)
    | advance _ top advance =>
      cases advance with
      | enter =>
        intro d entered
        rcases List.mem_append.1 entered with there | here
        · exact ih c inside d there
        · cases List.mem_singleton.1 here
          -- both have yet to end, so each has a number of its own
          unfold Traffic.live at live
          rw [List.append_assoc, List.map_append, top] at live
          refine ((List.nodup_append.1 live).2.2 _ (List.mem_map_of_mem inside) _ ?_).symm
          simp [Stage.isLive]
      | _ => exact old inside (by simp)
    | _ => exact old inside (by simp)

/-- What waits in the queue was queued, and so was what the host thread runs for others. -/
theorem queued_of_path (path : Path (start marshalsExceptions) trace s) :
    (∀ c ∈ s.queue, c ∈ Event.queued trace) ∧
      ∀ f ∈ s.frames, f.inline = false → f.call ∈ Event.queued trace := by
  induction path with
  | refl => exact ⟨fun _ inside => (nomatch inside), fun _ inside => (nomatch inside)⟩
  | @next s t past e path step ih =>
    obtain ⟨queue, frames⟩ := ih
    have old {c : OutboundCall} (known : c ∈ Event.queued past) : c ∈ Event.queued (past ++ [e]) := by
      rw [Event.queued_append]
      exact List.mem_append_left _ known
    cases step with
    | dispatch c hand owns =>
      refine ⟨fun d inside => ?_, fun f inside own => old (frames f inside own)⟩
      rcases List.mem_append.1 inside with there | here
      · exact old (queue d there)
      · rw [List.mem_singleton.1 here, Event.queued_append]
        exact List.mem_append_right _ (List.mem_singleton_self c)
    | drop c rest owns =>
      refine ⟨fun d inside => ?_, fun f inside own => old (frames f inside own)⟩
      exact old (queue d (owns.mem_iff.2 (List.mem_cons_of_mem c inside)))
    | take c rest owns =>
      refine ⟨fun d inside => ?_, fun f inside own => ?_⟩
      · exact old (queue d (owns.mem_iff.2 (List.mem_cons_of_mem c inside)))
      · rcases List.mem_cons.1 inside with rfl | there
        · exact old (queue c (owns.mem_iff.2 List.mem_cons_self))
        · exact old (frames f there own)
    | requestInline c =>
      refine ⟨fun d inside => old (queue d inside), fun f inside own => ?_⟩
      rcases List.mem_cons.1 inside with rfl | there
      · cases own
      · exact old (frames f there own)
    | advance _ top | complete _ top =>
      rw [top] at frames
      have here := frames _ List.mem_cons_self
      refine ⟨fun d inside => old (queue d inside), fun f inside own => old ?_⟩
      rcases List.mem_cons.1 inside with rfl | there
      · exact here own
      · exact frames f (List.mem_cons_of_mem _ there) own
    | @finish c inline rest _ top =>
      rw [top] at frames
      refine ⟨fun d inside => old (queue d inside), fun f inside own => old ?_⟩
      rcases List.mem_append.1 inside with here | there
      · cases inline with
        | false => cases here
        | true =>
          obtain rfl := List.mem_singleton.1 here
          cases own
      · exact frames f (List.mem_cons_of_mem _ there) own
    | unwind _ top | returnInline _ top =>
      rw [top] at frames
      exact ⟨fun d inside => old (queue d inside),
        fun f inside own => old (frames f (List.mem_cons_of_mem _ inside) own)⟩
    | _ => exact ⟨fun d inside => old (queue d inside), fun f inside own => old (frames f inside own)⟩

theorem hand_of_dispatched (step : Step s (.dispatched c) t) : c ∈ s.hand := by
  generalize is : Event.dispatched c = e at step
  cases step with
  | dispatch d hand owns =>
    cases is
    exact owns.mem_iff.2 List.mem_cons_self
  | advance _ _ advance =>
    subst is
    cases advance
  | _ => cases is

/-- A call is queued once. -/
theorem queued_distinct (path : Path (start marshalsExceptions) trace s) :
    ((Event.queued trace).map OutboundCall.number).Nodup := by
  induction path with
  | refl => exact .nil
  | @next s t past e path step ih =>
    rw [Event.queued_append, List.map_append]
    cases e with
    | dispatched c =>
      refine List.nodup_append.2 ⟨ih, List.nodup_singleton _, ?_⟩
      rintro _ before _ now
      obtain ⟨d, queued, rfl⟩ := List.mem_map.1 before
      obtain rfl := List.mem_singleton.1 now
      exact number_ne_of_queued path queued (.inl (hand_of_dispatched step))
    | _ => simpa [Event.dispatched?] using ih

/-- Calls that were queued enter in the order in which they were taken off the queue. -/
theorem started_unqueued (path : Path (start marshalsExceptions) trace s) :
    (Event.started trace ++ s.fresh).Sublist (Event.unqueued trace) := by
  induction path with
  | refl => exact .refl _
  | @next s t past e path step ih =>
    have before : (Event.started past).Sublist (Event.unqueued past) :=
      (List.sublist_append_left _ _).trans ih
    rw [Event.unqueued_append]
    rcases step.fresh (stacked_of_path path) with ⟨c, rfl, _, fresh⟩ | ⟨c, inline, rest, rfl, top, fresh⟩ |
      ⟨untaken, unentered, fresh⟩
    · rw [Event.started_of_quiet rfl rfl, fresh]
      exact before.append_right [c]
    · simp only [Event.taken?, Option.toList_none, List.append_nil, fresh]
      cases inline with
      | true =>
        have here : c ∈ (s.frames.filter Frame.inline).map Frame.call := by
          rw [top]
          exact List.mem_cons_self
        rwa [Event.started_entered_of_other fun d queued => number_ne_of_queued path queued (.inr here)]
      | false =>
        have queued := (queued_of_path path).2 ⟨c, false, .fresh⟩ (top ▸ List.mem_cons_self) rfl
        have fresh : s.fresh = [c] := by
          unfold Traffic.fresh
          rw [top]
        rwa [Event.started_entered queued, ← fresh]
    · have same : Event.started (past ++ [e]) = Event.started past := by
        cases e with
        | dispatched c => exact Event.started_dispatched (unentered_of_path path c (hand_of_dispatched step))
        | entered c => cases unentered
        | _ => exact Event.started_of_quiet rfl rfl
      rw [same, untaken, Option.toList_none, List.append_nil]
      rcases fresh with none_ | old
      · rwa [none_, List.append_nil]
      · rwa [old]

/-- A queue that is served first in, first out is taken off in the order in which it was filled. -/
theorem Served.unqueued (run : Served s trace t) (idle : s.queue = []) :
    (Event.unqueued trace ++ t.queue).Sublist (Event.queued trace) := by
  induction run with
  | refl =>
    rw [idle]
    exact .refl _
  | @next t u past e run step first order ih =>
    have before := ih
    rw [Event.unqueued_append, Event.queued_append]
    cases e with
    | taken c =>
      rw [first c rfl] at before
      simpa [Event.taken?, Event.dispatched?] using before
    | dispatched c =>
      have queue : u.queue.Sublist (t.queue ++ [c]) := order
      simp only [Event.taken?, Event.dispatched?, Option.toList_none, Option.toList_some, List.append_nil]
      refine (queue.append_left _).trans ?_
      rw [← List.append_assoc]
      exact before.append_right [c]
    | _ =>
      have queue : u.queue.Sublist t.queue := by simpa [Event.dispatched?] using order
      simpa [Event.taken?, Event.dispatched?] using (queue.append_left _).trans before

/-- The order in which the host thread starts the calls that are queued for it. -/
structure Ordered (trace : List Event) : Prop where
  /-- No call is queued twice. -/
  distinct : ((Event.queued trace).map OutboundCall.number).Nodup
  /-- Calls are taken off the queue in the order in which they were queued. -/
  unqueued : (Event.unqueued trace).Sublist (Event.queued trace)
  /-- In that order they enter the host. -/
  started : (Event.started trace).Sublist (Event.queued trace)
  /-- A call that was queued before the caller of another passed the mutex has the lower number, and the
  other does not start before it. -/
  early : ∀ past d later, trace = past ++ .registered d :: later → ∀ c ∈ Event.queued past,
    c.number < d.number ∧ ¬ [d, c].Sublist (Event.started trace)
  /-- Where calls are queued in the order in which their callers passed the mutex, so do they start. -/
  increasing : ((Event.queued trace).map OutboundCall.number).Pairwise (· < ·) →
    ((Event.started trace).map OutboundCall.number).Pairwise (· < ·)

theorem number_lt_of_queued (path : Path (start marshalsExceptions) (past ++ .registered d :: later) u)
    (queued : c ∈ Event.queued past) : c.number < d.number := by
  obtain ⟨s, t, before, step, _⟩ := path.split_cons
  have registered := registered_of_call before (Event.mem_queued.1 queued) rfl
  have issued := (kept_of_path before).issued registered
  obtain ⟨_, number, _⟩ := step.move.nextCall_of_registered
  rw [number]
  exact issued.2

/-- A call cannot be queued ahead of one that was queued before it was registered. -/
theorem not_queued_ahead (path : Path (start marshalsExceptions) (past ++ .registered d :: later) u)
    (queued : c ∈ Event.queued past) :
    ¬ [d, c].Sublist (Event.queued (past ++ .registered d :: later)) := by
  intro ahead
  have distinct := List.Nodup.of_map _ (queued_distinct path)
  unfold Event.queued at ahead distinct
  rw [List.filterMap_append] at ahead distinct
  obtain ⟨first, second, parts, first', second'⟩ := List.sublist_append_iff.1 ahead
  cases first with
  | nil =>
    obtain rfl : [d, c] = second := parts
    exact (List.nodup_append.1 distinct).2.2 c queued c (second'.subset (by simp)) rfl
  | cons d' rest =>
    obtain ⟨rfl, _⟩ := List.cons.inj parts
    have before : d ∈ Event.queued past := first'.subset List.mem_cons_self
    exact absurd (number_lt_of_queued path before) (Nat.lt_irrefl _)

/-- Whatever the order in which callers, the host thread and shutdown take their steps, a host that
serves its queue first in, first out starts the calls of engine threads in the order in which they were
queued. Callers pass the mutex before they queue, so this is the order of the numbers for those that do
not overlap. -/
theorem starts_in_queue_order (run : Served (start marshalsExceptions) trace s) : Ordered trace := by
  have unqueued : (Event.unqueued trace).Sublist (Event.queued trace) :=
    (List.sublist_append_left _ _).trans (run.unqueued rfl)
  have started : (Event.started trace).Sublist (Event.queued trace) :=
    ((List.sublist_append_left _ _).trans (started_unqueued run.path)).trans unqueued
  constructor
  case distinct => exact queued_distinct run.path
  case unqueued => exact unqueued
  case started => exact started
  case early =>
    rintro past d later rfl c queued
    exact ⟨number_lt_of_queued run.path queued,
      fun ahead => not_queued_ahead run.path queued (ahead.trans started)⟩
  case increasing => exact fun increasing => increasing.sublist (started.map OutboundCall.number)

/-- Two callers overlap: the one that passes the mutex first is the last to queue its call. -/
theorem exists_overtaking : ∃ trace s, Served (start false) trace s ∧
    (Event.queued trace).map OutboundCall.number = [2, 1] ∧
    (Event.started trace).map OutboundCall.number = [2, 1] := by
  let first : OutboundCall := ⟨0, 1, .name "f", []⟩
  let second : OutboundCall := ⟨0, 2, .name "g", []⟩
  have ready {s : Traffic} (runs : s.Runs) (idle : s.frames = []) : s.Ready :=
    ⟨runs, fun f top => by
      rw [idle] at top
      cases top⟩
  have registered := ((Served.refl (start false)).next (.request first rfl rfl) (by simp) (.refl _)).next
    (.request second rfl rfl) (by simp) (.refl _)
  have queued := (registered.next (.dispatch second [first] (.refl _)) (by simp) (.refl _)).next
    (.dispatch first [] (.refl _)) (by simp) (.refl _)
  have entered := (queued.next (.take second [first] (.refl _) (ready ⟨rfl, rfl⟩ rfl)) (by simp; rfl)
    (List.sublist_cons_self _ _)).next (.advance ⟨rfl, rfl⟩ rfl (.enter rfl)) (by simp) (.refl _)
  have ended := ((entered.next (.advance ⟨rfl, rfl⟩ rfl (.compute .void)) (by simp) (.refl _)).next
    (.complete ⟨rfl, rfl⟩ rfl) (by simp) (.refl _)).next (.finish ⟨rfl, rfl⟩ rfl) (by simp) (.refl _)
  have entered' := (ended.next (.take first [] (.refl _) (ready ⟨rfl, rfl⟩ rfl)) (by simp; rfl)
    (List.sublist_cons_self _ _)).next (.advance ⟨rfl, rfl⟩ rfl (.enter rfl)) (by simp) (.refl _)
  exact ⟨_, _, entered', by decide, by decide⟩

theorem starts_in_queue_order_of_overtaking : ∃ trace s, Served (start false) trace s ∧
    (Event.started trace).map OutboundCall.number = [2, 1] ∧ Ordered trace := by
  obtain ⟨trace, s, run, _, started⟩ := exists_overtaking
  exact ⟨trace, s, run, started, starts_in_queue_order run⟩

/-- So calls do not always start in the order in which their callers passed the mutex. -/
theorem started_out_of_number : ¬ ∀ trace s, Served (start false) trace s →
    ((Event.started trace).map OutboundCall.number).Pairwise (· < ·) := by
  intro always
  obtain ⟨trace, s, run, _, started⟩ := exists_overtaking
  have increasing := always trace s run
  rw [started] at increasing
  revert increasing
  decide

end Traffic

end ScriptBoundary
