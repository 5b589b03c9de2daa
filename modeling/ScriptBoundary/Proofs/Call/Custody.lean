import ScriptBoundary.Proofs.Call.Moves

/-!
Whoever waits for a call waits for somebody. A call whose latch is pending is in exactly one place: in
its caller's hand, in the queue or on the host thread; and however it gets out of there, its latch is
signalled.
-/

namespace ScriptBoundary

namespace Bridge.Move

variable {b b' : Bridge} {c : OutboundCall} {result : Option Value} {accepted : Bool}

theorem signalled_of_delivered (move : Move b (.delivered c result accepted) b') :
    b'.latch c.number ≠ .pending := by
  generalize is : Event.delivered c result accepted = e at move
  cases move with
  | deliver c' result' =>
    cases is
    exact deliver_signals b c.number result
  | quiet quiet =>
    subst is
    cases quiet
  | _ => cases is

end Bridge.Move

namespace Traffic

variable {s t : Traffic} {e : Event} {trace : List Event}

theorem mem_everyone {c : OutboundCall} : c ∈ s.everyone ↔
    c ∈ s.hand ∨ c ∈ s.queue ∨ c ∈ s.waiting ∨ c ∈ s.frames.map Frame.call := by
  unfold everyone
  rw [List.mem_append, List.mem_append, List.mem_append, or_assoc, or_assoc]

theorem mem_everyone_of_live {c : OutboundCall} (inside : c ∈ s.live) : c ∈ s.everyone := by
  rw [mem_everyone]
  unfold live at inside
  rcases List.mem_append.1 inside with there | running
  · rcases List.mem_append.1 there with hand | queue
    · exact .inl hand
    · exact .inr (.inl queue)
  · exact .inr (.inr (.inr ((List.filter_sublist.map Frame.call).subset running)))

theorem map_remains {c : OutboundCall} {inline : Bool} :
    ∀ d ∈ (remains c inline).map Frame.call, d = c := by
  intro d inside
  cases inline with
  | false => cases inside
  | true => exact List.mem_singleton.1 inside

/-- Nobody has to do with a call that was not registered. -/
theorem Step.everyone (step : Step s e t) : ∀ c ∈ t.everyone, c ∈ s.everyone ∨ e = .registered c := by
  intro c inside
  rw [mem_everyone] at inside ⊢
  cases step with
  | request c' | requestInline c' =>
    simp only [List.map_cons, List.mem_cons] at inside
    rw [Event.registered.injEq]
    tauto
  | dispatch c' hand owns =>
    rw [owns.mem_iff]
    simp only [List.mem_append, List.mem_cons] at inside ⊢
    tauto
  | reject c' hand owns =>
    rw [owns.mem_iff]
    simp only [deliver, List.mem_cons] at inside ⊢
    tauto
  | drop c' queue owns =>
    rw [owns.mem_iff]
    simp only [deliver, List.mem_cons] at inside ⊢
    tauto
  | take c' queue owns =>
    rw [owns.mem_iff]
    simp only [List.map_cons, List.mem_cons] at inside ⊢
    tauto
  | advance _ top | complete _ top | unwind _ top | returnInline _ top =>
    rw [top]
    simp only [deliver, collect, List.map_cons, List.mem_cons] at inside ⊢
    tauto
  | @finish c' inline rest _ top =>
    rw [top]
    have left : c ∈ (remains c' inline).map Frame.call → c = c' := map_remains c
    simp only [deliver, List.map_append, List.map_cons, List.mem_append, List.mem_cons] at inside ⊢
    tauto
  | return_ c' waiting waits =>
    rw [waits.mem_iff]
    simp only [collect, List.mem_cons] at inside ⊢
    tauto
  | _ => exact .inl inside

/-- What a step works on was there before. -/
theorem Step.call (step : Step s e t) {c : OutboundCall} (works : e.call? = some c) :
    c ∈ s.everyone := by
  rw [mem_everyone]
  cases step with
  | dispatch c' hand owns | reject c' hand owns =>
    cases works
    exact .inl (owns.mem_iff.2 List.mem_cons_self)
  | drop c' queue owns | take c' queue owns =>
    cases works
    exact .inr (.inl (owns.mem_iff.2 List.mem_cons_self))
  | return_ c' waiting waits =>
    cases works
    exact .inr (.inr (.inl (waits.mem_iff.2 List.mem_cons_self)))
  | advance _ top advance =>
    rw [top]
    cases advance <;>
    · cases works
      exact .inr (.inr (.inr List.mem_cons_self))
  | complete _ top | finish _ top | unwind _ top | returnInline _ top =>
    cases works
    rw [top]
    exact .inr (.inr (.inr List.mem_cons_self))
  | _ => cases works

/-- A frame was there before, or its call has just come to the host thread, got on, or ended. -/
theorem Step.frames (step : Step s e t) : ∀ f ∈ t.frames, f ∈ s.frames ∨ f.stage = .fresh ∨
    (∃ stage, ⟨f.call, f.inline, stage⟩ ∈ s.frames ∧ Advance s.bridge f.call stage e f.stage) ∨
    f.stage = .ended ∨ f.stage = .returning := by
  intro f inside
  cases step with
  | requestInline | take =>
    rcases List.mem_cons.1 inside with rfl | there
    · exact .inr (.inl rfl)
    · exact .inl there
  | @advance c inline stage stage' rest _ _ top advance =>
    rw [top]
    rcases List.mem_cons.1 inside with rfl | there
    · exact .inr (.inr (.inl ⟨stage, List.mem_cons_self, advance⟩))
    · exact .inl (List.mem_cons_of_mem _ there)
  | complete _ top =>
    rw [top]
    rcases List.mem_cons.1 inside with rfl | there
    · exact .inr (.inr (.inr (.inl rfl)))
    · exact .inl (List.mem_cons_of_mem _ there)
  | @finish c inline rest _ top =>
    rw [top]
    rcases List.mem_append.1 inside with here | there
    · cases inline with
      | false => cases here
      | true => exact .inr (.inr (.inr (.inr (List.mem_singleton.1 here ▸ rfl))))
    · exact .inl (List.mem_cons_of_mem _ there)
  | unwind _ top | returnInline _ top =>
    rw [top]
    exact .inl (List.mem_cons_of_mem _ inside)
  | _ => exact .inl inside

/-- A call comes to life with its registration and ends with an offer of no result. -/
theorem Step.live (step : Step s e t) :
    (∃ c, e = .registered c ∧ t.live.Perm (c :: s.live)) ∨
      (∃ c accepted, e = .delivered c none accepted ∧ s.live.Perm (c :: t.live)) ∨
      (∀ c, e ≠ .registered c) ∧ t.live.Perm s.live := by
  unfold Traffic.live
  cases step with
  | request c => exact .inl ⟨c, rfl, .refl _⟩
  | requestInline c => exact .inl ⟨c, rfl, List.perm_middle⟩
  | reject c hand owns => exact .inr (.inl ⟨c, _, rfl, (owns.append_right _).append_right _⟩)
  | drop c queue owns =>
    refine .inr (.inl ⟨c, _, rfl, ?_⟩)
    exact ((owns.append_left _).trans List.perm_middle).append_right _
  | unwind _ top live =>
    refine .inr (.inl ⟨_, _, rfl, ?_⟩)
    simp only [top, List.filter_cons, live, if_true, List.map_cons]
    exact List.perm_middle
  | @finish c inline rest _ top =>
    refine .inr (.inl ⟨c, _, rfl, ?_⟩)
    rw [top]
    cases inline <;> exact List.perm_middle
  | dispatch c hand owns =>
    refine .inr (.inr ⟨fun _ same => (nomatch same), List.Perm.append_right _ ?_⟩)
    rw [← List.append_assoc]
    exact (List.perm_append_singleton _ _).trans (owns.symm.append_right _)
  | take c queue owns =>
    refine .inr (.inr ⟨fun _ same => (nomatch same), ?_⟩)
    exact List.perm_middle.trans (((owns.append_left _).trans List.perm_middle).symm.append_right _)
  | advance _ top advance =>
    refine .inr (.inr ⟨fun _ same => ?_, ?_⟩)
    · cases advance <;> cases same
    · rw [top]
      cases advance <;> exact .refl _
  | complete _ top | returnInline _ top =>
    refine .inr (.inr ⟨fun _ same => (nomatch same), ?_⟩)
    rw [top]
    exact .refl _
  | _ => exact .inr (.inr ⟨fun _ same => (nomatch same), .refl _⟩)

/-- Calls that have not ended have numbers of their own, and every pending latch belongs to one. -/
structure Custody (s : Traffic) : Prop where
  distinct : (s.live.map OutboundCall.number).Nodup
  issued : ∀ c ∈ s.live, s.bridge.Issued c.number
  held : ∀ n, s.bridge.latch n = .pending → n ∈ s.live.map OutboundCall.number

theorem custody_start (marshalsExceptions : Bool) : (start marshalsExceptions).Custody where
  distinct := .nil
  issued _ inside := nomatch inside
  held _ pending := nomatch pending

namespace Custody

/-- A latch that is pending was so before, or its call was just registered. -/
theorem pending_before (numbered : s.bridge.Numbered trace) (step : Step s e t) {n : Nat}
    (pending : t.bridge.latch n = .pending) :
    s.bridge.latch n = .pending ∨ ∃ c, e = .registered c ∧ c.number = n := by
  have turn := step.move.turn (numbered.unused n)
  by_cases new : ∃ c, e = .registered c ∧ c.number = n
  · exact .inr new
  · refine .inl (Classical.byContradiction fun left => ?_)
    exact turn.signalled (fun c same own => new ⟨c, same, own⟩) left pending

theorem step (custody : s.Custody) (numbered : s.bridge.Numbered trace) (step : Step s e t) :
    t.Custody := by
  have move := step.move
  have before {n : Nat} := pending_before numbered step (n := n)
  have issued {n : Nat} : s.bridge.Issued n → t.bridge.Issued n := move.issued numbered.first
  rcases step.live with ⟨c, rfl, born⟩ | ⟨c, accepted, rfl, ends⟩ | ⟨other, same⟩
  · have numbers := born.map OutboundCall.number
    rw [List.map_cons] at numbers
    constructor
    case distinct =>
      apply numbers.nodup_iff.2 (List.nodup_cons.2 ⟨?_, custody.distinct⟩)
      intro inside
      obtain ⟨d, there, same⟩ := List.mem_map.1 inside
      exact move.old_of_issued (custody.issued d there) rfl same.symm
    case issued =>
      intro d inside
      rcases List.mem_cons.1 (born.mem_iff.1 inside) with rfl | there
      · exact (move.issued_iff numbered.first _).2 (.inr ⟨d, rfl, rfl⟩)
      · exact issued (custody.issued d there)
    case held =>
      intro n pending
      rw [numbers.mem_iff, List.mem_cons]
      rcases before pending with was | ⟨c', same, rfl⟩
      · exact .inr (custody.held n was)
      · cases same
        exact .inl rfl
  · have numbers := ends.map OutboundCall.number
    rw [List.map_cons] at numbers
    constructor
    case distinct => exact (List.nodup_cons.1 (numbers.nodup_iff.1 custody.distinct)).2
    case issued =>
      intro d inside
      exact issued (custody.issued d (ends.mem_iff.2 (List.mem_cons_of_mem c inside)))
    case held =>
      intro n pending
      rcases before pending with was | ⟨c', same, _⟩
      · have there := numbers.mem_iff.1 (custody.held n was)
        apply (List.mem_cons.1 there).resolve_left
        intro own
        rw [own] at pending
        exact move.signalled_of_delivered pending
      · cases same
  · have numbers := same.map OutboundCall.number
    constructor
    case distinct => exact numbers.nodup_iff.2 custody.distinct
    case issued =>
      intro d inside
      exact issued (custody.issued d (same.mem_iff.1 inside))
    case held =>
      intro n pending
      rw [numbers.mem_iff]
      exact custody.held n ((before pending).resolve_right fun ⟨c', new, _⟩ => other c' new)

end Custody

/-! ## Runs -/

/-- What is true after every run. -/
structure Kept (trace : List Event) (s : Traffic) : Prop where
  numbered : s.bridge.Numbered trace
  outstanding : s.bridge.Outstanding trace
  custody : s.Custody
  registered : ∀ c ∈ s.everyone, .registered c ∈ trace
  signals : ∀ n, trace.countP (Event.signals n)
    = if s.bridge.Issued n ∧ (s.bridge.latch n).isSignalled then 1 else 0

theorem kept_of_path {marshalsExceptions : Bool} (path : Path (start marshalsExceptions) trace s) :
    s.Kept trace := by
  induction path with
  | refl =>
    constructor
    case numbered => exact Bridge.numbered_start _
    case outstanding => exact Bridge.outstanding_start _
    case custody => exact custody_start _
    case registered =>
      intro _ inside
      cases inside
    case signals =>
      intro n
      have none_ : ¬ ((start marshalsExceptions).bridge.Issued n) := by
        rintro ⟨first, before⟩
        exact absurd before (Nat.not_lt.2 first)
      simp [none_]
  | next _ step ih =>
    have numbered := ih.numbered
    constructor
    case numbered => exact numbered.move step.move
    case outstanding =>
      apply ih.outstanding.move numbered.first step.move
      intro c works
      exact numbered.issued_iff.2 ⟨c, ih.registered c (step.call works), rfl⟩
    case custody => exact ih.custody.step numbered step
    case registered =>
      intro c inside
      rcases step.everyone c inside with before | rfl
      · exact List.mem_append_left _ (ih.registered c before)
      · exact List.mem_append_right _ (List.mem_singleton_self _)
    case signals =>
      intro n
      exact Bridge.countP_signals numbered step.move (ih.signals n)

/-- What a run works on was registered in it. -/
theorem registered_of_call {marshalsExceptions : Bool} {c : OutboundCall}
    (path : Path (start marshalsExceptions) trace s) (inside : e ∈ trace) (works : e.call? = some c) :
    .registered c ∈ trace := by
  obtain ⟨past, later, rfl⟩ := List.append_of_mem inside
  obtain ⟨before, _, first, step, _⟩ := path.split_cons
  exact List.mem_append_left _ ((kept_of_path first).registered c (step.call works))

theorem Kept.issued {c : OutboundCall} (kept : s.Kept trace) (registered : .registered c ∈ trace) :
    s.bridge.Issued c.number := kept.numbered.issued_iff.2 ⟨c, registered, rfl⟩

/-- A latch that holds anything belongs to a call. -/
theorem Kept.issued_of_latch {call : Nat} (kept : s.Kept trace) (used : s.bridge.latch call ≠ .taken) :
    s.bridge.Issued call := by
  by_contra unissued
  exact used (kept.numbered.unused call unissued)

/-- The account of a run. -/
structure Accounted (trace : List Event) (s : Traffic) : Prop where
  /-- A call whose latch is pending was registered, and has not ended, in exactly one place. -/
  live : ∀ n, s.bridge.latch n = .pending →
    (∃ c ∈ s.live, .registered c ∈ trace ∧ c.number = n) ∧
      (s.live.map OutboundCall.number).count n = 1
  /-- However a call ends, its latch is pending no longer. -/
  ends : ∀ e t, Step s e t → ∀ c ∈ s.live, c ∉ t.live → t.bridge.latch c.number ≠ .pending
  /-- The signals of a call are the steps by which its latch leaves `pending`. -/
  signals : ∀ e t, Step s e t → ∀ n,
    e.signals n = true ↔ s.bridge.latch n = .pending ∧ t.bridge.latch n ≠ .pending
  /-- There is one once the latch is pending no longer, and none before. -/
  once : ∀ c, .registered c ∈ trace →
    trace.countP (Event.signals c.number) = if (s.bridge.latch c.number).isSignalled then 1 else 0
  /-- The pending set is what was registered and neither collected nor drained. -/
  pending : ∀ n, n ∈ s.bridge.pending ↔ (∃ c, .registered c ∈ trace ∧ c.number = n) ∧
    (∀ c result, .returned c result ∈ trace → c.number ≠ n) ∧
    ∀ calls, .shutDown calls ∈ trace → n ∉ calls
  distinct : s.bridge.pending.Nodup
  numbers : ((Event.calls trace).map OutboundCall.number).Nodup
  /-- Once every call has returned, nothing is pending. -/
  quiet : (∀ c, .registered c ∈ trace → ∃ result, .returned c result ∈ trace) → s.bridge.pending = []

theorem accounted_of_kept (kept : s.Kept trace) : Accounted trace s := by
  have numbered := kept.numbered
  have pending (n : Nat) : n ∈ s.bridge.pending ↔ (∃ c, .registered c ∈ trace ∧ c.number = n) ∧
      (∀ c result, .returned c result ∈ trace → c.number ≠ n) ∧
      ∀ calls, .shutDown calls ∈ trace → n ∉ calls := by
    rw [← numbered.issued_iff]
    exact kept.outstanding.pending n
  constructor
  case live =>
    intro n waits
    constructor
    · obtain ⟨c, inside, number⟩ := List.mem_map.1 (kept.custody.held n waits)
      exact ⟨c, inside, kept.registered c (mem_everyone_of_live inside), number⟩
    · exact List.count_eq_one_of_mem kept.custody.distinct (kept.custody.held n waits)
  case ends =>
    intro e t step c inside gone
    rcases step.live with ⟨d, rfl, born⟩ | ⟨d, accepted, rfl, ends⟩ | ⟨_, same⟩
    · exact absurd (born.mem_iff.2 (List.mem_cons_of_mem d inside)) gone
    · rcases List.mem_cons.1 (ends.mem_iff.1 inside) with rfl | there
      · exact step.move.signalled_of_delivered
      · exact absurd there gone
    · exact absurd (same.mem_iff.2 inside) gone
  case signals =>
    intro e t step n
    exact (step.move.turn (numbered.unused n)).signals_iff
  case once =>
    intro c registered
    rw [kept.signals]
    simp [kept.issued registered]
  case pending => exact pending
  case distinct => exact kept.outstanding.distinct
  case numbers => exact numbered.distinct
  case quiet =>
    intro all
    apply List.eq_nil_iff_forall_not_mem.2
    intro n inside
    obtain ⟨⟨c, registered, number⟩, returned, _⟩ := (pending n).1 inside
    obtain ⟨result, back⟩ := all c registered
    exact returned c result back number

end Traffic

end ScriptBoundary
