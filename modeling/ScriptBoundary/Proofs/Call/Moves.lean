import Mathlib.Data.List.Nodup
import ScriptBoundary.Proofs.Call.Traffic

/-!
What a step does to the bridge, and what it does to each latch. Numbers are handed out in order, a
latch leaves `pending` once and never comes back, and the pending set is what was registered and
neither collected nor drained.
-/

namespace ScriptBoundary

/-- What a step does to the latch of a call. -/
inductive Latch.Turn (call : Nat) : Latch → Event → Latch → Prop where
  | opened (c : OutboundCall) (own : c.number = call) : Turn call .taken (.registered c) .pending
  | completed (c : OutboundCall) (result : Option Value) (own : c.number = call) :
      Turn call .pending (.delivered c result true) (.done result)
  | cancelled : Turn call .pending (.cancelled call true) .cancelled
  | collected (c : OutboundCall) (result : Option Value) (own : c.number = call) :
      Turn call (.done result) (.returned c result) .taken
  | kept {latch : Latch} {e : Event} (unsignalled : e.signals call = false)
      (old : ∀ c, e = .registered c → c.number ≠ call)
      (uncollected : ∀ c v, e = .returned c (some v) → c.number ≠ call) : Turn call latch e latch

namespace Latch.Turn

variable {call : Nat} {latch latch' : Latch} {e : Event}

/-- A step signals a latch exactly if the latch leaves `pending` by it. -/
theorem signals_iff (turn : Turn call latch e latch') :
    e.signals call = true ↔ latch = .pending ∧ latch' ≠ .pending := by
  cases turn with
  | opened c own => simp [Event.signals]
  | completed c result own => simp [Event.signals, own]
  | cancelled => simp [Event.signals]
  | collected c result own => simp [Event.signals]
  | kept unsignalled => simp [unsignalled]

theorem signalled (turn : Turn call latch e latch') (old : ∀ c, e = .registered c → c.number ≠ call)
    (left : latch ≠ .pending) : latch' ≠ .pending := by
  cases turn with
  | opened c own => exact absurd own (old c rfl)
  | completed | cancelled => exact absurd rfl left
  | collected => exact fun same => nomatch same
  | kept => exact left

theorem cancelled_of_cancelled (turn : Turn call .cancelled e latch') : latch' = .cancelled := by
  cases turn with
  | kept => rfl

theorem taken_of_taken (turn : Turn call .taken e latch')
    (old : ∀ c, e = .registered c → c.number ≠ call) : latch' = .taken := by
  cases turn with
  | opened c own => exact absurd own (old c rfl)
  | kept => rfl

/-! A latch turns by an offer of a result, by a cancellation and by a collection of its own call. -/

theorem of_complete (c : OutboundCall) (result : Option Value) (latch : Latch) :
    Turn c.number latch (.delivered c result latch.isPending) (latch.complete result).2 := by
  cases latch with
  | pending => exact .completed c result rfl
  | _ =>
    apply Turn.kept
    · simp [Event.signals, Latch.isPending]
    · rintro _ ⟨⟩
    · rintro _ _ ⟨⟩

theorem of_cancel (call : Nat) (latch : Latch) :
    Turn call latch (.cancelled call latch.isPending) latch.cancel.2 := by
  cases latch with
  | pending => exact .cancelled
  | _ =>
    apply Turn.kept
    · simp [Event.signals, Latch.isPending]
    · rintro _ ⟨⟩
    · rintro _ _ ⟨⟩

theorem of_take (c : OutboundCall) {latch : Latch} (signalled : latch ≠ .pending) :
    Turn c.number latch (.returned c latch.take.1) latch.take.2 := by
  cases latch with
  | pending => exact absurd rfl signalled
  | done result => exact .collected c result rfl
  | cancelled | taken =>
    apply Turn.kept rfl
    · rintro _ ⟨⟩
    · rintro _ _ ⟨⟩

end Latch.Turn

namespace Bridge

/-- What a step does to the bridge. -/
inductive Move : Bridge → Event → Bridge → Prop where
  | register {b} (c : OutboundCall) (granted : b.register.1 = some c.number) :
      Move b (.registered c) b.register.2
  | deliver {b} (c : OutboundCall) (result : Option Value) :
      Move b (.delivered c result (b.deliver c.number result).1) (b.deliver c.number result).2
  | collect {b} (c : OutboundCall) (signalled : b.latch c.number ≠ .pending) :
      Move b (.returned c (b.collect c.number).1) (b.collect c.number).2
  | close {b} (first : b.shutDown = false) : Move b (.shutDown b.pending) b.close
  | cancel {b} (call : Nat) : Move b (.cancelled call (b.cancel call).1) (b.cancel call).2
  | quiet {b e} (quiet : e.isQuiet = true) : Move b e b

/-- The number was handed out to a call. -/
def Issued (b : Bridge) (call : Nat) : Prop := 1 ≤ call ∧ call < b.nextCall

instance (b : Bridge) (call : Nat) : Decidable (b.Issued call) :=
  inferInstanceAs (Decidable (1 ≤ call ∧ call < b.nextCall))

namespace Move

variable {b b' : Bridge} {e : Event} {call : Nat}

theorem nextCall_of_registered {c : OutboundCall} (move : Move b (.registered c) b') :
    b.shutDown = false ∧ c.number = b.nextCall ∧ b'.nextCall = b.nextCall + 1 := by
  cases move with
  | register _ granted =>
    obtain ⟨open_, same⟩ := open_of_granted granted
    rw [register_of_open open_]
    exact ⟨open_, same, rfl⟩
  | quiet quiet => cases quiet

theorem nextCall_of_other (move : Move b e b') (other : ∀ c, e ≠ .registered c) :
    b'.nextCall = b.nextCall := by
  cases move with
  | register c => exact absurd rfl (other c)
  | _ => rfl

theorem issued_iff (move : Move b e b') (first : 1 ≤ b.nextCall) (call : Nat) :
    b'.Issued call ↔ b.Issued call ∨ ∃ c, e = .registered c ∧ c.number = call := by
  unfold Issued
  by_cases new : ∃ c, e = .registered c
  · obtain ⟨c, rfl⟩ := new
    obtain ⟨_, number, next⟩ := move.nextCall_of_registered
    simp only [Event.registered.injEq, exists_eq_left', next, number]
    omega
  · have other : ∀ c, e ≠ .registered c := fun c same => new ⟨c, same⟩
    rw [move.nextCall_of_other other]
    simp [other]

theorem issued (move : Move b e b') (first : 1 ≤ b.nextCall) (issued : b.Issued call) :
    b'.Issued call := (move.issued_iff first call).2 (.inl issued)

/-- Numbers that were handed out are not handed out again. -/
theorem old_of_issued (move : Move b e b') (issued : b.Issued call) {c : OutboundCall}
    (same : e = .registered c) : c.number ≠ call := by
  subst same
  obtain ⟨_, number, _⟩ := move.nextCall_of_registered
  have := issued.2
  omega

/-- What a step does to the bridge turns each latch. -/
theorem turn (move : Move b e b') (unused : ¬ b.Issued call → b.latch call = .taken) :
    Latch.Turn call (b.latch call) e (b'.latch call) := by
  cases move with
  | register c granted =>
    rw [latch_register granted]
    by_cases own : call = c.number
    · obtain ⟨_, number⟩ := open_of_granted granted
      have new : ¬ b.Issued call := by
        rintro ⟨_, before⟩
        omega
      rw [if_pos own, unused new]
      exact .opened c own.symm
    · rw [if_neg own]
      refine .kept rfl (fun c' same => ?_) (by rintro _ _ ⟨⟩)
      cases same
      exact Ne.symm own
  | deliver c result =>
    rw [latch_deliver]
    by_cases own : call = c.number
    · subst own
      rw [if_pos rfl, deliver_fst]
      exact .of_complete c result _
    · rw [if_neg own]
      refine .kept ?_ (by rintro _ ⟨⟩) (by rintro _ _ ⟨⟩)
      simp [Event.signals, Ne.symm own]
  | collect c signalled =>
    rw [latch_collect]
    by_cases own : call = c.number
    · subst own
      rw [if_pos rfl]
      exact .of_take c signalled
    · rw [if_neg own]
      refine .kept rfl (by rintro _ ⟨⟩) fun c' v same => ?_
      obtain ⟨rfl, _⟩ := Event.returned.inj same
      exact Ne.symm own
  | close first =>
    exact .kept rfl (by rintro _ ⟨⟩) (by rintro _ _ ⟨⟩)
  | cancel other =>
    rw [latch_cancel]
    by_cases own : call = other
    · subst own
      rw [if_pos rfl, cancel_fst]
      exact .of_cancel call _
    · rw [if_neg own]
      refine .kept ?_ (by rintro _ ⟨⟩) (by rintro _ _ ⟨⟩)
      simp [Event.signals, Ne.symm own]
  | quiet quiet =>
    refine .kept ?_ (fun c same => ?_) fun c v same => ?_
    · cases e <;> first | rfl | cases quiet
    · subst same
      cases quiet
    · subst same
      cases quiet

end Move

/-! ## Histories -/

/-- Numbers are handed out in order, and no latch is used before its number is. -/
structure Numbered (trace : List Event) (b : Bridge) : Prop where
  first : 1 ≤ b.nextCall
  numbers : (Event.calls trace).map OutboundCall.number = List.range' 1 (b.nextCall - 1)
  unused : ∀ n, ¬ b.Issued n → b.latch n = .taken

/-- The pending set is what was registered and neither collected nor drained. -/
structure Outstanding (trace : List Event) (b : Bridge) : Prop where
  returned : ∀ c result, .returned c result ∈ trace → b.Issued c.number
  drained : ∀ calls, .shutDown calls ∈ trace → ∀ n ∈ calls, b.Issued n
  pending : ∀ n, n ∈ b.pending ↔ b.Issued n ∧
    (∀ c result, .returned c result ∈ trace → c.number ≠ n) ∧
    ∀ calls, .shutDown calls ∈ trace → n ∉ calls
  distinct : b.pending.Nodup

variable {b b' : Bridge} {e : Event} {trace : List Event}

theorem numbered_start (marshalsExceptions : Bool) : Numbered [] (start marshalsExceptions) where
  first := Nat.le_refl 1
  numbers := rfl
  unused _ _ := rfl

theorem outstanding_start (marshalsExceptions : Bool) : Outstanding [] (start marshalsExceptions) where
  returned _ _ inside := nomatch inside
  drained _ inside := nomatch inside
  pending n := by
    simp [start, Issued]
    omega
  distinct := .nil

namespace Numbered

theorem calls_append (trace : List Event) (e : Event) :
    Event.calls (trace ++ [e]) = Event.calls trace ++ e.registered?.toList := by
  unfold Event.calls
  rw [List.filterMap_append]
  cases e <;> rfl

theorem move (numbered : Numbered trace b) (move : Move b e b') : Numbered (trace ++ [e]) b' := by
  have first := numbered.first
  by_cases new : ∃ c, e = .registered c
  · obtain ⟨c, rfl⟩ := new
    obtain ⟨_, number, next⟩ := move.nextCall_of_registered
    constructor
    case first => omega
    case numbers =>
      rw [calls_append, List.map_append, numbered.numbers, next]
      have count : b.nextCall + 1 - 1 = b.nextCall - 1 + 1 := by omega
      rw [count, List.range'_concat, Event.registered?, Option.toList_some, List.map_singleton, number]
      congr 2
      omega
    case unused =>
      intro n beyond
      have before : ¬ b.Issued n := fun issued => beyond (move.issued first issued)
      have turn := move.turn (numbered.unused n)
      rw [numbered.unused n before] at turn
      apply turn.taken_of_taken
      intro c' same own
      exact beyond ((move.issued_iff first n).2 (.inr ⟨c', same, own⟩))
  · have other : ∀ c, e ≠ .registered c := fun c same => new ⟨c, same⟩
    have next := move.nextCall_of_other other
    constructor
    case first => exact next ▸ first
    case numbers =>
      rw [calls_append, next, ← numbered.numbers]
      cases e with
      | registered c => exact absurd rfl (other c)
      | _ => simp [Event.registered?]
    case unused =>
      intro n beyond
      have before : ¬ b.Issued n := fun issued => beyond (move.issued first issued)
      have turn := move.turn (numbered.unused n)
      rw [numbered.unused n before] at turn
      exact turn.taken_of_taken fun c' same => absurd same (other c')

theorem mem_calls {c : OutboundCall} : c ∈ Event.calls trace ↔ .registered c ∈ trace := by
  unfold Event.calls
  rw [List.mem_filterMap]
  constructor
  · rintro ⟨e, inside, is⟩
    cases e <;> cases is
    exact inside
  · intro inside
    exact ⟨_, inside, rfl⟩

/-- A number was handed out exactly if a call was registered under it. -/
theorem issued_iff (numbered : Numbered trace b) {n : Nat} :
    b.Issued n ↔ ∃ c, .registered c ∈ trace ∧ c.number = n := by
  have first := numbered.first
  have listed : n ∈ (Event.calls trace).map OutboundCall.number ↔ b.Issued n := by
    rw [numbered.numbers, List.mem_range'_1]
    unfold Issued
    omega
  rw [← listed, List.mem_map]
  exact exists_congr fun c => and_congr_left fun _ => mem_calls

theorem distinct (numbered : Numbered trace b) :
    ((Event.calls trace).map OutboundCall.number).Nodup := by
  rw [numbered.numbers]
  exact List.nodup_range'

/-- A number belongs to one call. -/
theorem eq_of_number (numbered : Numbered trace b) {c d : OutboundCall}
    (registered : .registered c ∈ trace) (registered' : .registered d ∈ trace)
    (same : c.number = d.number) : c = d :=
  List.inj_on_of_nodup_map numbered.distinct (mem_calls.2 registered) (mem_calls.2 registered') same

end Numbered

/-- A latch is signalled once: never before it has left `pending`, and never after. -/
theorem countP_signals (numbered : Numbered trace b) (move : Move b e b') {n : Nat}
    (counted : trace.countP (Event.signals n) = if b.Issued n ∧ (b.latch n).isSignalled then 1 else 0) :
    (trace ++ [e]).countP (Event.signals n)
      = if b'.Issued n ∧ (b'.latch n).isSignalled then 1 else 0 := by
  have turn := move.turn (numbered.unused n)
  have known := move.issued_iff numbered.first n
  rw [List.countP_append, counted, List.countP_singleton]
  by_cases issued : b.Issued n
  · have issued' : b'.Issued n := known.2 (.inl issued)
    generalize b.latch n = latch, b'.latch n = latch' at turn ⊢
    cases turn with
    | opened c own => exact absurd own (move.old_of_issued issued rfl)
    | completed c result own => simp [issued, issued', Event.signals, own, Latch.isSignalled_iff]
    | cancelled => simp [issued, issued', Event.signals, Latch.isSignalled_iff]
    | collected c result own => simp [issued, issued', Event.signals, Latch.isSignalled_iff]
    | kept unsignalled => simp [issued, issued', unsignalled]
  · rw [numbered.unused n issued] at turn
    generalize b'.latch n = latch' at turn ⊢
    cases turn with
    | opened c own => simp [issued, Event.signals, Latch.isSignalled_iff]
    | kept unsignalled old =>
      have issued' : ¬ b'.Issued n := by
        rw [known]
        rintro (before | ⟨c, same, own⟩)
        · exact issued before
        · exact old c same own
      simp [issued, issued', unsignalled]

namespace Outstanding

theorem of_other (outstanding : Outstanding trace b) (pending : b'.pending = b.pending)
    (next : b'.nextCall = b.nextCall) (unreturned : ∀ c result, e ≠ .returned c result)
    (running : ∀ calls, e ≠ .shutDown calls) : Outstanding (trace ++ [e]) b' := by
  have issued (n : Nat) : b'.Issued n ↔ b.Issued n := by
    unfold Issued
    rw [next]
  have returned (c : OutboundCall) (result : Option Value) :
      .returned c result ∈ trace ++ [e] ↔ .returned c result ∈ trace := by
    rw [List.mem_append, List.mem_singleton]
    exact or_iff_left (Ne.symm (unreturned c result))
  have drained (calls : List Nat) : .shutDown calls ∈ trace ++ [e] ↔ .shutDown calls ∈ trace := by
    rw [List.mem_append, List.mem_singleton]
    exact or_iff_left (Ne.symm (running calls))
  constructor
  case returned => simpa only [returned, issued] using outstanding.returned
  case drained => simpa only [drained, issued] using outstanding.drained
  case pending =>
    intro n
    simpa only [returned, drained, issued, pending] using outstanding.pending n
  case distinct => exact pending ▸ outstanding.distinct

theorem register (outstanding : Outstanding trace b) {c : OutboundCall} (first : 1 ≤ b.nextCall)
    (granted : b.register.1 = some c.number) : Outstanding (trace ++ [.registered c]) b.register.2 := by
  have move : Move b (.registered c) b.register.2 := .register c granted
  obtain ⟨open_, number⟩ := open_of_granted granted
  have pending : b.register.2.pending = b.pending ++ [c.number] := by
    rw [register_of_open open_, number]
  have new : ¬ b.Issued c.number := by
    rintro ⟨_, before⟩
    omega
  constructor
  case returned =>
    intro c' result inside
    exact move.issued first (outstanding.returned c' result (by simpa using inside))
  case drained =>
    intro calls inside n there
    exact move.issued first (outstanding.drained calls (by simpa using inside) n there)
  case pending =>
    intro n
    rw [pending, List.mem_append, List.mem_singleton, outstanding.pending, move.issued_iff first]
    constructor
    · rintro (⟨issued, others⟩ | rfl)
      · exact ⟨.inl issued, by simpa using others⟩
      · refine ⟨.inr ⟨c, rfl, rfl⟩, fun c' result inside same => ?_, fun calls inside there => ?_⟩
        · exact new (same ▸ outstanding.returned c' result (by simpa using inside))
        · exact new (outstanding.drained calls (by simpa using inside) _ there)
    · rintro ⟨issued | ⟨c', same, number'⟩, others⟩
      · exact .inl ⟨issued, by simpa using others⟩
      · cases same
        exact .inr number'.symm
  case distinct =>
    rw [pending]
    apply List.nodup_append.2 ⟨outstanding.distinct, List.pairwise_singleton _ _, ?_⟩
    intro n there m here same
    rw [List.mem_singleton] at here
    subst here
    exact new (same ▸ ((outstanding.pending n).1 there).1)

theorem collect (outstanding : Outstanding trace b) {c : OutboundCall} (issued : b.Issued c.number)
    (result : Option Value) :
    Outstanding (trace ++ [.returned c result]) (b.collect c.number).2 := by
  have pending : (b.collect c.number).2.pending = b.pending.erase c.number := rfl
  constructor
  case returned =>
    intro c' result' inside
    rcases List.mem_append.1 inside with before | here
    · exact outstanding.returned c' result' before
    · cases List.mem_singleton.1 here
      exact issued
  case drained =>
    intro calls inside n there
    exact outstanding.drained calls (by simpa using inside) n there
  case pending =>
    intro n
    rw [pending, outstanding.distinct.mem_erase_iff, outstanding.pending]
    constructor
    · rintro ⟨other, issued', before, others⟩
      refine ⟨issued', fun c' result' inside => ?_, by simpa using others⟩
      rcases List.mem_append.1 inside with there | here
      · exact before c' result' there
      · cases List.mem_singleton.1 here
        exact Ne.symm other
    · rintro ⟨issued', returned, others⟩
      have here : .returned c result ∈ trace ++ [.returned c result] :=
        List.mem_append_right _ (List.mem_singleton_self _)
      refine ⟨Ne.symm (returned c result here), issued', fun c' result' inside => ?_, ?_⟩
      · exact returned c' result' (List.mem_append_left _ inside)
      · simpa using others
  case distinct =>
    rw [pending]
    exact outstanding.distinct.erase _

theorem close (outstanding : Outstanding trace b) :
    Outstanding (trace ++ [.shutDown b.pending]) b.close := by
  have here : .shutDown b.pending ∈ trace ++ [.shutDown b.pending] :=
    List.mem_append_right _ (List.mem_singleton_self _)
  constructor
  case returned =>
    intro c result inside
    exact outstanding.returned c result (by simpa using inside)
  case drained =>
    intro calls inside n there
    rcases List.mem_append.1 inside with before | here
    · exact outstanding.drained calls before n there
    · cases List.mem_singleton.1 here
      exact ((outstanding.pending n).1 there).1
  case pending =>
    intro n
    constructor
    · intro inside
      cases inside
    · rintro ⟨issued, returned, drained⟩
      refine absurd ((outstanding.pending n).2 ⟨issued, ?_, ?_⟩) (drained _ here)
      · intro c result inside
        exact returned c result (List.mem_append_left _ inside)
      · intro calls inside
        exact drained calls (List.mem_append_left _ inside)
  case distinct => exact .nil

theorem move (outstanding : Outstanding trace b) (first : 1 ≤ b.nextCall) (move : Move b e b')
    (known : ∀ c, e.call? = some c → b.Issued c.number) : Outstanding (trace ++ [e]) b' := by
  cases move with
  | register c granted => exact outstanding.register first granted
  | deliver c result =>
    exact outstanding.of_other rfl rfl (fun _ _ same => nomatch same) fun _ same => nomatch same
  | collect c signalled => exact outstanding.collect (known c rfl) _
  | close _ => exact outstanding.close
  | cancel call =>
    exact outstanding.of_other rfl rfl (fun _ _ same => nomatch same) fun _ same => nomatch same
  | quiet quiet =>
    refine outstanding.of_other rfl rfl (fun c result same => ?_) fun calls same => ?_
    all_goals
      subst same
      cases quiet

end Outstanding

end Bridge

/-- What a step does to its bridge is what its event says. -/
theorem Traffic.Step.move {s t : Traffic} {e : Event} (step : Step s e t) : s.bridge.Move e t.bridge := by
  cases step with
  | request c _ granted | requestInline c _ granted _ => exact .register c granted
  | reject c | drop c => exact .deliver c none
  | complete | finish | unwind => exact .deliver _ _
  | return_ c _ _ _ signalled => exact .collect c signalled
  | returnInline _ _ _ signalled => exact .collect _ signalled
  | shutDown _ first => exact .close first
  | cancel call => exact .cancel call
  | destroyAgain _ again =>
    rw [Bridge.destroy_of_shutDown again]
    exact .quiet rfl
  | advance _ _ advance => cases advance <;> exact .quiet rfl
  | _ => exact .quiet rfl

end ScriptBoundary
