import ScriptBoundary.Proofs.Call.Bridge

/-!
Any number of threads share one latch. What they are told, and when a wait ends, depends on the history
alone: the first signal decides, and its result is handed over once.
-/

namespace ScriptBoundary

namespace Latch

/-- The values that the latch may still hand over. -/
def due : Latch → Nat
  | .pending | .done _ => 1
  | .cancelled | .taken => 0

theorem due_complete (latch : Latch) (result : Option Value) : (latch.complete result).2.due = latch.due := by
  cases latch <;> rfl

theorem due_cancel (latch : Latch) : latch.cancel.2.due ≤ latch.due := by
  cases latch with
  | pending => exact Nat.zero_le _
  | _ => exact Nat.le_refl _

theorem due_take (latch : Latch) : latch.take.1.isSome.toNat + latch.take.2.due ≤ latch.due := by
  cases latch with
  | done result => exact Bool.toNat_le _
  | _ => exact Nat.le_of_eq (Nat.zero_add _)

theorem isCancelled_iff (latch : Latch) : latch.isCancelled = true ↔ latch = .cancelled := by
  cases latch <;> simp [isCancelled]

theorem isPending_take (latch : Latch) : latch.take.2.isPending = latch.isPending := by cases latch <;> rfl

end Latch

/-- Where a thread is with respect to a wait. -/
inductive WaitState where
  | outside
  /-- It is in a wait, and about to look at the latch. -/
  | looking
  /-- It is in a wait, and has to be woken. -/
  | asleep

/-- A latch, and where the threads are that use it. -/
structure SharedLatch where
  latch : Latch
  place : Nat → WaitState

namespace SharedLatch

/-- What a thread does while it holds the mutex of the latch, and what it is told. -/
inductive Event where
  | completed (thread : Nat) (result : Option Value) (accepted : Bool)
  | cancelled (thread : Nat) (accepted : Bool)
  | took (thread : Nat) (got : Option Value)
  | asked (thread : Nat) (answer : Bool)
  | began (thread : Nat)
  | slept (thread : Nat)
  | woke (thread : Nat)
  | returned (thread : Nat)

namespace Event

/-- A result or a cancellation is offered, be it accepted or not. -/
def isSignal : Event → Bool
  | .completed .. | .cancelled .. => true
  | _ => false

/-- A signal that was told that it is accepted. -/
def wins : Event → Bool
  | .completed _ _ accepted | .cancelled _ accepted => accepted
  | _ => false

def isTake : Event → Bool
  | .took .. => true
  | _ => false

/-- A value is handed over. -/
def hands : Event → Bool
  | .took _ got => got.isSome
  | _ => false

end Event

def fresh : SharedLatch := ⟨.pending, fun _ => .outside⟩

def move (s : SharedLatch) (thread : Nat) (place : WaitState) : SharedLatch :=
  { s with place := fun other => if other = thread then place else s.place other }

/-- All who sleep are woken. -/
def woken (s : SharedLatch) (thread : Nat) : WaitState :=
  match s.place thread with
  | .asleep => .looking
  | place => place

/-- The latch after a signal. One that is accepted wakes everybody. -/
def signal (s : SharedLatch) (after : Bool × Latch) : SharedLatch :=
  ⟨after.2, if after.1 = true then s.woken else s.place⟩

inductive Step : SharedLatch → Event → SharedLatch → Prop where
  | complete {s} (thread : Nat) (result : Option Value) (outside : s.place thread = .outside) :
      Step s (.completed thread result (s.latch.complete result).1) (s.signal (s.latch.complete result))
  | cancel {s} (thread : Nat) (outside : s.place thread = .outside) :
      Step s (.cancelled thread s.latch.cancel.1) (s.signal s.latch.cancel)
  | take {s} (thread : Nat) (outside : s.place thread = .outside) :
      Step s (.took thread s.latch.take.1) { s with latch := s.latch.take.2 }
  | ask {s} (thread : Nat) (outside : s.place thread = .outside) :
      Step s (.asked thread s.latch.isCancelled) s
  | begin_ {s} (thread : Nat) (outside : s.place thread = .outside) :
      Step s (.began thread) (s.move thread .looking)
  | sleep {s} (thread : Nat) (looks : s.place thread = .looking) (pending : s.latch.isPending = true) :
      Step s (.slept thread) (s.move thread .asleep)
  /-- Nobody signalled: a thread may wake up by itself, and looks again. -/
  | wake {s} (thread : Nat) (sleeps : s.place thread = .asleep) :
      Step s (.woke thread) (s.move thread .looking)
  | return_ {s} (thread : Nat) (looks : s.place thread = .looking) (left : s.latch.isPending = false) :
      Step s (.returned thread) (s.move thread .outside)

/-- What was done to a new latch, oldest first, and what has become of it. -/
inductive History : List Event → SharedLatch → Prop where
  | start : History [] .fresh
  | next {past : List Event} {s t : SharedLatch} {e : Event} (history : History past s) (step : Step s e t) :
      History (past ++ [e]) t

/-- The latch that a history leaves: the first signal decides, and a take after it empties it. -/
def standing : List Event → Latch
  | [] => .pending
  | .completed _ result _ :: later => if later.any Event.isTake then .taken else .done result
  | .cancelled _ _ :: _ => .cancelled
  | _ :: later => standing later

/-! ## What stands after a history -/

section Standing

variable {past later trace : List Event} {e : Event} {result : Option Value}

theorem standing_append (quiet : ∀ e ∈ past, e.isSignal = false) :
    standing (past ++ later) = standing later := by
  induction past with
  | nil => rfl
  | cons e past ih =>
    obtain ⟨here, before⟩ := List.forall_mem_cons.1 quiet
    rw [List.cons_append, ← ih before]
    cases e <;> first | rfl | cases here

theorem standing_of_quiet (quiet : ∀ e ∈ trace, e.isSignal = false) : standing trace = .pending := by
  rw [← List.append_nil trace, standing_append quiet]
  rfl

/-- A history has a first signal, or none at all. -/
theorem exists_first (trace : List Event) : (∀ e ∈ trace, e.isSignal = false) ∨
    ∃ past e later, trace = past ++ e :: later ∧ e.isSignal = true ∧ ∀ e ∈ past, e.isSignal = false := by
  induction trace with
  | nil => exact .inl (List.forall_mem_nil _)
  | cons e rest ih =>
    cases here : e.isSignal with
    | true => exact .inr ⟨[], e, rest, rfl, here, List.forall_mem_nil _⟩
    | false =>
      rcases ih with quiet | ⟨past, first, later, rfl, signal, quiet⟩
      · exact .inl (List.forall_mem_cons.2 ⟨here, quiet⟩)
      · exact .inr ⟨e :: past, first, later, rfl, signal, List.forall_mem_cons.2 ⟨here, quiet⟩⟩

theorem standing_completed (thread : Nat) (result : Option Value) (accepted : Bool) (later : List Event) :
    standing (.completed thread result accepted :: later)
      = if later.any Event.isTake then .taken else .done result := rfl

/-- The first signal decides. -/
theorem standing_of_first (later : List Event) (quiet : ∀ e ∈ past, e.isSignal = false)
    (signal : e.isSignal = true) :
    (∃ thread accepted, e = .cancelled thread accepted ∧ standing (past ++ e :: later) = .cancelled) ∨
      ∃ thread result accepted, e = .completed thread result accepted ∧
        (standing (past ++ e :: later) = .taken ∨ standing (past ++ e :: later) = .done result) := by
  rw [standing_append quiet]
  cases e with
  | completed thread result accepted =>
    refine .inr ⟨thread, result, accepted, rfl, ?_⟩
    rw [standing_completed]
    split
    · exact .inl rfl
    · exact .inr rfl
  | cancelled thread accepted => exact .inl ⟨thread, accepted, rfl, rfl⟩
  | _ => cases signal

theorem isPending_standing_iff : (standing trace).isPending = true ↔ ∀ e ∈ trace, e.isSignal = false := by
  refine ⟨fun pending => ?_, fun quiet => by rw [standing_of_quiet quiet]; rfl⟩
  rcases exists_first trace with quiet | ⟨past, first, later, rfl, signal, quiet⟩
  · exact quiet
  · rcases standing_of_first later quiet signal with ⟨_, _, -, is⟩ | ⟨_, _, _, -, is | is⟩ <;>
      · rw [is] at pending
        cases pending

/-- A latch is cancelled by the first signal. -/
theorem first_of_cancelled (is : standing trace = .cancelled) :
    ∃ past thread accepted later, trace = past ++ .cancelled thread accepted :: later ∧
      ∀ e ∈ past, e.isSignal = false := by
  rcases exists_first trace with quiet | ⟨past, first, later, rfl, signal, quiet⟩
  · rw [standing_of_quiet quiet] at is
    cases is
  · rcases standing_of_first later quiet signal with ⟨thread, accepted, rfl, -⟩ | ⟨_, _, _, -, other | other⟩
    · exact ⟨past, thread, accepted, later, rfl, quiet⟩
    all_goals
      rw [other] at is
      cases is

/-- A result that the latch holds is that of the first signal. -/
theorem first_of_done (is : standing trace = .done result) :
    ∃ past thread accepted later, trace = past ++ .completed thread result accepted :: later ∧
      ∀ e ∈ past, e.isSignal = false := by
  rcases exists_first trace with quiet | ⟨past, first, later, rfl, signal, quiet⟩
  · rw [standing_of_quiet quiet] at is
    cases is
  · rcases standing_of_first later quiet signal with ⟨_, _, -, other⟩ | ⟨thread, _, accepted, rfl, is' | is'⟩
    · rw [other] at is
      cases is
    · rw [is'] at is
      cases is
    · obtain rfl := Latch.done.inj (is'.symm.trans is)
      exact ⟨past, thread, accepted, later, rfl, quiet⟩

/-- What an event does to the latch. -/
def Event.effect (latch : Latch) : Event → Latch
  | .completed _ result _ => (latch.complete result).2
  | .cancelled _ _ => latch.cancel.2
  | .took _ _ => latch.take.2
  | _ => latch

theorem standing_concat (trace : List Event) (e : Event) :
    standing (trace ++ [e]) = e.effect (standing trace) := by
  induction trace with
  | nil => cases e <;> rfl
  | cons first rest ih =>
    cases first with
    | completed thread result accepted =>
      rw [List.cons_append, standing_completed, standing_completed, List.any_append]
      cases taken : rest.any Event.isTake <;> cases e <;> rfl
    | cancelled thread accepted => cases e <;> rfl
    | _ => exact ih

end Standing

/-! ## Steps and histories -/

section History

variable {past later trace : List Event} {s t : SharedLatch} {e : Event}

theorem Step.latch (step : Step s e t) : t.latch = e.effect s.latch := by
  cases step <;> rfl

/-- A signal is accepted by a latch that is pending, and by no other. -/
theorem Step.wins (step : Step s e t) (signal : e.isSignal = true) : e.wins = s.latch.isPending := by
  cases step with
  | complete thread result => exact Latch.complete_fst result s.latch
  | cancel thread => exact Latch.cancel_fst s.latch
  | _ => cases signal

theorem Step.take_eq {thread : Nat} {got : Option Value} (step : Step s (.took thread got) t) :
    (got, t.latch) = s.latch.take ∧ t.place = s.place := by
  cases step with
  | take => exact ⟨rfl, rfl⟩

/-- A signal is accepted exactly if it takes the latch out of `pending`. -/
theorem Step.wins_balance (step : Step s e t) :
    e.wins.toNat + t.latch.isPending.toNat = s.latch.isPending.toNat := by
  rw [step.latch]
  cases step <;> cases s.latch <;> rfl

theorem Step.hands_balance (step : Step s e t) : e.hands.toNat + t.latch.due ≤ s.latch.due := by
  rw [step.latch]
  cases step with
  | complete thread result => exact Nat.le_of_eq (Nat.zero_add _ ▸ s.latch.due_complete result)
  | cancel thread => exact Nat.zero_add _ ▸ s.latch.due_cancel
  | take thread => exact s.latch.due_take
  | _ => exact Nat.le_of_eq (Nat.zero_add _)

/-- Nobody sleeps on a latch that is signalled. -/
def Awake (s : SharedLatch) : Prop := s.latch.isPending = false → ∀ thread, s.place thread ≠ .asleep

theorem woken_ne_asleep (s : SharedLatch) (thread : Nat) : s.woken thread ≠ .asleep := by
  unfold woken
  split
  · exact fun is => nomatch is
  · assumption

theorem Awake.signal (awake : s.Awake) {after : Bool × Latch} (won : after.1 = s.latch.isPending) :
    (s.signal after).Awake := by
  intro _ thread
  change (if after.1 = true then s.woken else s.place) thread ≠ .asleep
  cases here : s.latch.isPending with
  | true =>
    rw [won, here, if_pos rfl]
    exact s.woken_ne_asleep thread
  | false =>
    rw [won, here, if_neg (by decide)]
    exact awake here thread

theorem Awake.move (awake : s.Awake) {thread : Nat} {place : WaitState}
    (up : s.latch.isPending = false → place ≠ .asleep) : (s.move thread place).Awake := by
  intro left other
  change (if other = thread then place else s.place other) ≠ .asleep
  split
  · exact up left
  · exact awake left other

theorem Step.awake (step : Step s e t) (awake : s.Awake) : t.Awake := by
  cases step with
  | complete thread result => exact awake.signal (Latch.complete_fst result s.latch)
  | cancel thread => exact awake.signal (Latch.cancel_fst s.latch)
  | take thread => exact fun left => awake (s.latch.isPending_take ▸ left)
  | ask => exact awake
  | begin_ | wake | return_ => exact awake.move fun _ is => nomatch is
  | sleep thread _ pending =>
    refine awake.move fun left => ?_
    rw [pending] at left
    cases left

theorem History.latch (history : History trace s) : s.latch = standing trace := by
  induction history with
  | start => rfl
  | next _ step ih => rw [step.latch, ih, standing_concat]

theorem countP_concat (p : Event → Bool) (past : List Event) (e : Event) :
    (past ++ [e]).countP p = past.countP p + (p e).toNat := by
  rw [List.countP_append, List.countP_singleton]
  cases p e <;> rfl

theorem History.wins_balance (history : History trace s) :
    trace.countP Event.wins + s.latch.isPending.toNat = 1 := by
  induction history with
  | start => rfl
  | next _ step ih =>
    have here := step.wins_balance
    rw [countP_concat]
    omega

theorem History.hands_balance (history : History trace s) :
    trace.countP Event.hands + s.latch.due ≤ 1 := by
  induction history with
  | start => exact Nat.le_refl 1
  | next _ step ih =>
    have here := step.hands_balance
    rw [countP_concat]
    omega

/-- Every event of a history is a step from what came before it. -/
theorem History.step_at (history : History (past ++ e :: later) t) :
    ∃ s s', History past s ∧ Step s e s' := by
  generalize whole : past ++ e :: later = trace at history
  induction history generalizing later with
  | start => exact absurd whole (List.append_ne_nil_of_right_ne_nil _ (List.cons_ne_nil _ _))
  | @next before s t last history step ih =>
    rcases List.eq_nil_or_concat later with rfl | ⟨init, last, rfl⟩
    · obtain ⟨rfl, same⟩ := List.append_inj' whole rfl
      obtain rfl := List.singleton_inj.1 same
      exact ⟨s, t, history, step⟩
    · rw [List.concat_eq_append, ← List.cons_append, ← List.append_assoc] at whole
      exact ih (List.append_inj' whole rfl).1

/-- A signal is accepted exactly if it is the first. -/
theorem History.wins_iff (history : History (past ++ e :: later) t) (signal : e.isSignal = true) :
    e.wins = true ↔ ∀ earlier ∈ past, earlier.isSignal = false := by
  obtain ⟨s, s', before, step⟩ := history.step_at
  rw [step.wins signal, before.latch, isPending_standing_iff]

theorem History.wins_of_left (history : History trace s) (left : s.latch.isPending = false) :
    ∃ e ∈ trace, e.wins = true := by
  rcases exists_first trace with quiet | ⟨past, e, later, rfl, signal, quiet⟩
  · rw [history.latch, isPending_standing_iff.2 quiet] at left
    cases left
  · exact ⟨e, List.mem_append_cons_self, (history.wins_iff signal).2 quiet⟩

theorem History.cancelled_iff (history : History trace s) :
    s.latch.isCancelled = true ↔ ∃ thread, .cancelled thread true ∈ trace := by
  rw [Latch.isCancelled_iff]
  constructor
  · intro is
    obtain ⟨past, thread, accepted, later, rfl, quiet⟩ := first_of_cancelled (history.latch ▸ is)
    obtain rfl : accepted = true := (history.wins_iff rfl).2 quiet
    exact ⟨thread, List.mem_append_cons_self⟩
  · rintro ⟨thread, inside⟩
    obtain ⟨past, later, rfl⟩ := List.append_of_mem inside
    rw [history.latch, standing_append ((history.wins_iff rfl).1 rfl)]
    rfl

/-- A result that the latch holds was accepted. -/
theorem History.accepted_of_done (history : History trace s) {result : Option Value}
    (is : s.latch = .done result) : ∃ thread, .completed thread result true ∈ trace := by
  obtain ⟨past, thread, accepted, later, rfl, quiet⟩ := first_of_done (history.latch ▸ is)
  obtain rfl : accepted = true := (history.wins_iff rfl).2 quiet
  exact ⟨thread, List.mem_append_cons_self⟩

/-- A result that was accepted is there until somebody takes it. -/
theorem History.done_of_accepted {between : List Event} {thread : Nat} {result : Option Value}
    (history : History (past ++ .completed thread result true :: between) s)
    (untaken : ∀ e ∈ between, e.isTake = false) : s.latch = .done result := by
  rw [history.latch, standing_append ((history.wins_iff rfl).1 rfl), standing_completed,
    if_neg (by simpa using untaken)]

theorem History.left_of_signal (history : History trace s) (signalled : ∃ e ∈ trace, e.isSignal = true) :
    s.latch.isPending = false := by
  obtain ⟨e, inside, signal⟩ := signalled
  rw [Bool.eq_false_iff, history.latch]
  intro pending
  rw [isPending_standing_iff.1 pending e inside] at signal
  cases signal

theorem History.awake (history : History trace s) : s.Awake := by
  induction history with
  | start => exact fun left => nomatch left
  | next _ step ih => exact step.awake ih

/-- A signal that comes too late changes nothing. -/
theorem Step.eq_of_late (step : Step s e t) (left : s.latch.isPending = false) (signal : e.isSignal = true) :
    t = s := by
  obtain ⟨latch, place⟩ := s
  cases step with
  | complete thread result => cases latch <;> first | rfl | cases left
  | cancel thread => cases latch <;> first | rfl | cases left
  | _ => cases signal

end History

/-! ## One signal, one result -/

/-- What every history of a latch comes to. -/
structure OneShot (trace : List Event) (s : SharedLatch) : Prop where
  latch : s.latch = standing trace
  /-- Of all signals the first is accepted. -/
  first : ∀ past e later, trace = past ++ e :: later → e.isSignal = true →
    (e.wins = true ↔ ∀ earlier ∈ past, earlier.isSignal = false)
  wins_once : trace.countP Event.wins ≤ 1
  /-- One that comes later leaves everything as it is. -/
  late : (∃ e ∈ trace, e.isSignal = true) → ∀ e t, Step s e t → e.isSignal = true →
    e.wins = false ∧ t = s
  hands_once : trace.countP Event.hands ≤ 1
  handed : ∀ past thread v later, trace = past ++ .took thread (some v) :: later →
    (∃ other, .completed other (some v) true ∈ past) ∧ ∀ other, .cancelled other true ∉ past
  /-- To take too early is of no use, and does no harm. -/
  early : (∀ e ∈ trace, e.isSignal = false) → ∀ thread got t, Step s (.took thread got) t →
    got = none ∧ t = s
  /-- The first to take after a result was accepted gets it. -/
  kept : ∀ past thread result between other got later,
    trace = past ++ .completed thread result true :: between ++ .took other got :: later →
      (∀ e ∈ between, e.isTake = false) → got = result
  asked : ∀ past thread answer later, trace = past ++ .asked thread answer :: later →
    (answer = true ↔ ∃ other, .cancelled other true ∈ past)
  cancelled : s.latch.isCancelled = true ↔ ∃ thread, .cancelled thread true ∈ trace
  /-- A wait ends after the signal. -/
  returned : ∀ past thread later, trace = past ++ .returned thread :: later →
    (standing past).isPending = false ∧ ∃ e ∈ past, e.wins = true
  /-- A signal misses nobody who waits. -/
  awake : (∃ e ∈ trace, e.isSignal = true) → ∀ thread, s.place thread ≠ .asleep

theorem one_shot {trace : List Event} {s : SharedLatch} (history : History trace s) : OneShot trace s where
  latch := history.latch
  first past e later is signal := (is ▸ history).wins_iff signal
  wins_once := Nat.le_of_add_right_le (Nat.le_of_eq history.wins_balance)
  late signalled e t step signal := by
    have left := history.left_of_signal signalled
    exact ⟨step.wins signal ▸ left, step.eq_of_late left signal⟩
  hands_once := Nat.le_of_add_right_le history.hands_balance
  handed past thread v later is := by
    obtain ⟨u, u', before, step⟩ := (is ▸ history).step_at
    have stored : u.latch = .done (some v) := Latch.eq_done_of_take (congrArg Prod.fst step.take_eq.1).symm
    refine ⟨before.accepted_of_done stored, fun other inside => ?_⟩
    have gone := before.cancelled_iff.2 ⟨other, inside⟩
    rw [stored] at gone
    cases gone
  early quiet thread got t step := by
    have pending : s.latch = .pending := by rw [history.latch, standing_of_quiet quiet]
    obtain ⟨same, places⟩ := step.take_eq
    rw [pending] at same
    obtain ⟨nothing, latch⟩ := Prod.mk.inj same
    exact ⟨nothing, congr (congrArg SharedLatch.mk (latch.trans pending.symm)) places⟩
  kept past thread result between other got later is untaken := by
    obtain ⟨u, u', before, step⟩ := (is ▸ history).step_at
    have same := step.take_eq.1
    rw [before.done_of_accepted untaken] at same
    exact congrArg Prod.fst same
  asked past thread answer later is := by
    obtain ⟨u, u', before, step⟩ := (is ▸ history).step_at
    cases step
    exact before.cancelled_iff
  cancelled := history.cancelled_iff
  returned past thread later is := by
    obtain ⟨u, u', before, step⟩ := (is ▸ history).step_at
    cases step with
    | return_ _ _ left => exact ⟨before.latch ▸ left, before.wins_of_left left⟩
  awake signalled := history.awake (history.left_of_signal signalled)

/-- Thread 0 wants the result too early, thread 1 waits for it, and thread 3 comes too late to cancel. -/
def contested (v : Value) : List Event :=
  [.took 0 none, .began 1, .slept 1, .completed 2 (some v) true, .cancelled 3 false, .returned 1,
    .took 1 (some v), .asked 0 false]

theorem one_shot_of_contested : ∃ s, History (contested (.int32 5)) s ∧ OneShot (contested (.int32 5)) s := by
  have waiting := (((History.start.next (.take 0 rfl)).next (.begin_ 1 rfl)).next (.sleep 1 rfl rfl))
  have signalled := (waiting.next (.complete 2 (some (.int32 5)) rfl)).next (.cancel 3 rfl)
  have ended := ((signalled.next (.return_ 1 rfl rfl)).next (.take 1 rfl)).next (.ask 0 rfl)
  exact ⟨_, ended, one_shot ended⟩

end SharedLatch

end ScriptBoundary
