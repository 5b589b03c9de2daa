import ScriptBoundary.Call.Outbound
import ScriptBoundary.Proofs.Call.Bridge

/-!
Everyone who uses a bridge at the same time, step by step: callers on engine threads, the host thread
with the calls that it runs inside each other, the tasks on their way to it, and whoever begins
shutdown. A step is what one of them does without the others getting in between.
-/

namespace ScriptBoundary

/-- What a step does, as far as others can tell. -/
inductive Event where
  | registered (c : OutboundCall)
  | refused (id : Identifier) (args : List Value)
  | dispatched (c : OutboundCall)
  | taken (c : OutboundCall)
  | entered (c : OutboundCall)
  | skipped (c : OutboundCall)
  | computed (c : OutboundCall) (v : Value)
  | failed (c : OutboundCall) (e : ResolveError)
  | raised (c : OutboundCall) (text : String)
  | unraised (c : OutboundCall)
  /-- A result is offered to the latch, which accepts it or not. -/
  | delivered (c : OutboundCall) (result : Option Value) (accepted : Bool)
  | returned (c : OutboundCall) (result : Option Value)
  | panicked
  | caught
  | died
  | shutDown (drained : List Nat)
  | cancelled (call : Nat) (accepted : Bool)
  | swept
  | destroyedAgain

namespace Event

/-- The latch of the call leaves `pending`. -/
def signals (call : Nat) : Event → Bool
  | .delivered c _ accepted => c.number = call && accepted
  | .cancelled other accepted => other = call && accepted
  | _ => false

theorem signals_iff {e : Event} {call : Nat} : e.signals call = true ↔
    e = .cancelled call true ∨
      ∃ c result, OutboundCall.number c = call ∧ e = .delivered c result true := by
  cases e <;> simp [signals]

def registered? : Event → Option OutboundCall
  | .registered c => some c
  | _ => none

/-- The call that the step works on, if it is one that was registered before. -/
def call? : Event → Option OutboundCall
  | .dispatched c | .taken c | .entered c | .skipped c | .computed c _ | .failed c _ | .raised c _
  | .unraised c | .delivered c _ _ | .returned c _ => some c
  | _ => none

/-- The bridge takes no part in the step. -/
def isQuiet : Event → Bool
  | .registered _ | .delivered .. | .returned .. | .shutDown _ | .cancelled .. => false
  | _ => true

/-- The calls that were registered, oldest first. -/
def calls (trace : List Event) : List OutboundCall := trace.filterMap registered?

end Event

/-- How far a call has come on the host thread. -/
inductive Stage where
  | fresh
  | executing
  | failed (e : ResolveError)
  | computed (result : Option Value)
  /-- The result was offered, or the call was skipped. -/
  | ended
  /-- The call itself is gone; its caller on the host thread has yet to collect the result. -/
  | returning

/-- A call on the host thread. One that was made there belongs to a caller below it. -/
structure Frame where
  call : OutboundCall
  inline : Bool
  stage : Stage

namespace Stage

/-- Host code runs. -/
def inHost : Stage → Bool
  | .executing | .failed _ => true
  | _ => false

/-- The call has not ended yet. -/
def isLive : Stage → Bool
  | .returning => false
  | _ => true

end Stage

structure Traffic where
  bridge : Bridge
  /-- Calls that were registered and not yet handed over. -/
  hand : List OutboundCall
  /-- Calls whose callers wait for the result. -/
  waiting : List OutboundCall
  queue : List OutboundCall
  /-- Calls on the host thread, the innermost first. -/
  frames : List Frame
  alive : Bool
  panicking : Bool
  /-- Latches that a shutdown has yet to cancel. It holds the mutex until it is through. -/
  sweep : Option (List Nat)

namespace Traffic

def start (marshalsExceptions : Bool) : Traffic :=
  ⟨.start marshalsExceptions, [], [], [], [], true, false, none⟩

/-- Nobody holds the mutex. -/
def Free (s : Traffic) : Prop := s.sweep = none

/-- The host thread runs. -/
def Runs (s : Traffic) : Prop := s.alive = true ∧ s.panicking = false

/-- The host thread runs host code. -/
def Ready (s : Traffic) : Prop := s.Runs ∧ ∀ f ∈ s.frames.head?, f.stage.inHost = true

/-- Calls that have not ended: in their callers' hands, in the queue, or on the host thread. -/
def live (s : Traffic) : List OutboundCall :=
  s.hand ++ s.queue ++ (s.frames.filter fun f => f.stage.isLive).map Frame.call

/-- Every call that somebody has to do with. -/
def everyone (s : Traffic) : List OutboundCall :=
  s.hand ++ s.queue ++ s.waiting ++ s.frames.map Frame.call

def deliver (s : Traffic) (c : OutboundCall) (result : Option Value) : Traffic :=
  { s with bridge := (s.bridge.deliver c.number result).2 }

def collect (s : Traffic) (c : OutboundCall) : Traffic :=
  { s with bridge := (s.bridge.collect c.number).2 }

/-- What is left on the host thread of a call that has ended. -/
def remains (c : OutboundCall) (inline : Bool) : List Frame :=
  if inline then [⟨c, true, .returning⟩] else []

/-- A call gets on without a change to the bridge. -/
inductive Advance (b : Bridge) (c : OutboundCall) : Stage → Event → Stage → Prop where
  | enter (valid : b.isCancelled c.number = false) : Advance b c .fresh (.entered c) .executing
  | skip (cancelled : b.isCancelled c.number = true) : Advance b c .fresh (.skipped c) .ended
  | compute (v : Value) : Advance b c .executing (.computed c v) (.computed (some v))
  | fail (e : ResolveError) : Advance b c .executing (.failed c e) (.failed e)
  | raise (e : ResolveError) (on : b.marshalsExceptions = true) :
      Advance b c (.failed e) (.raised c (c.failureText e)) (.computed none)
  | pass (e : ResolveError) (off : b.marshalsExceptions = false) :
      Advance b c (.failed e) (.unraised c) (.computed none)

inductive Step : Traffic → Event → Traffic → Prop where
  | request {s} (c : OutboundCall) (free : s.Free) (granted : s.bridge.register.1 = some c.number) :
      Step s (.registered c) { s with bridge := s.bridge.register.2, hand := c :: s.hand }
  | requestInline {s} (c : OutboundCall) (free : s.Free)
      (granted : s.bridge.register.1 = some c.number) (ready : s.Ready) :
      Step s (.registered c)
        { s with bridge := s.bridge.register.2, frames := ⟨c, true, .fresh⟩ :: s.frames }
  | refuse {s} (id : Identifier) (args : List Value) (free : s.Free)
      (refused : s.bridge.register.1 = none) : Step s (.refused id args) s
  | dispatch {s} (c : OutboundCall) (hand : List OutboundCall) (owns : s.hand.Perm (c :: hand)) :
      Step s (.dispatched c)
        { s with hand := hand, queue := s.queue ++ [c], waiting := c :: s.waiting }
  /-- The host is dead, or does not take the task. -/
  | reject {s} (c : OutboundCall) (hand : List OutboundCall) (owns : s.hand.Perm (c :: hand)) :
      Step s (.delivered c none (s.bridge.deliver c.number none).1)
        { s.deliver c none with hand := hand, waiting := c :: s.waiting }
  /-- A task is dropped unrun. -/
  | drop {s} (c : OutboundCall) (queue : List OutboundCall) (owns : s.queue.Perm (c :: queue)) :
      Step s (.delivered c none (s.bridge.deliver c.number none).1)
        { s.deliver c none with queue := queue }
  | take {s} (c : OutboundCall) (queue : List OutboundCall) (owns : s.queue.Perm (c :: queue))
      (ready : s.Ready) :
      Step s (.taken c) { s with queue := queue, frames := ⟨c, false, .fresh⟩ :: s.frames }
  | advance {s} {c : OutboundCall} {inline : Bool} {stage stage' : Stage} {rest : List Frame}
      {e : Event} (runs : s.Runs) (top : s.frames = ⟨c, inline, stage⟩ :: rest)
      (advance : Advance s.bridge c stage e stage') :
      Step s e { s with frames := ⟨c, inline, stage'⟩ :: rest }
  | complete {s} {c : OutboundCall} {inline : Bool} {result : Option Value} {rest : List Frame}
      (runs : s.Runs) (top : s.frames = ⟨c, inline, .computed result⟩ :: rest) :
      Step s (.delivered c result (s.bridge.deliver c.number result).1)
        { s.deliver c result with frames := ⟨c, inline, .ended⟩ :: rest }
  | finish {s} {c : OutboundCall} {inline : Bool} {rest : List Frame} (runs : s.Runs)
      (top : s.frames = ⟨c, inline, .ended⟩ :: rest) :
      Step s (.delivered c none (s.bridge.deliver c.number none).1)
        { s.deliver c none with frames := remains c inline ++ rest }
  | panic {s} (ready : s.Ready) : Step s .panicked { s with panicking := true }
  /-- A panic ends a call, and the caller as well if it is on the host thread. -/
  | unwind {s} {c : OutboundCall} {inline : Bool} {stage : Stage} {rest : List Frame}
      (panicking : s.panicking = true) (top : s.frames = ⟨c, inline, stage⟩ :: rest)
      (live : stage.isLive = true) :
      Step s (.delivered c none (s.bridge.deliver c.number none).1)
        { s.deliver c none with frames := rest }
  | catch_ {s} (panicking : s.panicking = true) : Step s .caught { s with panicking := false }
  | die {s} (idle : s.frames = []) : Step s .died { s with alive := false }
  | return_ {s} (c : OutboundCall) (waiting : List OutboundCall)
      (waits : s.waiting.Perm (c :: waiting)) (free : s.Free)
      (signalled : s.bridge.latch c.number ≠ .pending) :
      Step s (.returned c (s.bridge.collect c.number).1) { s.collect c with waiting := waiting }
  | returnInline {s} {c : OutboundCall} {inline : Bool} {rest : List Frame} (runs : s.Runs)
      (top : s.frames = ⟨c, inline, .returning⟩ :: rest) (free : s.Free)
      (signalled : s.bridge.latch c.number ≠ .pending) :
      Step s (.returned c (s.bridge.collect c.number).1) { s.collect c with frames := rest }
  | shutDown {s} (free : s.Free) (first : s.bridge.shutDown = false) :
      Step s (.shutDown s.bridge.pending)
        { s with bridge := s.bridge.close, sweep := some s.bridge.pending }
  | cancel {s} (call : Nat) (rest calls : List Nat) (sweeps : s.sweep = some calls)
      (next : calls.Perm (call :: rest)) :
      Step s (.cancelled call (s.bridge.cancel call).1)
        { s with bridge := (s.bridge.cancel call).2, sweep := some rest }
  | swept {s} (done : s.sweep = some []) : Step s .swept { s with sweep := none }
  | destroyAgain {s} (free : s.Free) (again : s.bridge.shutDown = true) :
      Step s .destroyedAgain { s with bridge := s.bridge.destroy }

/-- Steps one after another, with what they did. -/
inductive Path : Traffic → List Event → Traffic → Prop where
  | refl (s : Traffic) : Path s [] s
  | next {s t u : Traffic} {past : List Event} {e : Event} (path : Path s past t) (step : Step t e u) :
      Path s (past ++ [e]) u

namespace Path

variable {s t u : Traffic} {past later trace : List Event} {e : Event}

theorem trans (first : Path s past t) (second : Path t later u) : Path s (past ++ later) u := by
  induction second with
  | refl => rwa [List.append_nil]
  | next _ step ih =>
    rw [← List.append_assoc]
    exact ih.next step

theorem single (step : Step s e t) : Path s [e] t := (Path.refl s).next step

theorem cons (step : Step s e t) (rest : Path t later u) : Path s (e :: later) u :=
  (single step).trans rest

/-- A path can be cut anywhere. -/
theorem split (path : Path s (past ++ later) u) : ∃ t, Path s past t ∧ Path t later u := by
  generalize whole : past ++ later = trace at path
  induction path generalizing later with
  | refl =>
    obtain ⟨rfl, rfl⟩ := List.append_eq_nil_iff.1 whole
    exact ⟨_, .refl _, .refl _⟩
  | @next t u before e path step ih =>
    rcases List.eq_nil_or_concat later with rfl | ⟨init, last, rfl⟩
    · rw [List.append_nil] at whole
      subst whole
      exact ⟨u, path.next step, .refl u⟩
    · rw [List.concat_eq_append, ← List.append_assoc] at whole
      obtain ⟨rfl, same⟩ := List.append_inj' whole rfl
      obtain rfl := List.singleton_inj.1 same
      obtain ⟨middle, first, second⟩ := ih rfl
      exact ⟨middle, first, List.concat_eq_append ▸ second.next step⟩

theorem eq_of_nil (path : Path s [] t) : t = s := by
  generalize none_ : [] = trace at path
  cases path with
  | refl => rfl
  | next _ _ => exact absurd none_.symm (List.append_ne_nil_of_right_ne_nil _ (List.cons_ne_nil _ _))

theorem step_of_single (path : Path s [e] t) : Step s e t := by
  generalize one : [e] = trace at path
  cases path with
  | refl => cases one
  | @next _ _ past last before step =>
    have whole : [] ++ [e] = past ++ [last] := one
    obtain ⟨rfl, same⟩ := List.append_inj' whole rfl
    obtain rfl := List.singleton_inj.1 same
    exact eq_of_nil before ▸ step

theorem split_cons (path : Path s (past ++ e :: later) u) :
    ∃ t t', Path s past t ∧ Step t e t' ∧ Path t' later u := by
  rw [List.append_cons] at path
  obtain ⟨t', first, rest⟩ := path.split
  obtain ⟨t, before, here⟩ := first.split
  exact ⟨t, t', before, here.step_of_single, rest⟩

/-- What every step keeps is true at the end. -/
theorem keeps {P : Traffic → Prop} (kept : ∀ {s e t}, Step s e t → P s → P t) (path : Path s trace t)
    (here : P s) : P t := by
  induction path with
  | refl => exact here
  | next _ step ih => exact kept step ih

end Path

end Traffic

end ScriptBoundary
