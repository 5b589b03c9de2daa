import ScriptBoundary.Proofs.Call.Entering
import ScriptBoundary.Proofs.Host.Properties
import ScriptBoundary.Proofs.Marshal.Reading

/-!
What a host refuses to do. An operation may intern a name and take references before it finds that it
cannot be carried out; one that is refused leaves everything as it was, names apart.
-/

namespace ScriptBoundary

variable {ρ μ : Type}

namespace Heap

/-! ## The heap -/

theorem isSome_find?_retainAll (heap : Heap ρ) (hs : List Handle) (target : Handle) :
    ((heap.retainAll hs).objects.find? target).isSome = heap.isLive target := by
  rw [find?_retainAll, Option.isSome_map]
  rfl

theorem elements?_retainAll (heap : Heap ρ) (hs : List Handle) (target : Handle) :
    (heap.retainAll hs).elements? target = heap.elements? target := by
  unfold elements?
  rw [find?_retainAll]
  cases heap.objects.find? target with
  | none => rfl
  | some e =>
    obtain ⟨refs, form, props⟩ := e
    cases form <;> rfl

/-- The object is still there once a reference to the value was taken. -/
theorem store_fst (heap : Heap ρ) (target : Handle) (id : HostId) (value : Raw) :
    (heap.store target id value).1 = heap.isLive target := by
  have there := heap.isSome_find?_retainAll value.handles target
  simp only [store, retainValue]
  split
  next live =>
    rw [live] at there ⊢
    split
    next absent =>
      rw [absent] at there
      cases there
    next => rfl
  next dead => exact (Bool.eq_false_iff.2 dead).symm

theorem store_of_dead {heap : Heap ρ} {target : Handle} (dead : heap.isLive target = false) (id : HostId)
    (value : Raw) : (heap.store target id value).2 = heap := by
  rw [store, if_neg (Bool.eq_false_iff.1 dead)]

/-- An array is still one once references to the values were taken. -/
theorem isSome_pushAll (heap : Heap ρ) (target : Handle) (values : List Raw) :
    (heap.pushAll target values).1.isSome = (heap.elements? target).isSome := by
  rw [← heap.elements?_retainAll (values.flatMap Raw.handles)]
  simp only [pushAll]
  split
  next none_ => rw [none_]; rfl
  next array => rw [array]; rfl

theorem evaluate_of_undefined {heap : Heap ρ} {target : Handle} {script : String}
    (undefined : heap.expressions.find? (expressionKey script) = none) :
    heap.evaluate target script = ((heap.peek target (expressionKey script)).1,
      (heap.peek target (expressionKey script)).2.retainAll
        ((heap.peek target (expressionKey script)).1.elim [] Raw.handles)) := by
  simp only [evaluate, undefined]

theorem isSome_evaluate (heap : Heap ρ) (target : Handle) (script : String) :
    (heap.evaluate target script).1.isSome = (heap.expressions.contains (expressionKey script) ||
      (heap.peek target (expressionKey script)).1.isSome) := by
  unfold Table.contains
  cases expression : heap.expressions.find? (expressionKey script) with
  | some value => simp only [evaluate, expression]; rfl
  | none => rw [evaluate_of_undefined expression]; rfl

/-- The text of the script may have become a name. -/
theorem evaluate_of_refused {heap : Heap ρ} {target : Handle} {script : String}
    (refused : (heap.evaluate target script).1.isSome = false) :
    (heap.evaluate target script).2 = (heap.key (expressionKey script)).2 := by
  rw [isSome_evaluate, Bool.or_eq_false_iff, Table.contains, Option.isSome_eq_false_iff,
    Option.isSome_eq_false_iff, Option.isNone_iff_eq_none, Option.isNone_iff_eq_none] at refused
  rw [evaluate_of_undefined refused.1, refused.2]
  rfl

end Heap

namespace Host

/-! ## Reading, writing and listing -/

/-- Names may have been added, and nothing else has changed. -/
def Renamed (host later : Host ρ) : Prop :=
  ∃ names : Names, names.Extends host.heap.names ∧ later = host.withNames names

theorem Renamed.refl (host : Host ρ) : host.Renamed host := ⟨host.heap.names, .refl _, rfl⟩

/-- What a host is asked without a call. -/
inductive Access where
  | put (target : Handle) (name : String) (value : Raw)
  | setProperty (target : Handle) (id : HostId) (value : Raw)
  | peek (target : Handle) (name : String)
  | getProperty (target : Handle) (id : HostId)
  | evaluate (target : Handle) (script : String)
  | propertyIds (target : Handle)
  | elements (target : Handle)

namespace Access

/-- Carries it out, and says whether it could be. -/
def perform : Access → HostM ρ Bool
  | .put target name value => onHeap (Heap.put target name value)
  | .setProperty target id value => Host.setProperty target id value
  | .peek target name => do return (← onHeap (Heap.peek target name)).isSome
  | .getProperty target id => do return (← Host.getProperty target id).isSome
  | .evaluate target script => do return (← Host.evaluate target script).isSome
  | .propertyIds target => do return (← Host.propertyIds target).isSome
  | .elements target => do return ((← get).heap.elements? target).isSome

/-- It can be carried out. -/
def isPossible (host : Host ρ) : Access → Bool
  | .put target _ _ => host.heap.isLive target
  | .setProperty target _ _ => !host.failures.refusesWrites && host.heap.isLive target
  | .peek target name => (host.heap.peek target name).1.isSome
  | .getProperty target id => (host.heap.lookup target id).isSome
  | .evaluate target script =>
    host.heap.expressions.contains (Heap.expressionKey script) ||
      (host.heap.peek target (Heap.expressionKey script)).1.isSome
  | .propertyIds target => !host.failures.noEnumeration && host.heap.isLive target
  | .elements target => (host.heap.elements? target).isSome

theorem perform_fst (a : Access) (host : Host ρ) : (a.perform.run host).1 = a.isPossible host := by
  cases a with
  | put target name value => exact Heap.store_fst _ _ _ _
  | setProperty target id value =>
    change ((Host.setProperty target id value).run host).1 = _
    rw [run_setProperty, isPossible]
    cases host.failures.refusesWrites with
    | true => rfl
    | false => exact Heap.store_fst _ _ _ _
  | peek target name => rfl
  | getProperty target id => rfl
  | evaluate target script => exact host.heap.isSome_evaluate target script
  | propertyIds target =>
    change ((Host.propertyIds target).run host).1.isSome = _
    rw [run_propertyIds, isPossible, Heap.propertyIds?_eq]
    cases host.failures.noEnumeration with
    | true => rfl
    | false => exact Option.isSome_map
  | elements target => rfl

theorem renamed_of_refused {a : Access} {host : Host ρ} (refused : a.isPossible host = false) :
    host.Renamed (a.perform.run host).2 := by
  cases a with
  | put target name value =>
    have dead : (host.heap.key name).2.isLive target = false := refused
    change host.Renamed { host with heap := ((host.heap.key name).2.store target _ value).2 }
    rw [Heap.store_of_dead dead]
    exact ⟨_, host.heap.names.extends_key name, rfl⟩
  | setProperty target id value =>
    change host.Renamed ((Host.setProperty target id value).run host).2
    rw [run_setProperty]
    split
    next => exact .refl host
    next writes =>
      rw [isPossible, Bool.eq_false_iff.2 writes] at refused
      rw [Heap.store_of_dead refused]
      exact .refl host
  | peek target name => exact ⟨_, host.heap.names.extends_key name, rfl⟩
  | getProperty target id =>
    have unread : host.heap.lookup target id = none :=
      Option.not_isSome_iff_eq_none.1 (Bool.eq_false_iff.1 refused)
    change host.Renamed { host with
      heap := host.heap.retainAll ((host.heap.lookup target id).elim [] Raw.handles) }
    rw [unread]
    exact .refl host
  | evaluate target script =>
    change host.Renamed { host with heap := (host.heap.evaluate target script).2 }
    rw [Heap.evaluate_of_refused (host.heap.isSome_evaluate target script ▸ refused)]
    exact ⟨_, host.heap.names.extends_key _, rfl⟩
  | propertyIds target =>
    change host.Renamed ((Host.propertyIds target).run host).2
    rw [run_propertyIds]
    exact .refl host
  | elements target => exact .refl host

end Access

end Host

/-! ## Calls -/

theorem Run.snd_outcome_bind_pure {α γ : Type} (body : Run ρ μ α) (f : α → γ) (w : World ρ μ) :
    (Run.outcome (do return f (← body)) w).2 = (body.outcome w).2 := by
  cases ran : body.outcome w with
  | mk answer w' =>
    cases answer with
    | ok a => rw [outcome_bind ran, outcome_pure]
    | error fault => rw [outcome_bind_fault ran]

/-- What a host is asked. -/
inductive Request where
  | access (a : Host.Access)
  | invoke (target : Handle) (id : HostId) (args : List Raw)
  | invokeDefault (target : Handle) (args : List Raw)

namespace Request

/-- Carries it out, and says whether there was an answer. -/
def perform (β : Behaviour ρ μ) : Request → Run ρ μ Bool
  | .access a => Run.onHost a.perform
  | .invoke target id args => do return (← Run.invoke β target id args).isSome
  | .invokeDefault target args => do return (← Run.invokeDefault β target args).isSome

/-- The host function that is entered. -/
def enters? (heap : Heap ρ) : Request → Option Handle
  | .access _ => none
  | .invoke target id _ => (heap.callee? target id).bind Callee.function?
  | .invokeDefault target _ => (heap.code? target).map fun _ => target

/-- It can be carried out. -/
def isPossible (host : Host ρ) : Request → Bool
  | .access a => a.isPossible host
  | .invoke target id _ => (host.heap.callee? target id).isSome
  | .invokeDefault target _ => (host.heap.code? target).isSome

variable {β : Behaviour ρ μ} {w w' : World ρ μ}

/-- The end of a request that enters no code. -/
structure Settled (β : Behaviour ρ μ) (r : Request) (w w' : World ρ μ) : Prop where
  answer : (r.perform β).outcome w = (.ok (r.isPossible w.host), w')
  unchanged : r.isPossible w.host = false → ∃ host, w.host.Renamed host ∧ w' = w.withHost host

theorem settled_access (β : Behaviour ρ μ) (a : Host.Access) (w : World ρ μ) :
    Settled β (.access a) w (w.withHost (a.perform.run w.host).2) where
  answer := by
    rw [isPossible, ← a.perform_fst]
    rfl
  unchanged refused := ⟨_, Host.Access.renamed_of_refused refused, rfl⟩

theorem Settled.of_possible {r : Request} (possible : r.isPossible w.host = true)
    (ran : (r.perform β).outcome w = (.ok true, w')) : Settled β r w w' where
  answer := possible ▸ ran
  unchanged refused := by
    rw [possible] at refused
    cases refused

/-- The method of an array and the constructors are never refused. -/
theorem exists_settled_invoke {target : Handle} {id : HostId} {args : List Raw}
    (quiet : (invoke target id args).enters? w.host.heap = none) :
    ∃ w', Settled β (.invoke target id args) w w' := by
  rw [enters?] at quiet
  cases called : w.host.heap.callee? target id with
  | none =>
    refine ⟨w, ?_, fun _ => ⟨w.host, .refl _, rfl⟩⟩
    rw [isPossible, called]
    exact Run.outcome_bind (Run.outcome_invoke_none args called)
  | some callee =>
    have possible : (invoke target id args).isPossible w.host = true := by
      rw [isPossible, called]
      rfl
    cases callee with
    | push =>
      have answer : (w.host.heap.pushAll target args).1.isSome = true := by
        rw [Heap.isSome_pushAll, Heap.array_of_callee?_push called]
      refine ⟨w.withHeap (w.host.heap.pushAll target args).2, .of_possible possible ?_⟩
      rw [perform, Run.outcome_bind (Run.outcome_invoke_push args called), Run.outcome_pure, answer]
    | construct shape =>
      exact ⟨_, .of_possible possible (Run.outcome_bind (Run.outcome_invoke_construct args called))⟩
    | function f code =>
      rw [called] at quiet
      cases quiet

theorem settled_invokeDefault {target : Handle} {args : List Raw}
    (quiet : (invokeDefault target args).enters? w.host.heap = none) :
    Settled β (.invokeDefault target args) w w := by
  have none_ : w.host.heap.code? target = none := Option.map_eq_none_iff.1 quiet
  refine ⟨?_, fun _ => ⟨w.host, .refl _, rfl⟩⟩
  rw [isPossible, none_]
  refine Run.outcome_bind (a := none) ?_
  rw [Run.invokeDefault, Run.outcome_bind Run.outcome_get, none_]
  rfl

theorem exists_settled {r : Request} (quiet : r.enters? w.host.heap = none) : ∃ w', Settled β r w w' := by
  cases r with
  | access a => exact ⟨_, settled_access β a w⟩
  | invoke target id args => exact exists_settled_invoke quiet
  | invokeDefault target args => exact ⟨w, settled_invokeDefault quiet⟩

theorem entered_perform (β : Behaviour ρ μ) (r : Request) (w : World ρ μ) :
    ((r.perform β.alone).outcome w).2.entered = w.entered ++ (r.enters? w.host.heap).toList := by
  cases r with
  | access a => exact (List.append_nil _).symm
  | invoke target id args =>
    rw [perform, Run.snd_outcome_bind_pure]
    exact Run.entered_invoke β target id args rfl
  | invokeDefault target args =>
    rw [perform, Run.snd_outcome_bind_pure]
    exact Run.entered_invokeDefault β target args rfl

/-- What becomes of a request. -/
structure Careful (β : Behaviour ρ μ) (r : Request) (w : World ρ μ) : Prop where
  entered : ((r.perform β.alone).outcome w).2.entered = w.entered ++ (r.enters? w.host.heap).toList
  /-- Without code to enter there is an answer, and it is the expected one. -/
  answered : r.enters? w.host.heap = none → ∃ w', (r.perform β).outcome w = (.ok (r.isPossible w.host), w')
  /-- If it is refused, names may have been added, and all else is as before. -/
  unchanged : ∀ w', r.enters? w.host.heap = none → (r.perform β).outcome w = (.ok false, w') →
    ∃ names : Names, names.Extends w.host.heap.names ∧ w' = w.withHost (w.host.withNames names)

theorem refused_unchanged (β : Behaviour ρ μ) (r : Request) (w : World ρ μ) : Careful β r w where
  entered := entered_perform β r w
  answered quiet := by
    obtain ⟨w', settled⟩ := exists_settled (β := β) quiet
    exact ⟨w', settled.answer⟩
  unchanged w' quiet ran := by
    obtain ⟨w'', settled⟩ := exists_settled (β := β) quiet
    rw [settled.answer] at ran
    obtain ⟨refused, rfl⟩ := Prod.mk.inj ran
    obtain ⟨host, ⟨names, more, rfl⟩, is⟩ := settled.unchanged (Except.ok.inj refused)
    exact ⟨names, more, is⟩

/-- A write to an object that never was: its name is there afterwards, and nobody holds more. -/
example (β : Behaviour Unit Unit) :
    let ran := ((access (.put ⟨7⟩ "x" (.object ⟨1⟩))).perform β).outcome (.start named true)
    ran.1 = .ok false ∧ ran.2.host.heap.names.texts = ["f", "x"] ∧ ran.2.host.heap.refs ⟨1⟩ = 1 :=
  ⟨rfl, rfl, rfl⟩

end Request

end ScriptBoundary
