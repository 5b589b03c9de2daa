import ScriptBoundary.Proofs.Call.Chain

/-!
Whose code the resolution of a call enters itself. The direct call enters a function at most, and so does
the call of what the script text evaluates to, which comes only when the direct call gave nothing; both may
be one and the same function.
-/

namespace ScriptBoundary

variable {ρ μ α : Type}

/-! ## Code that is entered, and what it enters on its own -/

@[simp] theorem World.entered_released (w : World ρ μ) (hs : List Handle) :
    (w.released hs).entered = w.entered := rfl

namespace Run

/-- Leaves no trace of what is entered meanwhile. -/
def unlogged (body : Run ρ μ α) : Run ρ μ α := do
  let before := (← get).entered
  body.ensuring (modify fun w => { w with entered := before })

theorem outcome_unlogged (body : Run ρ μ α) (w : World ρ μ) :
    (unlogged body).outcome w
      = ((body.outcome w).1, { (body.outcome w).2 with entered := w.entered }) := by
  rw [unlogged, outcome_bind outcome_get]
  rfl

end Run

/-- The log then shows what is entered, and not what that enters on its own. -/
def Behaviour.alone (β : Behaviour ρ μ) : Behaviour ρ μ :=
  { β with enter := fun code args => (β.enter code args).unlogged }

section Blind

variable {α γ : Type}

/-- Two computations that differ in what they log, and do not look at the log. -/
def Run.Alike (run run' : Run ρ μ α) : Prop := ∀ w log, ∃ log',
  run'.outcome { w with entered := log } = ((run.outcome w).1, { (run.outcome w).2 with entered := log' })

/-- Code that does not look at the log. -/
def Behaviour.Blind (β : Behaviour ρ μ) : Prop := ∀ code args, Run.Alike (β.enter code args) (β.enter code args)

namespace Run.Alike

theorem pure (a : α) : Alike (Pure.pure a : Run ρ μ α) (Pure.pure a) := fun _ log => ⟨log, rfl⟩

theorem onHost (operation : HostM ρ α) : Alike (Run.onHost operation : Run ρ μ α) (Run.onHost operation) :=
  fun _ log => ⟨log, rfl⟩

theorem bind {run run' : Run ρ μ α} {next next' : α → Run ρ μ γ} (alike : Alike run run')
    (after : ∀ a, Alike (next a) (next' a)) : Alike (run >>= next) (run' >>= next') := by
  intro w log
  obtain ⟨log₁, ran'⟩ := alike w log
  cases ran : run.outcome w with
  | mk answer w₁ =>
    rw [ran] at ran'
    cases answer with
    | error fault => exact ⟨log₁, by rw [outcome_bind_fault ran, outcome_bind_fault ran']⟩
    | ok a =>
      rw [outcome_bind ran, outcome_bind ran']
      exact after a w₁ log₁

theorem holding {run run' : Run ρ μ α} (alike : Alike run run') (hs : List Handle) :
    Alike (Run.holding hs run) (Run.holding hs run') := by
  intro w log
  obtain ⟨log', ran'⟩ := alike w log
  cases ran : run.outcome w with
  | mk answer w₁ =>
    rw [ran] at ran'
    rw [outcome_holding ran, outcome_holding ran']
    exact ⟨log', rfl⟩

theorem guarding {run run' : Run ρ μ α} (alike : Alike run run') (hs : List Handle) :
    Alike (Run.guarding hs run) (Run.guarding hs run') := by
  intro w log
  obtain ⟨log', ran'⟩ := alike w log
  cases ran : run.outcome w with
  | mk answer w₁ =>
    rw [ran] at ran'
    cases answer with
    | ok a => exact ⟨log', by rw [outcome_guarding ran, outcome_guarding ran']⟩
    | error fault => exact ⟨log', by rw [outcome_guarding_fault ran, outcome_guarding_fault ran']; rfl⟩

variable {β : Behaviour ρ μ}

theorem enter (blind : β.Blind) (f : Handle) (code : ρ) (args : List Raw) :
    Alike (Run.enter β f code args) (Run.enter β.alone f code args) := by
  intro w log
  obtain ⟨log', ran⟩ := blind code args { w with entered := w.entered ++ [f] } (log ++ [f])
  refine ⟨log ++ [f], ?_⟩
  change (unlogged (β.enter code args)).outcome { w with entered := log ++ [f] } = _
  rw [outcome_unlogged, ran]
  rfl

theorem invoke (blind : β.Blind) (target : Handle) (id : HostId) (args : List Raw) :
    Alike (Run.invoke β target id args) (Run.invoke β.alone target id args) := by
  intro w log
  unfold Run.invoke
  rw [outcome_bind outcome_get, outcome_bind outcome_get]
  cases w.host.heap.callee? target id with
  | none => exact pure none w log
  | some callee =>
    cases callee with
    | push => exact onHost _ w log
    | construct shape => exact bind (onHost _) (fun _ => pure _) w log
    | function f code => exact enter blind f code args w log

theorem invokeDefault (blind : β.Blind) (target : Handle) (args : List Raw) :
    Alike (Run.invokeDefault β target args) (Run.invokeDefault β.alone target args) := by
  intro w log
  unfold Run.invokeDefault
  rw [outcome_bind outcome_get, outcome_bind outcome_get]
  cases w.host.heap.code? target with
  | none => exact pure none w log
  | some code => exact enter blind target code args w log

end Run.Alike

/-- The log apart, it is the same whether code logs what it enters on its own. -/
theorem resolve_alone {β : Behaviour ρ μ} (blind : β.Blind) (id : HostId) (script : String) (args : List Raw) :
    Run.Alike (resolve β id script args) (resolve β.alone id script args) := by
  unfold resolve
  refine Run.Alike.bind (.onHost _) fun global => ?_
  cases global with
  | none => exact .pure _
  | some global =>
    refine .holding (.bind (.invoke blind global id args) fun answer => ?_) [global]
    cases answer with
    | some raw => exact .pure _
    | none =>
      refine .bind (.onHost _) fun value => ?_
      match value with
      | none => exact .pure _
      | some (.scalar s) => exact .pure _
      | some (.object target) =>
        refine .bind (.bind (.guarding (.invokeDefault blind target args) [target]) fun answer => ?_) fun _ => .pure _
        cases answer with
        | some raw => exact .bind (.onHost _) fun _ => .pure _
        | none => exact .pure _

end Blind

/-- The function whose code is entered by a method call. -/
def Callee.function? : Callee ρ → Option Handle
  | .function f _ => some f
  | _ => none

namespace Run

variable {w w' : World ρ μ}

theorem entered_invoke (β : Behaviour ρ μ) (target : Handle) (id : HostId) (args : List Raw)
    (ran : ((invoke β.alone target id args).outcome w).2 = w') :
    w'.entered = w.entered ++ ((w.host.heap.callee? target id).bind Callee.function?).toList := by
  subst ran
  cases called : w.host.heap.callee? target id with
  | none => simp [outcome_invoke_none args called]
  | some callee =>
    cases callee with
    | push => simp [outcome_invoke_push args called, World.withHeap, Callee.function?]
    | construct shape => simp [outcome_invoke_construct args called, World.withHeap, Callee.function?]
    | function f code =>
      rw [outcome_invoke_function args called]
      exact congrArg World.entered (congrArg Prod.snd (outcome_unlogged _ _))

theorem entered_invokeDefault (β : Behaviour ρ μ) (target : Handle) (args : List Raw)
    (ran : ((invokeDefault β.alone target args).outcome w).2 = w') :
    w'.entered = w.entered ++ ((w.host.heap.code? target).map fun _ => target).toList := by
  subst ran
  unfold invokeDefault
  rw [outcome_bind outcome_get]
  cases w.host.heap.code? target with
  | none => simp
  | some code => exact congrArg World.entered (congrArg Prod.snd (outcome_unlogged _ _))

end Run

/-! ## What the resolution of a call enters -/

variable {β : Behaviour ρ μ} {id : HostId} {script : String} {args : List Raw} {w w' : World ρ μ}
  {answer : Except Fault (Except ResolveError Raw)} {f : Handle}

/-- The direct call enters the function. -/
structure EntersFirst (id : HostId) (w : World ρ μ) (f : Handle) : Prop where
  present : w.host.failures.noGlobal = false
  method : ∃ code, (w.retained [Host.global]).host.heap.callee? Host.global id = some (.function f code)

/-- The script text evaluates to the function. -/
def EvaluatesTo (script : String) (w : World ρ μ) (f : Handle) : Prop :=
  ∃ host code, (Host.evaluate Host.global script).run w.host = (some (.object f), host) ∧
    host.heap.code? f = some code

/-- The direct call gives nothing, and the script text then evaluates to the function. -/
structure EntersNext (β : Behaviour ρ μ) (id : HostId) (script : String) (args : List Raw) (w : World ρ μ)
    (f : Handle) : Prop where
  present : w.host.failures.noGlobal = false
  evaluates : ∃ w', (Run.invoke β Host.global id args).outcome (w.retained [Host.global]) = (.ok none, w') ∧
    EvaluatesTo script w' f

/-- The functions that are entered, in their order. -/
structure Enters (β : Behaviour ρ μ) (id : HostId) (script : String) (args : List Raw) (w : World ρ μ)
    (first next : Option Handle) : Prop where
  log : ((resolve β id script args).outcome w).2.entered = w.entered ++ (first.toList ++ next.toList)
  direct : ∀ f, first = some f ↔ EntersFirst id w f
  evaluated : ∀ f, next = some f ↔ EntersNext β id script args w f
  /-- A function is entered again only if it gave nothing and the script text is found to mean it. -/
  again : ∀ f, 1 < (first.toList ++ next.toList).count f ↔
    EntersFirst id w f ∧ EntersNext β id script args w f

theorem count_entered (first next : Option Handle) (f : Handle) :
    1 < (first.toList ++ next.toList).count f ↔ first = some f ∧ next = some f := by
  have once (entered : Option Handle) :
      entered.toList.count f = if entered = some f then 1 else 0 := by
    cases entered <;> simp [List.count_cons]
  rw [List.count_append, once, once]
  by_cases here : first = some f <;> by_cases there : next = some f <;> simp [here, there]

theorem exists_entersNext (evaluates : Evaluates β.alone script args w answer w') :
    ∃ next : Option Handle, w'.entered = w.entered ++ next.toList ∧
      ∀ f, next = some f ↔ EvaluatesTo script w f := by
  have nothing {host : Host ρ} {value : Option Raw}
      (evaluated : (Host.evaluate Host.global script).run w.host = (value, host))
      (scalar : ∀ f, value ≠ some (.object f)) (f : Handle) : ¬ EvaluatesTo script w f := by
    rintro ⟨_, _, is, _⟩
    rw [evaluated] at is
    exact scalar f (Prod.mk.inj is).1
  have entering {host : Host ρ} {target : Handle}
      (evaluated : (Host.evaluate Host.global script).run w.host = (some (.object target), host))
      (f : Handle) : (host.heap.code? target).map (fun _ => target) = some f ↔ EvaluatesTo script w f := by
    rw [Option.map_eq_some_iff]
    constructor
    · rintro ⟨code, is, rfl⟩
      exact ⟨host, code, evaluated, is⟩
    · rintro ⟨_, code, is, callable⟩
      rw [evaluated] at is
      cases is
      exact ⟨code, callable, rfl⟩
  cases evaluates with
  | fails evaluated =>
    exact ⟨none, by simp [World.withHost], fun f => by simp [nothing evaluated]⟩
  | scalar evaluated =>
    exact ⟨none, by simp [World.withHost], fun f => by simp [nothing evaluated]⟩
  | answers evaluated called =>
    have log := Run.entered_invokeDefault β _ args (congrArg Prod.snd called)
    exact ⟨_, log, entering evaluated⟩
  | itself evaluated called =>
    have log := Run.entered_invokeDefault β _ args (congrArg Prod.snd called)
    exact ⟨_, log, entering evaluated⟩
  | abandoned evaluated called =>
    have log := Run.entered_invokeDefault β _ args (congrArg Prod.snd called)
    exact ⟨_, log, entering evaluated⟩

theorem exists_enters (resolves : Resolves β.alone id script args w answer w') :
    ∃ first next : Option Handle, w'.entered = w.entered ++ (first.toList ++ next.toList) ∧
      (∀ f, first = some f ↔ EntersFirst id w f) ∧
      ∀ f, next = some f ↔ EntersNext β.alone id script args w f := by
  have method (present : w.host.failures.noGlobal = false) (f : Handle) :
      ((w.retained [Host.global]).host.heap.callee? Host.global id).bind Callee.function? = some f ↔
        EntersFirst id w f := by
    rw [Option.bind_eq_some_iff]
    constructor
    · rintro ⟨callee, called, is⟩
      cases callee with
      | function g code =>
        cases is
        exact ⟨present, code, called⟩
      | _ => cases is
    · rintro ⟨_, code, called⟩
      exact ⟨_, called, rfl⟩
  have entering {outcome : Except Fault (Option Raw)} {w' : World ρ μ}
      (called : (Run.invoke β.alone Host.global id args).outcome (w.retained [Host.global]) = (outcome, w')) :
      w'.entered = w.entered
        ++ (((w.retained [Host.global]).host.heap.callee? Host.global id).bind Callee.function?).toList :=
    Run.entered_invoke β Host.global id args (congrArg Prod.snd called)
  have final {outcome : Except Fault (Option Raw)} {w' : World ρ μ}
      (called : (Run.invoke β.alone Host.global id args).outcome (w.retained [Host.global]) = (outcome, w'))
      (spoke : outcome ≠ .ok none) (f : Handle) : ¬ EntersNext β.alone id script args w f := by
    rintro ⟨_, _, silent, _⟩
    rw [called] at silent
    exact spoke (Prod.mk.inj silent).1
  cases resolves with
  | noGlobal missing =>
    have absent : w.host.failures.noGlobal ≠ false := by simp [missing]
    exact ⟨none, none, by simp, fun f => ⟨nofun, fun enters => absurd enters.present absent⟩,
      fun f => ⟨nofun, fun enters => absurd enters.present absent⟩⟩
  | direct present called =>
    exact ⟨_, none, by simpa using entering called, method present, fun f => by simp [final called]⟩
  | abandoned present called =>
    exact ⟨_, none, by simpa using entering called, method present, fun f => by simp [final called]⟩
  | evaluated present called evaluates =>
    obtain ⟨next, log, is⟩ := exists_entersNext evaluates
    refine ⟨_, next, ?_, method present, fun f => (is f).trans ⟨fun means => ⟨present, _, called, means⟩, ?_⟩⟩
    · rw [entering called, List.append_assoc] at log
      exact log
    · rintro ⟨_, _, called', means⟩
      rw [called] at called'
      cases called'
      exact means

/-- The resolution of a call enters at most one function by the direct call and at most one by what the
script text evaluates to. It enters none twice, except one that gave nothing when it was called directly
and to which the script text evaluates after that. -/
theorem enters_twice_at_most (β : Behaviour ρ μ) (id : HostId) (script : String) (args : List Raw)
    (w : World ρ μ) : ∃ first next, Enters β.alone id script args w first next := by
  obtain ⟨answer, w', resolves⟩ := exists_resolves β.alone id script args w
  obtain ⟨first, next, log, direct, evaluated⟩ := exists_enters resolves
  refine ⟨first, next, ?_, direct, evaluated, fun f => ?_⟩
  · rw [resolves.outcome]
    exact log
  · rw [count_entered, direct, evaluated]

/-! ## A function that gives nothing -/

/-- A function stands under a name of the global object, and holds nothing. -/
def named : Host Unit where
  heap :=
    { objects := ⟨[(⟨1⟩, ⟨1, .plain, ⟨[(.name 0, .object ⟨2⟩)]⟩⟩), (⟨2⟩, ⟨1, .function (), .empty⟩)]⟩
      lastHandle := 2
      names := Names.empty.add "f" rfl
      expressions := .empty
      releases := .empty
      exceptions := [] }
  element := none
  failures := .none

theorem expressionKey_enclosed : Heap.expressionKey "(f)" = "f" := by
  have inner : Text.stripParens ['f'] = ['f'] := by
    rw [Text.stripParens]
    rfl
  have outer : Text.stripParens ['(', 'f', ')'] = ['f'] := by
    rw [Text.stripParens]
    exact inner
  rw [Heap.expressionKey, show "(f)".toList = ['(', 'f', ')'] from rfl, outer]

/-- It is called by its name, and since that gives nothing, it is called once more as the value of its
name. -/
theorem entered_again : ¬ ∀ (β : Behaviour Unit Unit) (id : HostId) (script : String) (args : List Raw)
    (w : World Unit Unit) (f : Handle),
    ((resolve β.alone id script args).outcome w).2.entered.count f ≤ w.entered.count f + 1 := by
  intro once
  let β : Behaviour Unit Unit := ⟨fun _ _ => pure none, fun _ _ _ _ => pure .unhandled, fun _ => []⟩
  let w : World Unit Unit := .start named true
  let called := w.retained [Host.global]
  have is : Heap.evaluate Host.global "(f)" called.host.heap
      = (some (.object ⟨2⟩), called.host.heap.retainAll [⟨2⟩]) := by
    simp only [Heap.evaluate, expressionKey_enclosed]
    rfl
  have evaluated : (Host.evaluate Host.global "(f)").run called.host
      = (some (.object ⟨2⟩), (called.retained [⟨2⟩]).host) := by
    have run : (Host.evaluate Host.global "(f)").run called.host
        = ((Heap.evaluate Host.global "(f)" called.host.heap).1,
            { called.host with heap := (Heap.evaluate Host.global "(f)" called.host.heap).2 }) := rfl
    rw [run, is]
    rfl
  have silent : (Run.invoke β.alone Host.global (.name 0) []).outcome called
      = (.ok none, { called with entered := [⟨2⟩] }) := rfl
  have resolves : Resolves β.alone (.name 0) "(f)" [] w _ _ := .evaluated rfl silent (.itself evaluated rfl)
  have twice := once β (.name 0) "(f)" [] w ⟨2⟩
  rw [resolves.outcome] at twice
  exact absurd twice (by decide)

end ScriptBoundary
