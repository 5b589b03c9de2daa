import ScriptBoundary.Call.Outbound
import ScriptBoundary.Proofs.Host.EntryPoints
import ScriptBoundary.Proofs.Invocation

/-!
The chain that an outbound call follows, step by step, with what it gives back on each path: the direct
call, the evaluation of the script text, the call of what that gave, and that object itself.
-/

namespace ScriptBoundary

variable {ρ μ α : Type}

namespace World

def withHost (w : World ρ μ) (host : Host ρ) : World ρ μ := { w with host := host }

def retained (w : World ρ μ) (hs : List Handle) : World ρ μ := w.withHeap (w.host.heap.retainAll hs)

/-- The world once host values were given back, the last one first. -/
def releasedEach (w : World ρ μ) : List Raw → World ρ μ
  | [] => w
  | raw :: rest => (w.releasedEach rest).released raw.handles

end World

variable {β : Behaviour ρ μ} {id : HostId} {script : String} {args : List Raw} {w w' w'' : World ρ μ}
  {answer : Except Fault (Except ResolveError Raw)}

/-- The second part of the chain: there was no method to call. -/
inductive Evaluates (β : Behaviour ρ μ) (script : String) (args : List Raw) (w : World ρ μ) :
    Except Fault (Except ResolveError Raw) → World ρ μ → Prop where
  | fails {host : Host ρ} (evaluated : (Host.evaluate Host.global script).run w.host = (none, host)) :
      Evaluates β script args w (.ok (.error (.evaluate script))) (w.withHost host)
  | scalar {host : Host ρ} {s : Scalar}
      (evaluated : (Host.evaluate Host.global script).run w.host = (some (.scalar s), host)) :
      Evaluates β script args w (.ok (.error (.notAnObject script s.kind))) (w.withHost host)
  /-- What the text evaluated to answers the call, and its own reference is given back. -/
  | answers {host : Host ρ} {target : Handle} {raw : Raw} {w' : World ρ μ}
      (evaluated : (Host.evaluate Host.global script).run w.host = (some (.object target), host))
      (called : (Run.invokeDefault β target args).outcome (w.withHost host) = (.ok (some raw), w')) :
      Evaluates β script args w (.ok (.ok raw)) (w'.released [target])
  /-- It cannot be called, and is the result with the reference that evaluating it took. -/
  | itself {host : Host ρ} {target : Handle} {w' : World ρ μ}
      (evaluated : (Host.evaluate Host.global script).run w.host = (some (.object target), host))
      (called : (Run.invokeDefault β target args).outcome (w.withHost host) = (.ok none, w')) :
      Evaluates β script args w (.ok (.ok (.object target))) w'
  | abandoned {host : Host ρ} {target : Handle} {fault : Fault} {w' : World ρ μ}
      (evaluated : (Host.evaluate Host.global script).run w.host = (some (.object target), host))
      (called : (Run.invokeDefault β target args).outcome (w.withHost host) = (.error fault, w')) :
      Evaluates β script args w (.error fault) (w'.released [target])

/-- How a call is resolved. The global object is given back last, whatever comes of the call. -/
inductive Resolves (β : Behaviour ρ μ) (id : HostId) (script : String) (args : List Raw) (w : World ρ μ) :
    Except Fault (Except ResolveError Raw) → World ρ μ → Prop where
  /-- Nothing is called or evaluated. -/
  | noGlobal (missing : w.host.failures.noGlobal = true) :
      Resolves β id script args w (.ok (.error .noGlobalObject)) w
  | direct {raw : Raw} {w' : World ρ μ} (present : w.host.failures.noGlobal = false)
      (called : (Run.invoke β Host.global id args).outcome (w.retained [Host.global])
        = (.ok (some raw), w')) :
      Resolves β id script args w (.ok (.ok raw)) (w'.released [Host.global])
  | abandoned {fault : Fault} {w' : World ρ μ} (present : w.host.failures.noGlobal = false)
      (called : (Run.invoke β Host.global id args).outcome (w.retained [Host.global])
        = (.error fault, w')) :
      Resolves β id script args w (.error fault) (w'.released [Host.global])
  | evaluated {answer : Except Fault (Except ResolveError Raw)} {w' w'' : World ρ μ}
      (present : w.host.failures.noGlobal = false)
      (called : (Run.invoke β Host.global id args).outcome (w.retained [Host.global]) = (.ok none, w'))
      (evaluates : Evaluates β script args w' answer w'') :
      Resolves β id script args w answer (w''.released [Host.global])

/-- What is done with the script text, once there was no method to call. -/
def evaluated (β : Behaviour ρ μ) (script : String) (args : List Raw) :
    Run ρ μ (Except ResolveError Raw) := do
  match ← Run.onHost (Host.evaluate Host.global script) with
  | none => return .error (.evaluate script)
  | some (.scalar s) => return .error (.notAnObject script s.kind)
  | some (.object target) => return .ok (← callEvaluated β target args)

theorem Evaluates.outcome (evaluates : Evaluates β script args w answer w') :
    (evaluated β script args).outcome w = (answer, w') := by
  have first {host : Host ρ} {value : Option Raw}
      (ran : (Host.evaluate Host.global script).run w.host = (value, host)) :
      (Run.onHost (Host.evaluate Host.global script) : Run ρ μ _).outcome w
        = (.ok value, w.withHost host) := by
    rw [Run.outcome_onHost, ran]
    rfl
  unfold evaluated
  cases evaluates with
  | fails ran => exact Run.outcome_bind (first ran)
  | scalar ran => exact Run.outcome_bind (first ran)
  | answers ran called =>
    rw [Run.outcome_bind (first ran)]
    refine Run.outcome_bind ?_
    unfold callEvaluated
    rw [Run.outcome_bind (Run.outcome_guarding called)]
    exact Run.outcome_bind (Run.outcome_releaseAll _)
  | itself ran called =>
    rw [Run.outcome_bind (first ran)]
    refine Run.outcome_bind ?_
    unfold callEvaluated
    exact Run.outcome_bind (Run.outcome_guarding called)
  | abandoned ran called =>
    rw [Run.outcome_bind (first ran)]
    refine Run.outcome_bind_fault ?_
    unfold callEvaluated
    exact Run.outcome_bind_fault (Run.outcome_guarding_fault called)

theorem exists_evaluates (β : Behaviour ρ μ) (script : String) (args : List Raw) (w : World ρ μ) :
    ∃ answer w', Evaluates β script args w answer w' := by
  cases ran : (Host.evaluate Host.global script).run w.host with
  | mk value host =>
    cases value with
    | none => exact ⟨_, _, .fails ran⟩
    | some raw =>
      cases raw with
      | scalar s => exact ⟨_, _, .scalar ran⟩
      | object target =>
        cases called : (Run.invokeDefault β target args).outcome (w.withHost host) with
        | mk outcome w' =>
          cases outcome with
          | error fault => exact ⟨_, _, .abandoned ran called⟩
          | ok answer? =>
            cases answer? with
            | none => exact ⟨_, _, .itself ran called⟩
            | some raw => exact ⟨_, _, .answers ran called⟩

theorem resolve_of_present (present : w.host.failures.noGlobal = false) :
    (resolve β id script args).outcome w
      = (Run.holding [Host.global] (do
          match ← Run.invoke β Host.global id args with
          | some raw => return .ok raw
          | none => evaluated β script args)).outcome (w.retained [Host.global]) := by
  have global : (Run.onHost Host.globalObject : Run ρ μ _).outcome w
      = (.ok (some Host.global), w.retained [Host.global]) := by
    rw [Run.outcome_onHost, Host.run_globalObject, present]
    rfl
  unfold resolve
  rw [Run.outcome_bind global]
  rfl

theorem Resolves.outcome (resolves : Resolves β id script args w answer w') :
    (resolve β id script args).outcome w = (answer, w') := by
  cases resolves with
  | noGlobal missing =>
    have global : (Run.onHost Host.globalObject : Run ρ μ _).outcome w = (.ok none, w) := by
      rw [Run.outcome_onHost, Host.run_globalObject, missing]
      rfl
    unfold resolve
    exact Run.outcome_bind global
  | direct present called =>
    rw [resolve_of_present present]
    exact Run.outcome_holding (Run.outcome_bind called)
  | abandoned present called =>
    rw [resolve_of_present present]
    exact Run.outcome_holding (Run.outcome_bind_fault called)
  | evaluated present called evaluates =>
    rw [resolve_of_present present]
    exact Run.outcome_holding ((Run.outcome_bind called).trans evaluates.outcome)

theorem exists_resolves (β : Behaviour ρ μ) (id : HostId) (script : String) (args : List Raw)
    (w : World ρ μ) : ∃ answer w', Resolves β id script args w answer w' := by
  cases present : w.host.failures.noGlobal with
  | true => exact ⟨_, _, .noGlobal present⟩
  | false =>
    cases called : (Run.invoke β Host.global id args).outcome (w.retained [Host.global]) with
    | mk outcome w' =>
      cases outcome with
      | error fault => exact ⟨_, _, .abandoned present called⟩
      | ok answer? =>
        cases answer? with
        | some raw => exact ⟨_, _, .direct present called⟩
        | none =>
          obtain ⟨_, _, evaluates⟩ := exists_evaluates β script args w'
          exact ⟨_, _, .evaluated present called evaluates⟩

/-- Arguments are written one after another. After a fault those written before are given back. -/
inductive Writes (β : Behaviour ρ μ) : List Value → World ρ μ → Except Fault (List Raw) → World ρ μ → Prop where
  | nil (w : World ρ μ) : Writes β [] w (.ok []) w
  | cons {v : Value} {rest : List Value} {w w' w'' : World ρ μ} {raw : Raw} {raws : List Raw}
      (wrote : (Marshal.write β v).outcome w = (.ok raw, w')) (next : Writes β rest w' (.ok raws) w'') :
      Writes β (v :: rest) w (.ok (raw :: raws)) w''
  | here {v : Value} {rest : List Value} {w w' : World ρ μ} {fault : Fault}
      (wrote : (Marshal.write β v).outcome w = (.error fault, w')) :
      Writes β (v :: rest) w (.error fault) w'
  | later {v : Value} {rest : List Value} {w w' w'' : World ρ μ} {raw : Raw} {fault : Fault}
      (wrote : (Marshal.write β v).outcome w = (.ok raw, w')) (next : Writes β rest w' (.error fault) w'') :
      Writes β (v :: rest) w (.error fault) (w''.released raw.handles)

theorem exists_writes (β : Behaviour ρ μ) (values : List Value) (w : World ρ μ) :
    ∃ written w', Writes β values w written w' := by
  induction values generalizing w with
  | nil => exact ⟨_, _, .nil w⟩
  | cons v rest ih =>
    cases wrote : (Marshal.write β v).outcome w with
    | mk outcome w' =>
      cases outcome with
      | error fault => exact ⟨_, _, .here wrote⟩
      | ok raw =>
        obtain ⟨written, w'', next⟩ := ih w'
        cases written with
        | error fault => exact ⟨_, _, .later wrote next⟩
        | ok raws => exact ⟨_, _, .cons wrote next⟩

theorem Writes.outcome_fault {values : List Value} {use : List Raw → Run ρ μ α} {fault : Fault}
    (writes : Writes β values w (.error fault) w') :
    (Marshal.withWritten β use values).outcome w = (.error fault, w') := by
  generalize is : Except.error fault = written at writes
  induction writes generalizing use with
  | nil => cases is
  | cons => cases is
  | here wrote =>
    cases is
    exact Run.outcome_bind_fault wrote
  | later wrote next ih =>
    cases is
    exact (Run.outcome_bind wrote).trans (Run.outcome_holding (ih rfl))

theorem Writes.outcome {values : List Value} {use : List Raw → Run ρ μ α} {raws : List Raw}
    {outcome : Except Fault α} (writes : Writes β values w (.ok raws) w')
    (used : (use raws).outcome w' = (outcome, w'')) :
    (Marshal.withWritten β use values).outcome w = (outcome, w''.releasedEach raws) := by
  generalize is : Except.ok raws = written at writes
  induction writes generalizing use raws with
  | nil =>
    cases is
    exact used
  | cons wrote next ih =>
    cases is
    exact (Run.outcome_bind wrote).trans (Run.outcome_holding (ih used rfl))
  | here => cases is
  | later => cases is

namespace OutboundCall

variable {c : OutboundCall} {result : Except Fault (Except ResolveError Value)}

/-- How a call is executed: its arguments are written, the call is resolved, with its identifier in
parentheses as the script text, the result is read and given back, and the arguments are given back. -/
inductive Executes (β : Behaviour ρ μ) (c : OutboundCall) (w : World ρ μ) :
    Except Fault (Except ResolveError Value) → World ρ μ → Prop where
  | unwritten {fault : Fault} {w' : World ρ μ} (writes : Writes β c.args w (.error fault) w') :
      Executes β c w (.error fault) w'
  | abandoned {raws : List Raw} {w' w'' : World ρ μ} {id : HostId} {host : Host ρ} {fault : Fault}
      (writes : Writes β c.args w (.ok raws) w') (named : (Host.idOf c.id).run w'.host = (id, host))
      (resolves : Resolves β id ("(" ++ c.id.display ++ ")") raws (w'.withHost host) (.error fault) w'') :
      Executes β c w (.error fault) (w''.releasedEach raws)
  | fails {raws : List Raw} {w' w'' : World ρ μ} {id : HostId} {host : Host ρ} {e : ResolveError}
      (writes : Writes β c.args w (.ok raws) w') (named : (Host.idOf c.id).run w'.host = (id, host))
      (resolves : Resolves β id ("(" ++ c.id.display ++ ")") raws (w'.withHost host) (.ok (.error e)) w'') :
      Executes β c w (.ok (.error e)) (w''.releasedEach raws)
  | returns {raws : List Raw} {w' w'' : World ρ μ} {id : HostId} {host host' : Host ρ} {raw : Raw} {v : Value}
      (writes : Writes β c.args w (.ok raws) w') (named : (Host.idOf c.id).run w'.host = (id, host))
      (resolves : Resolves β id ("(" ++ c.id.display ++ ")") raws (w'.withHost host) (.ok (.ok raw)) w'')
      (read : (Marshal.read raw).run w''.host = (v, host')) :
      Executes β c w (.ok (.ok v)) (((w''.withHost host').released raw.handles).releasedEach raws)

theorem Executes.outcome (executes : Executes β c w result w') :
    (c.execute β).outcome w = (result, w') := by
  have naming {w : World ρ μ} {id : HostId} {host : Host ρ} (named : (Host.idOf c.id).run w.host = (id, host)) :
      (Run.onHost (Host.idOf c.id) : Run ρ μ _).outcome w = (.ok id, w.withHost host) := by
    rw [Run.outcome_onHost, named]
    rfl
  cases executes with
  | unwritten writes => exact writes.outcome_fault
  | abandoned writes named resolves =>
    refine writes.outcome ?_
    rw [Run.outcome_bind (naming named)]
    exact Run.outcome_bind_fault resolves.outcome
  | fails writes named resolves =>
    refine writes.outcome ?_
    rw [Run.outcome_bind (naming named)]
    exact Run.outcome_bind resolves.outcome
  | returns writes named resolves read =>
    refine writes.outcome ?_
    rw [Run.outcome_bind (naming named)]
    refine (Run.outcome_bind resolves.outcome).trans ?_
    refine (Run.outcome_bind (Run.outcome_onHost _)).trans ?_
    rw [read]
    exact Run.outcome_bind (Run.outcome_releaseAll _)

theorem exists_executes (β : Behaviour ρ μ) (c : OutboundCall) (w : World ρ μ) :
    ∃ result w', c.Executes β w result w' := by
  obtain ⟨written, w', writes⟩ := exists_writes β c.args w
  cases written with
  | error fault => exact ⟨_, _, .unwritten writes⟩
  | ok raws =>
    cases named : (Host.idOf c.id).run w'.host with
    | mk id host =>
      obtain ⟨answer, w'', resolves⟩ :=
        exists_resolves β id ("(" ++ c.id.display ++ ")") raws (w'.withHost host)
      cases answer with
      | error fault => exact ⟨_, _, .abandoned writes named resolves⟩
      | ok answer =>
        cases answer with
        | error e => exact ⟨_, _, .fails writes named resolves⟩
        | ok raw =>
          cases read : (Marshal.read raw).run w''.host with
          | mk v host' => exact ⟨_, _, .returns writes named resolves read⟩

end OutboundCall

end ScriptBoundary
