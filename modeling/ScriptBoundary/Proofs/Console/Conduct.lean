import ScriptBoundary.Console.Run
import ScriptBoundary.Proofs.World.Calm

/-!
What the commands of the shell do to its session. Its host functions print and add, its methods answer
at once or pass a call on to them, so no command fails, and only those that set and delete properties
change what the gateway holds.
-/

namespace ScriptBoundary

open Session (HostCode EngineCode CodeM behaviour standard)

/-! ## The code of the shell -/

/-- The host functions that a shell defines. -/
def Harmless : HostCode → Prop
  | .alert | .add => True
  | _ => False

/-- The methods that a shell registers. -/
def Mild : Method EngineCode → Prop
  | .legacy _ | .code (.echo _) | .code .count | .code .relay => True
  | _ => False

theorem gentle_behaviour (depth : Nat) : Gentle Harmless (behaviour (depth + 1)) := by
  intro code safe args w tame
  cases code with
  | alert => exact ⟨_, _, rfl, ⟨rfl, rfl, rfl, fun _ => rfl⟩, tame⟩
  | add => exact ⟨_, _, rfl, .refl w, tame⟩
  | _ => cases safe

/-- A method may still call a host function, which calls nothing. -/
theorem calm_answer (depth : Nat) {body : EngineCode} (mild : Mild (.code body)) (r : Registry EngineCode)
    (id : Identifier) (args : List Value) :
    Run.Calm Harmless ((behaviour (depth + 2)).answer body r id args) := by
  cases body with
  | echo handled =>
    cases args with
    | nil => exact .pure _
    | cons v rest => exact (Run.Calm.retainAll v.handles).bind fun _ => .pure _
  | count => exact .pure _
  | relay =>
    cases args with
    | nil => exact .pure _
    | cons first rest =>
      exact (calm_callInline (gentle_behaviour depth) r.bridge _ rest).bind fun _ => .pure _
  | _ => cases mild

namespace Shell

/-- All methods of a registry are the shell's. -/
def MildMethods (r : Registry EngineCode) : Prop := ∀ id m, r.methods.find? id = some m → Mild m

theorem calm_call {r : Registry EngineCode} (mild : MildMethods r) (id : Identifier) (args : List Value) :
    Run.Calm Harmless (r.call standard id args) := by
  unfold Registry.call
  cases found : r.methods.find? id with
  | none => exact .pure _
  | some m =>
    have mild' := mild id m found
    cases m with
    | legacy verb => exact .pure _
    | code body => exact (calm_answer 2046 mild' r id args).bind fun _ => .pure _

theorem calm_gatewayInvoke {r : Registry EngineCode} (mild : MildMethods r) (id : HostId) (args : List Raw) :
    Run.Calm Harmless (Gateway.invoke standard id args r) := by
  have asked : Run.Calm Harmless (Run.onHost (Host.identifierOf id) : CodeM Identifier) :=
    .onHost fun _ tame => tame
  refine asked.bind fun id => (calm_readAllLent args).bind fun values => .holding _ ?_
  refine (calm_call mild id values).bind fun result? => ?_
  cases result? with
  | none => exact .pure _
  | some result =>
    refine .holding _ ?_
    cases result.value with
    | none => exact .pure _
    | some v => exact (calm_writeForHost (gentle_behaviour 2047) v).bind fun _ => .pure _

theorem calm_displayed (v : Value) : WorldM.Calm Harmless (displayed v) :=
  .bind ((WorldM.Calm.retainAll _).bind fun _ => (WorldM.Calm.releaseAll _).bind fun _ => .pure _)
    fun _ => (WorldM.Calm.releaseAll _).bind fun _ => .pure _

theorem calm_invoke (name : String) (args : List Scalar) {r : Registry EngineCode} (mild : MildMethods r) :
    Run.Calm Harmless (invoke name args r) := by
  refine (calm_intern name).bind fun id => (calm_gatewayInvoke mild id _).bind fun answer => ?_
  obtain ⟨handled, result⟩ := answer
  cases result with
  | none => exact .pure _
  | some raw =>
    refine (calm_read raw).bind fun v => (Run.Calm.releaseAll _).bind fun _ => ?_
    exact (Run.Calm.always (calm_displayed v)).bind fun _ => .pure _

end Shell

end ScriptBoundary
