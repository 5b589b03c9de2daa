import ScriptBoundary.Double.Rounding
import ScriptBoundary.Gateway
import ScriptBoundary.Session.Code

/-!
What routines and actions do. Code may call across the boundary and so run other code, and itself
again; the depth of such nesting is bounded by a count.
-/

namespace ScriptBoundary.Session

abbrev HostCode := Routine Raw
abbrev EngineCode := Action Value
abbrev CodeM (α : Type) := Run HostCode EngineCode α

def countOf {α : Type} (items : List α) : Int32 := .ofNat items.length

/-- The first of the arguments as a name, empty if it is none. -/
def firstName (args : List Value) : String := (args.head?.elim "" Value.asString)

namespace Routine

/-- The diagnostic text of values, as they are printed and shown. -/
def describeAll (args : List Raw) : String := ", ".intercalate (args.map Raw.debug)

/-- The sum of the numbers, from left to right. -/
def sum (args : List Raw) : Double :=
  args.foldl (fun total raw =>
    match raw with
    | .int32 i => total.add (Double.ofInt i.toInt)
    | .double d => total.add d
    | _ => total) .zero

/-- What is to happen elsewhere happens, once. -/
def interrupt (β : Behaviour HostCode EngineCode) : WorldM HostCode EngineCode Unit := do
  let w ← get
  set { w with gate := none }
  match w.gate with
  | none => return
  | some .destroyBridge => WorldM.destroyBridge w.current
  | some .dropGateway => do let _ ← WorldM.dropGateway β

def lend (raw : Raw) : CodeM (Option Raw) := do
  Run.retainAll raw.handles
  return some raw

/-- Calls out with values of the host and takes the result back to it. -/
def callOut (β : Behaviour HostCode EngineCode) (name : String) (args : List Raw) :
    CodeM (Option Raw) := do
  let values ← Run.onHost (Marshal.readAllLent args)
  Run.holding (values.flatMap Value.handles) do
    match ← Run.callInline β (← get).current (.ofText name) values with
    | none => return none
    | some value => Run.holding value.handles (some <$> Marshal.writeForHost β value)

/-- One step of the countdown. The count of calls must stay within 32 bits. -/
def countDown (β : Behaviour HostCode EngineCode) (name : String) (n : Int32) :
    CodeM (Option Raw) := do
  let w ← get
  if n.toInt ≤ 0 then return some (.int32 (countOf (w.bridge w.current).pending))
  match ← Run.callInline β w.current (.ofText name) [.int32 (.ofInt (n.toInt - 1))] with
  | none => return none
  | some value =>
    Run.releaseAll value.handles
    let calls := value.asInt32.toInt + 1
    if Text.inInt32 calls then return some (.int32 (.ofInt calls))
    throw (.panic "attempt to add with overflow")

def run (β : Behaviour HostCode EngineCode) : HostCode → List Raw → CodeM (Option Raw)
  | .fail, _ => return none
  | .panic text, _ => throw (.panic text)
  | .const value, _ => lend value
  | .count, args => return some (.int32 (countOf args))
  | .echo, args => args.head?.elim (return none) lend
  | .describe, args => return some (.string (describeAll args))
  | .collect, args => do
    let h ← Run.onHost (Host.onHeap (Heap.allocArray args))
    return some (.object h)
  | .read property, args => do
    let id ← Run.onHost (Host.intern property)
    match args with
    | .object h :: _ => Run.onHost (Host.getProperty h id)
    | _ => return none
  | .write property, args => do
    let id ← Run.onHost (Host.intern property)
    match args with
    | .object h :: value :: _ =>
      return some (.boolean (← Run.onHost (Host.onHeap (Heap.store h id value))))
    | _ => return none
  | .pending, _ => do
    let w ← get
    return some (.int32 (countOf (w.bridge w.current).pending))
  | .destroy, args => do
    Run.always (WorldM.destroyBridge (← get).current)
    return some (.int32 (countOf args))
  | .call name, args => callOut β name args
  | .countdown name, args =>
    match args with
    | .int32 n :: _ => countDown β name n
    | _ => return none
  | .gateway method, args => do
    match (← get).gateway with
    | none => return none
    | some r =>
      let id ← Run.onHost (Host.intern method)
      let (handled, value) ← Gateway.invoke β id args r
      return if handled then value else none
  | .gated fails, args => do
    Run.always (interrupt β)
    if fails then throw (.panic "the gate failed")
    args.head?.elim (return none) lend
  | .alert, args => do
    modify fun w => { w with printed := w.printed ++ ["[host] alert: " ++ describeAll args] }
    return some .void
  | .add, args => return some (.double (sum args))

end Routine

namespace Action

/-- A copy of a value, with references of its own. -/
def copy (value : Value) : CodeM Value := do
  Run.retainAll value.handles
  return value

def copyAll : List Value → CodeM (List Value)
  | [] => return []
  | value :: rest => return (← copy value) :: (← copyAll rest)

def displayAll : List Value → CodeM (List String)
  | [] => return []
  | value :: rest => return (← Run.always (WorldM.display value)) :: (← displayAll rest)

def run (β : Behaviour HostCode EngineCode) :
    EngineCode → Registry EngineCode → Identifier → List Value → CodeM CallResult
  | .done, _, _, _ => return .done
  | .unhandled, _, _, _ => return .unhandled
  | .const value, _, _, _ => return .returning (← copy value)
  | .result handled value, _, _, _ =>
    match value with
    | none => return ⟨handled, none⟩
    | some value => return ⟨handled, some (← copy value)⟩
  | .echo handled, _, _, args =>
    match args with
    | [] => return ⟨handled, none⟩
    | value :: _ => return ⟨handled, some (← copy value)⟩
  | .count, _, _, args => return .returning (.int32 (countOf args))
  | .expression, _, id, _ => return .returning (.string id.expression)
  | .list, _, _, args => return .returning (.object (.ofElements (← copyAll args)))
  | .display, _, _, args =>
    return .returning (.string (" ".intercalate (← displayAll args)))
  | .property, r, _, args => do
    let id := Identifier.ofText (firstName args)
    return ⟨r.properties.contains id, ← Run.always (r.copyProperty id)⟩
  | .identifiers, r, _, _ =>
    return .returning (.object (.ofElements (r.identifiers.map fun id => .string id.display)))
  | .delegate, r, _, args =>
    match args with
    | [] => return .unhandled
    | first :: rest => return (← r.call β (.ofText first.asString) rest).getD .unhandled
  | .relay, r, _, args =>
    match args with
    | [] => return .unhandled
    | first :: rest => do
      let result ← Run.callInline β r.bridge (.ofText first.asString) rest
      return ⟨result.isSome, result⟩
  | .raise, r, _, args => do
    Run.always (r.raise (firstName args))
    return .done
  | .destroy, r, _, _ => do
    Run.always (WorldM.destroyBridge r.bridge)
    return .returning (.boolean (← Run.always r.isShutDown))
  | .panic text, _, _, _ => throw (.panic text)

end Action

/-- The references in the constants of a method. -/
def keeps (code : EngineCode) : List Handle := code.constants.flatMap Value.handles

/-- Behaviour with `depth` levels of nesting left. -/
def behaviour : Nat → Behaviour HostCode EngineCode
  | 0 => ⟨fun _ _ => throw .tooDeep, fun _ _ _ _ => throw .tooDeep, keeps⟩
  | depth + 1 => ⟨Routine.run (behaviour depth), Action.run (behaviour depth), keeps⟩

/-- The nesting that code is given. -/
def depthOfCode : Nat := 2048

def standard : Behaviour HostCode EngineCode := behaviour depthOfCode

end ScriptBoundary.Session
