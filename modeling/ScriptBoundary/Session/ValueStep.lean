import ScriptBoundary.Session.BagStep
import ScriptBoundary.Session.State

/-!
Steps on saved engine values and on owned host values, and conversions between the two.
-/

namespace ScriptBoundary.Session

inductive ValueStep where
  | save (value : ValueLiteral) (saveAs : Option String)
  /-- A step on the bag that was saved. -/
  | onBag (name : String) (step : BagStep ValueLiteral)
  | describe (name : String)
  | drop (name : String)
  | compare (a b : String)
  /-- Reads a host value that is only lent. -/
  | read (value : RawLiteral) (saveAs : Option String)
  | readBag (target : Target) (saveAs : Option String)
  | write (value : ValueLiteral) (saveAs : Option String) (handleAs : Option String)
  /-- To host form and back. -/
  | roundTrip (value : ValueLiteral) (saveAs : Option String)
  | readNative (native : String) (saveAs : Option String)
  /-- Owns a reference that the user of the session had. -/
  | adopt (value : RawLiteral) (saveAs : Option String) (handleAs : Option String)
  /-- Owns a reference of its own. -/
  | copy (value : RawLiteral) (saveAs : Option String) (handleAs : Option String)
  | copyNative (native : String) (saveAs : Option String) (handleAs : Option String)
  | describeNative (native : String)
  | compareNatives (a b : String)
  | dropNative (native : String)
  /-- Hands the reference back to the user of the session. -/
  | releaseNative (native : String)

namespace ValueStep

def saved (name : String) : SessionM (Option Value) := return (← get).values.find? name

def native (name : String) : SessionM Raw := return ((← get).natives.find? name).getD .void

def answerValue (saveAs : Option String) (value : Value) : SessionM Answer := do
  saveValue saveAs value
  return .value value

/-- Answers an owned host value, saves it, and its handle. -/
def answerNative (saveAs handleAs : Option String) (raw : Raw) : SessionM Answer := do
  match raw with
  | .object h => saveHandle handleAs h
  | .scalar _ => pure ()
  saveNative saveAs raw
  return .raw raw

/-- A step on a saved bag changes the saved value. -/
def stepOnBag (name : String) (bag : Bag Value) (step : BagStep Value) : SessionM Answer := do
  let (answer, after) := step.apply bag
  onWorld (WorldM.retainAll (step.copied bag))
  releaseAll (step.lost bag ++ step.copied bag)
  modify fun session => { session with values := session.values.insert name (.object after) }
  return answer

def describeValue (value : Value) : SessionM Answer := do
  let display ← onWorld (WorldM.display value)
  return .fields [
    ("value", .value value),
    ("native", .option .handle value.backing?),
    ("display", .text display),
    ("debug", .text value.debug)]

def describeRaw (raw : Raw) : Answer :=
  .fields [("kind", .text raw.kind.name), ("raw", .raw raw), ("debug", .text raw.debugOwned)]

/-- Builds a value, writes it and gives it up. -/
def writeLiteral (values : Table String Value) (literal : ValueLiteral) : CodeM Raw := do
  let value ← Run.always (build values literal)
  Run.holding value.handles (Marshal.write standard value)

def perform : ValueStep → SessionM Answer
  | .save literal saveAs => do answerValue saveAs (← buildValue literal)
  | .onBag name step => do
    match ← saved name with
    | some (.object bag) =>
      let step ← onWorld (step.mapM (build (← get).values))
      stepOnBag name bag step
    | _ => return .text "not an object"
  | .describe name => do
    match ← saved name with
    | none => return .nothing
    | some value => describeValue value
  | .drop name => do
    match ← saved name with
    | none => return .flag false
    | some value =>
      modify fun session => { session with values := session.values.erase name }
      releaseAll value.handles
      return .flag true
  | .compare a b => do
    match ← saved a, ← saved b with
    | some a, some b =>
      return .fields [("eq", .flag (a.equals b)), ("same_native", .flag (a.backing? = b.backing?))]
    | _, _ => return .nothing
  | .read value saveAs => do
    inThread (Run.onHost (Marshal.readLent ((← get).raw value))) (answerValue saveAs)
  | .readBag target saveAs => do
    let h := (← get).target target
    let body : CodeM Value := do
      Run.retainAll [h]
      let bag ← Run.onHost (Marshal.readBag h)
      Run.releaseAll [h]
      return .object bag
    inThread body (answerValue saveAs)
  | .write literal saveAs handleAs => do
    inThread (writeLiteral (← get).values literal) (answerNative saveAs handleAs)
  | .roundTrip literal saveAs => do
    let values := (← get).values
    let body : CodeM Value := do
      let raw ← writeLiteral values literal
      let value ← Run.onHost (Marshal.read raw)
      Run.releaseAll raw.handles
      return value
    inThread body (answerValue saveAs)
  | .readNative name saveAs => do
    inThread (Run.onHost (Marshal.read (← native name))) (answerValue saveAs)
  | .adopt value saveAs handleAs => do
    let raw := (← get).raw value
    inThread (return raw) (answerNative saveAs handleAs)
  | .copy value saveAs handleAs => do
    let raw := (← get).raw value
    inThread (do Run.retainAll raw.handles; return raw) (answerNative saveAs handleAs)
  | .copyNative name saveAs handleAs => do
    let raw ← native name
    inThread (do Run.retainAll raw.handles; return raw) (answerNative saveAs handleAs)
  | .describeNative name => do
    let raw ← native name
    inThread (return raw) fun raw => return describeRaw raw
  | .compareNatives a b => do
    let a ← native a
    let b ← native b
    inThread (return a.equals b) fun same => return .flag same
  | .dropNative name => do
    let found := (← get).natives.find? name
    inThread (return found) fun found => do
      match found with
      | none => return .flag false
      | some raw =>
        modify fun session => { session with natives := session.natives.erase name }
        releaseAll raw.handles
        return .flag true
  | .releaseNative name => do
    let raw ← native name
    inThread (do Run.retainAll raw.handles; Run.releaseAll raw.handles) fun _ => do
      modify fun session => { session with natives := session.natives.erase name }
      return .raw raw

end ValueStep

end ScriptBoundary.Session
