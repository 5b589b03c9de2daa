import ScriptBoundary.Session.Answer
import ScriptBoundary.Value.Text

/-!
Steps on a single bag.
-/

namespace ScriptBoundary.Session

/-- Values in a step are a parameter: they are written down before they are built. -/
inductive BagStep (κ : Type) where
  | set (id : Identifier) (value : κ)
  | push (value : κ)
  | remove (id : Identifier)
  | get (id : Identifier)
  | has (id : Identifier)
  | length
  | identifiers
  | elements
  | display
  | debug
  | contents
  | equals (other : κ)

namespace BagStep

def mapM {m : Type → Type} [Monad m] {κ κ' : Type} (f : κ → m κ') : BagStep κ → m (BagStep κ')
  | .set id value => return .set id (← f value)
  | .push value => return .push (← f value)
  | .remove id => return .remove id
  | .get id => return .get id
  | .has id => return .has id
  | .length => return .length
  | .identifiers => return .identifiers
  | .elements => return .elements
  | .display => return .display
  | .debug => return .debug
  | .contents => return .contents
  | .equals other => return .equals (← f other)

def sizes (b : Bag Value) : List (String × Answer) :=
  [("len", .count b.size), ("array_length", .count b.arrayLength)]

/-- The answer to a step, and the bag after it. -/
def apply (b : Bag Value) : BagStep Value → Answer × Bag Value
  | .set id value => (.fields (sizes (b.set id value)), b.set id value)
  | .push value => (.fields (sizes (b.push value)), b.push value)
  | .remove id => (.flag (b.contains id), b.remove id)
  | .get id => (.option .value (b.find? id), b)
  | .has id => (.flag (b.contains id), b)
  | .length =>
    (.fields (sizes b ++ [("empty", .flag b.props.isEmpty), ("is_array", .flag b.isArray)]), b)
  | .identifiers => (.list (b.identifiers.map .identifier), b)
  | .elements => (.list ((b.elements .void).map .value), b)
  | .display => (.text b.display, b)
  | .debug => (.text b.debug, b)
  | .contents => (.bag b, b)
  | .equals other => (.flag ((Value.object b).equals other), b)

/-- The references that a step copies for its answer alone. -/
def copied (b : Bag Value) : BagStep Value → List Handle
  | .get id => (b.find? id).elim [] Value.handles
  | .elements => (b.elements .void).flatMap Value.handles
  | .display => (Value.object b).copiedByDisplay
  | _ => []

/-- The references that nobody holds after a step. -/
def lost (b : Bag Value) : BagStep Value → List Handle
  | .set id _ => b.lostBySet id
  | .push _ => b.lostBySet (.index b.nextIndex)
  | .remove id => b.lostByRemove id
  | .equals other => other.handles
  | _ => []

end BagStep

/-- Runs steps on one bag, one answer for each. -/
def runBagSteps (b : Bag Value) : List (BagStep Value) → List Answer
  | [] => []
  | step :: rest =>
    let (answer, b) := step.apply b
    answer :: runBagSteps b rest

end ScriptBoundary.Session
