import ScriptBoundary.Session.EntryStep
import ScriptBoundary.Session.HostStep
import ScriptBoundary.Session.RegistryStep

/-!
Sessions as scripts: steps taken one after the other, each with an answer.
-/

namespace ScriptBoundary.Session

inductive Step where
  | host (step : HostStep)
  | entry (step : EntryStep)
  | value (step : ValueStep)
  | call (step : CallStep)
  | gateway (step : GatewayStep)
  | object (step : ObjectStep)

def Step.perform : Step → SessionM Answer
  | .host step => step.perform
  | .entry step => step.perform
  | .value step => step.perform
  | .call step => step.perform
  | .gateway step => step.perform
  | .object step => step.perform

def runSteps : List Step → SessionM (List Answer)
  | [] => return []
  | step :: rest => return (← step.perform) :: (← runSteps rest)

/-- The answers of a fresh session to a script. -/
def answers (element : Option (String × String)) (marshalsExceptions : Bool) (steps : List Step) :
    List Answer :=
  ((runSteps steps).run (start element marshalsExceptions)).1

end ScriptBoundary.Session
