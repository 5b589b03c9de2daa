import ScriptBoundary.Call.Latch
import ScriptBoundary.Session.Answer

/-!
Steps on a single latch.
-/

namespace ScriptBoundary.Session

inductive LatchStep where
  | complete (result : Option Value)
  | cancel
  | isCancelled
  | take
  /-- Waits for a latch that has been signalled. -/
  | wait
  /-- Waits while another thread completes the call, or cancels it. -/
  | waitComplete (result : Option Value)
  | waitCancel

namespace LatchStep

def apply (latch : Latch) : LatchStep → Answer × Latch
  | .complete result | .waitComplete result =>
    let (accepted, latch) := latch.complete result
    (.flag accepted, latch)
  | .cancel | .waitCancel =>
    let (accepted, latch) := latch.cancel
    (.flag accepted, latch)
  | .isCancelled => (.flag latch.isCancelled, latch)
  | .take =>
    let (result, latch) := latch.take
    (.option .value result, latch)
  | .wait => (.flag latch.isSignalled, latch)

end LatchStep

/-- Runs steps on one latch, one answer for each. -/
def runLatchSteps (latch : Latch) : List LatchStep → List Answer
  | [] => []
  | step :: rest =>
    let (answer, latch) := step.apply latch
    answer :: runLatchSteps latch rest

end ScriptBoundary.Session
