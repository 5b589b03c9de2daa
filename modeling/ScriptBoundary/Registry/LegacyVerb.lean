import ScriptBoundary.Registry.CallResult

/-!
Verbs that older pages call. None of them does anything; each answers with a fixed result.
-/

namespace ScriptBoundary

structure LegacyVerb where
  name : String
  handled : Bool
  answer : Scalar
deriving DecidableEq

namespace LegacyVerb

def result (verb : LegacyVerb) : CallResult := ⟨verb.handled, some (.scalar verb.answer)⟩

def refusing (name : String) : LegacyVerb := ⟨name, false, .boolean false⟩

/-- All verbs, in the order of their registration. -/
def all : List LegacyVerb := [
  refusing "SetVariable",
  ⟨"GetVariable", false, .void⟩,
  refusing "GotoFrame",
  ⟨"IsPlaying", true, .boolean true⟩,
  refusing "LoadMovie",
  refusing "Pan",
  ⟨"PercentLoaded", true, .int32 100⟩,
  refusing "Play",
  refusing "Rewind",
  refusing "SetZoomRect",
  refusing "StopPlay",
  refusing "Zoom",
  refusing "TotalFrames"]

end LegacyVerb

end ScriptBoundary
