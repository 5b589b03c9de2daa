/-!
Sets of code points, as closed ranges in increasing order.
-/

namespace ScriptBoundary.Text

/-- The code point lies in one of the ranges. -/
def inRanges (ranges : List (Nat × Nat)) (point : Nat) : Bool :=
  ranges.any fun (low, high) => low ≤ point && point ≤ high

end ScriptBoundary.Text
