/-!
Lists cut at every occurrence of a separator.
-/

namespace ScriptBoundary.Text

variable {α : Type} [DecidableEq α]

/-- The parts between separators, one more than there are separators. -/
def parts (separator : α) : List α → List (List α)
  | [] => [[]]
  | a :: rest =>
    if a = separator then [] :: parts separator rest
    else
      match parts separator rest with
      | [] => [[a]]
      | part :: others => (a :: part) :: others

end ScriptBoundary.Text
