/-!
Text between a mark at its start and another at its end, such as parentheses or quotes. Marks
inside do not matter.
-/

namespace ScriptBoundary.Text

/-- The text inside one enclosing pair of marks. A single mark encloses nothing. -/
def inside? (left right : Char) : List Char → Option (List Char)
  | [] => none
  | c :: rest => if c = left && rest.getLast? = some right then some rest.dropLast else none

theorem inside?_enclosed (left right : Char) (text : List Char) :
    inside? left right (left :: (text ++ [right])) = some text := by
  simp [inside?]

theorem length_inside {left right : Char} {text inner : List Char}
    (h : inside? left right text = some inner) : inner.length < text.length := by
  unfold inside? at h
  split at h
  · cases h
  · split at h
    · cases h
      simp only [List.length_dropLast, List.length_cons]
      omega
    · cases h

end ScriptBoundary.Text
