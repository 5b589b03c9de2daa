import ScriptBoundary.Host.Properties
import ScriptBoundary.Text.Blank
import ScriptBoundary.Text.Enclosed

/-!
Script expressions. Blanks and balanced parentheses around an expression do not matter: the text
inside them is what is looked up, first among the defined expressions, then as a property name.
-/

namespace ScriptBoundary

namespace Text

theorem length_trim_le (text : List Char) : (trim text).length ≤ text.length := by
  have start := (List.dropWhile_sublist (p := isBlank) (l := text)).length_le
  have stop := (List.dropWhile_sublist (p := isBlank) (l := (text.dropWhile isBlank).reverse)).length_le
  simp only [trim, trimEnd, trimStart, List.length_reverse] at stop ⊢
  omega

/-- Takes away blanks and enclosing parentheses until there are none. -/
def stripParens (text : List Char) : List Char :=
  match _found : inside? '(' ')' (trim text) with
  | some inner => stripParens inner
  | none => trim text
termination_by text.length
decreasing_by
  have := length_inside _found
  have := length_trim_le text
  omega

end Text

namespace Heap

variable {ρ : Type}

def expressionKey (script : String) : String := String.ofList (Text.stripParens script.toList)

/-- Makes an expression evaluate to a value; the table holds a reference to it. -/
def defineExpression (script : String) (value : Raw) (heap : Heap ρ) : Heap ρ :=
  let text := expressionKey script
  let heap := heap.retainValue value
  let old := heap.expressions.find? text
  { heap with expressions := heap.expressions.insert text value }.releaseAll
    (old.elim [] Raw.handles)

/-- Evaluates an expression in the scope of an object; the caller gets a reference. -/
def evaluate (target : Handle) (script : String) (heap : Heap ρ) : Option Raw × Heap ρ :=
  let text := expressionKey script
  match heap.expressions.find? text with
  | some value => (some value, heap.retainValue value)
  | none =>
    let (value?, heap) := heap.peek target text
    (value?, heap.retainAll (value?.elim [] Raw.handles))

end Heap

end ScriptBoundary
