import ScriptBoundary.Host.EntryPoints
import ScriptBoundary.Value.Basic

/-!
What a session answers to its steps.
-/

namespace ScriptBoundary.Session

inductive Answer where
  | nothing
  | flag (value : Bool)
  | number (value : Int)
  | text (value : String)
  | raw (value : Raw)
  | value (value : Value)
  | list (items : List Answer)
  | fields (items : List (String × Answer))

namespace Answer

def count (n : Nat) : Answer := .number n

def handle (h : Handle) : Answer := .count h.number

def bag (b : Bag Value) : Answer := .value (.object b)

/-- A name is text and an integer a number, so the two are told apart. -/
def identifier : Identifier → Answer
  | .name s => .text s
  | .index i => .number i.toInt

/-- A host identifier as the host itself would show it; a name that it does not know is nothing. -/
def hostId (names : Names) (id : HostId) : Answer :=
  if id.isName then (names.text? id).elim .nothing .text else .number id.toInt32.toInt

def option {α : Type} (f : α → Answer) (a : Option α) : Answer := a.elim .nothing f

def texts (items : List String) : Answer := .list (items.map .text)

/-- The outcome of a step that panicked. -/
def panic (text : String) : Answer := .fields [("panic", .text text)]

/-- The host thread is dead, so the step did not run. -/
def hostGone : Answer := .fields [("host", .text "gone")]

end Answer

end ScriptBoundary.Session
