import ScriptBoundary.Text.Cluster

/-!
Lines of input, in which a backspace takes back what was typed before it: the last cluster of
characters that is still there. At the start of a line it takes back nothing.
-/

namespace ScriptBoundary

/-- A line while it is typed: its characters, and the sizes of its clusters in bytes, both from the
end. -/
structure Draft where
  text : List Char
  sizes : List Nat

namespace Draft

def backspace : Char := '\x08'

def empty : Draft := ⟨[], []⟩

/-- The size of a text in bytes. Only the lowest eight bits of it are kept, so a cluster of 256
bytes or more is not taken back whole. -/
def size (text : List Char) : Nat := text.foldl (fun bytes c => bytes + c.utf8Size) 0 % 256

/-- Drops bytes from the end. A character cannot be cut. -/
def dropBytes? : Nat → List Char → Option (List Char)
  | 0, text => some text
  | _, [] => none
  | n, c :: rest => if c.utf8Size ≤ n then dropBytes? (n - c.utf8Size) rest else none

/-- Takes a cluster, or takes one back. -/
def enter (draft : Draft) (cluster : List Char) : Option Draft :=
  if cluster = [backspace] then
    match draft.sizes with
    | [] => some draft
    | n :: sizes => (dropBytes? n draft.text).map fun text => ⟨text, sizes⟩
  else some ⟨cluster.reverse ++ draft.text, size cluster :: draft.sizes⟩

theorem foldlM_enter (clusters : List (List Char)) (draft : Draft)
    (text : ∀ cluster ∈ clusters, cluster ≠ [backspace]) :
    ∃ sizes, clusters.foldlM enter draft = some ⟨clusters.flatten.reverse ++ draft.text, sizes⟩ := by
  induction clusters generalizing draft with
  | nil => exact ⟨draft.sizes, rfl⟩
  | cons cluster rest ih =>
    obtain ⟨first, later⟩ := List.forall_mem_cons.1 text
    obtain ⟨sizes, run⟩ := ih ⟨cluster.reverse ++ draft.text, size cluster :: draft.sizes⟩ later
    exact ⟨sizes, by simp [enter, first, run]⟩

end Draft

/-- What is left of a line once it is typed; `none` if a character was cut on the way. -/
def typed? (line : List Char) : Option (List Char) :=
  ((Text.clusters line).foldlM Draft.enter Draft.empty).map fun draft => draft.text.reverse

/-- A line without a backspace stays as it is. -/
theorem typed?_of_no_backspace {line : List Char} (h : Draft.backspace ∉ line) :
    typed? line = some line := by
  have text : ∀ cluster ∈ Text.clusters line, cluster ≠ [Draft.backspace] := by
    rintro _ found rfl
    apply h
    rw [← Text.flatten_clusters line]
    exact List.mem_flatten.2 ⟨_, found, List.mem_singleton_self _⟩
  obtain ⟨sizes, run⟩ := Draft.foldlM_enter _ .empty text
  rw [typed?, run, Text.flatten_clusters]
  simp [Draft.empty]

end ScriptBoundary
