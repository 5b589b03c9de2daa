import Mathlib.Data.List.DropRight
import ScriptBoundary.Text.Blank

/-!
Blanks at the ends of a text. Trimming takes all of them and nothing else, so it does not matter how many
there are.
-/

namespace ScriptBoundary.Text

/-- No blank stands at either end. -/
def Solid (text : List Char) : Prop :=
  (∀ c ∈ text.head?, isBlank c = false) ∧ ∀ c ∈ text.getLast?, isBlank c = false

theorem solid_of_forall {text : List Char} (solid : ∀ c ∈ text, isBlank c = false) : Solid text :=
  ⟨fun c first => solid c (List.mem_of_mem_head? first), fun c last => solid c (List.mem_of_getLast? last)⟩

theorem solid_enclosed {left right : Char} (first : isBlank left = false) (last : isBlank right = false)
    (text : List Char) : Solid (left :: (text ++ [right])) := by
  rw [Solid, ← List.cons_append, List.getLast?_concat]
  constructor
  · rintro _ ⟨⟩
    exact first
  · rintro _ ⟨⟩
    exact last

/-- Blanks that were cut from the start are not missed. -/
theorem trim_trimStart (text : List Char) : trim (trimStart text) = trim text := by
  simp only [trim, trimStart, List.dropWhile_idempotent]

theorem trimStart_of_not_blank {c : Char} (solid : isBlank c = false) (rest : List Char) :
    trimStart (c :: rest) = c :: rest := by
  simp [trimStart, solid]

theorem trimStart_ne_nil {text : List Char} (filled : ∃ c ∈ text, isBlank c = false) :
    trimStart text ≠ [] := by
  obtain ⟨c, inside, solid⟩ := filled
  rw [trimStart, Ne, List.dropWhile_eq_nil_iff]
  intro blank
  exact absurd (blank c inside) (by simp [solid])

/-- What is left does not start with a blank. -/
theorem head?_trimStart (text : List Char) : ∀ c ∈ (trimStart text).head?, isBlank c = false := by
  intro c first
  have stops := List.head?_dropWhile_not isBlank text
  rw [trimStart] at first
  rwa [Option.mem_def.1 first] at stops

theorem trimStart_of_solid {text : List Char} (solid : ∀ c ∈ text.head?, isBlank c = false) :
    trimStart text = text := by
  cases text with
  | nil => rfl
  | cons c rest => exact trimStart_of_not_blank (solid c rfl) rest

/-- Blanks in front do not matter. -/
theorem trimStart_append {blanks : List Char} (blank : ∀ c ∈ blanks, isBlank c = true) (text : List Char) :
    trimStart (blanks ++ text) = trimStart text :=
  List.dropWhile_append_of_pos blank

theorem trimEnd_eq (text : List Char) : trimEnd text = text.rdropWhile isBlank := rfl

theorem trimEnd_append {blanks : List Char} (blank : ∀ c ∈ blanks, isBlank c = true) (text : List Char) :
    trimEnd (text ++ blanks) = trimEnd text := by
  rw [trimEnd, List.reverse_append, List.dropWhile_append_of_pos fun c inside => blank c (List.mem_reverse.1 inside)]
  rfl

theorem trim_of_solid {text : List Char} (solid : Solid text) : trim text = text := by
  rw [trim, trimStart_of_solid solid.1, trimEnd_eq, List.rdropWhile_eq_self_iff]
  intro filled
  simp [solid.2 _ (List.getLast?_eq_some_getLast filled)]

theorem solid_trim (text : List Char) : Solid (trim text) := by
  rw [trim, trimEnd_eq]
  constructor
  · -- A text keeps its first character for as long as it has one.
    intro c first
    obtain ⟨cut, whole⟩ := List.rdropWhile_prefix isBlank (trimStart text)
    refine head?_trimStart text c ?_
    rw [← whole, List.head?_append, Option.mem_def.1 first]
    rfl
  · intro c last
    have filled : (trimStart text).rdropWhile isBlank ≠ [] := by
      rintro empty
      rw [empty] at last
      cases last
    rw [List.getLast?_eq_some_getLast filled] at last
    cases last
    exact Bool.eq_false_iff.2 (List.rdropWhile_last_not isBlank _ filled)

/-- Nothing but blanks is cut. -/
theorem exists_surrounded (text : List Char) :
    ∃ before after, (∀ c ∈ before ++ after, isBlank c = true) ∧ text = before ++ trim text ++ after := by
  refine ⟨text.takeWhile isBlank, (trimStart text).rtakeWhile isBlank, ?_, ?_⟩
  · exact List.forall_mem_append.2 ⟨fun c => List.mem_takeWhile_imp, fun c => List.mem_rtakeWhile_imp⟩
  · have kept : trim text ++ (trimStart text).rtakeWhile isBlank = trimStart text := by
      rw [trim, trimEnd_eq]
      exact List.rdropWhile_append_rtakeWhile
    rw [List.append_assoc, kept, trimStart, List.takeWhile_append_dropWhile]

/-- Blanks around a text do not matter. -/
theorem trim_surrounded {before after : List Char} (blank : ∀ c ∈ before ++ after, isBlank c = true)
    (text : List Char) : trim (before ++ text ++ after) = trim text := by
  obtain ⟨first, last⟩ := List.forall_mem_append.1 blank
  have stop : trimStart after = [] := List.dropWhile_eq_nil_iff.2 last
  rw [trim, List.append_assoc, trimStart_append first, trimStart, List.dropWhile_append]
  split
  next empty =>
    rw [List.isEmpty_iff] at empty
    change trimEnd (trimStart after) = trim text
    rw [stop, trim, trimStart, empty]
  next => exact trimEnd_append last _

end ScriptBoundary.Text
