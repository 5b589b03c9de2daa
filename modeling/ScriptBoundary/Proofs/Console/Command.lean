import ScriptBoundary.Console.Command
import ScriptBoundary.Proofs.Console.Literal

/-!
The lines that read, write and remove a property, and the commands that they stand for.
-/

namespace ScriptBoundary

namespace Literal

theorem read_trimStart (text : List Char) : read (Text.trimStart text) = read text := by
  rw [read, Text.trim_trimStart, read]

end Literal

namespace Command

/-! ## Names -/

/-- A name as it can stand before a mark. -/
def Named (mark : Char) (name : List Char) : Prop := name ≠ [] ∧ ∀ c ∈ name, inName mark c = true

instance (mark : Char) (name : List Char) : Decidable (Named mark name) :=
  decidable_of_iff (name ≠ [] ∧ name.all (inName mark) = true) (by simp [Named])

/-- A name as it can stand in every command: not empty, without blanks and equals signs. -/
def IsName (text : List Char) : Prop := text ≠ [] ∧ ∀ c ∈ text, Text.isBlank c = false ∧ c ≠ '='

instance (text : List Char) : Decidable (IsName text) :=
  decidable_of_iff (text ≠ [] ∧ text.all (fun c => !Text.isBlank c && c != '=') = true) (by simp [IsName])

variable {name literal line text : List Char} {mark : Char}

namespace Named

theorem not_blank (named : Named mark name) {c : Char} (inside : c ∈ name) : Text.isBlank c = false := by
  have here := named.2 c inside
  rw [inName, Bool.and_eq_true, Bool.not_eq_true'] at here
  exact here.1

theorem no_feed (named : Named mark name) : '\n' ∉ name := fun inside =>
  absurd (named.not_blank inside) (by decide)

theorem trimStart (named : Named mark name) (rest : List Char) :
    Text.trimStart (name ++ rest) = name ++ rest := by
  obtain ⟨c, tail, rfl⟩ := List.exists_cons_of_ne_nil named.1
  exact Text.trimStart_of_not_blank (named.not_blank List.mem_cons_self) _

end Named

/-! A run of characters ends where the first other one stands. -/

theorem takeWhile_run {p : Char → Bool} (inside : ∀ c ∈ name, p c = true) (stop : ∀ c ∈ text.head?, p c = false) :
    (name ++ text).takeWhile p = name := by
  rw [List.takeWhile_append_of_pos inside]
  cases text with
  | nil => exact List.append_nil name
  | cons c rest => simp [stop c rfl]

theorem dropWhile_run {p : Char → Bool} (inside : ∀ c ∈ name, p c = true) (stop : ∀ c ∈ text.head?, p c = false) :
    (name ++ text).dropWhile p = text := by
  rw [List.dropWhile_append_of_pos inside]
  cases text with
  | nil => rfl
  | cons c rest => simp [stop c rfl]

theorem isName_iff : IsName name ↔ Named '=' name :=
  and_congr_right fun _ => forall₂_congr fun c _ => by simp [inName]

namespace IsName

theorem trimStart (named : IsName name) (rest : List Char) :
    Text.trimStart (name ++ rest) = name ++ rest := (isName_iff.1 named).trimStart rest

theorem inName (named : IsName name) : ∀ c ∈ name, inName '=' c := (isName_iff.1 named).2

theorem name? (named : IsName name) : Command.name? name = some (String.ofList name) := by
  have solid : name.any Text.isBlank = false := by
    rw [List.any_eq_false]
    intro c inside
    simp [(named.2 c inside).1]
  simp [Command.name?, named.1, solid]

end IsName

/-! ## Verbs -/

def verbs : List String := ["call", "invoke", "get", "set", "del"]

theorem after?_eq_some_iff {verb : String} : after? verb line = some text ↔
    ∃ c rest, line = verb.toList ++ c :: rest ∧ Text.isBlank c = true ∧ text = Text.trimStart rest := by
  rw [after?]
  constructor
  · intro found
    split at found
    next c rest is =>
      split at found
      next blank =>
        exact ⟨c, rest, (List.isPrefixOf?_eq_some_iff_append_eq.1 is).symm, blank, (Option.some.inj found).symm⟩
      next => cases found
    next => cases found
  · rintro ⟨c, rest, rfl, blank, rfl⟩
    rw [List.isPrefixOf?_eq_some_iff_append_eq.2 (rfl : _ = verb.toList ++ c :: rest)]
    exact if_pos blank

/-- A line with a verb is no single word, and it has no other verb: all start with different letters. -/
theorem others_of_verb {verb : String} (known : verb ∈ verbs) (found : after? verb line = some text) :
    words.lookup (String.ofList line) = none ∧ ∀ other ∈ verbs, other ≠ verb → after? other line = none := by
  have spelt : ∀ verb ∈ verbs, ∃ c rest, verb.toList = c :: rest := by
    intro verb known
    exact List.exists_cons_of_ne_nil (by revert verb; decide)
  have fromWords : ∀ verb ∈ verbs, ∀ w ∈ words, w.1.toList.head? ≠ verb.toList.head? := by decide
  have fromVerbs : ∀ verb ∈ verbs, ∀ other ∈ verbs, other ≠ verb → other.toList.head? ≠ verb.toList.head? := by
    decide
  obtain ⟨c, rest, rfl, _, _⟩ := after?_eq_some_iff.1 found
  obtain ⟨letter, letters, is⟩ := spelt verb known
  constructor
  · have apart := fromWords verb known
    rw [is] at apart ⊢
    exact Literal.lookup_eq_none apart _
  · intro other known' differs
    have apart := fromVerbs verb known other known' differs
    obtain ⟨letter', letters', is'⟩ := spelt other known'
    rw [is, is'] at apart
    cases found' : after? other (verb.toList ++ c :: rest) with
    | none => rfl
    | some text' =>
      obtain ⟨c', rest', same, _, _⟩ := after?_eq_some_iff.1 found'
      rw [is, is'] at same
      exact absurd (congrArg some (List.cons.inj same).1.symm) apart

/-- Behind its verb a line is parsed as that command or not at all. -/
theorem parse?_of_call (found : after? "call" line = some text) :
    parse? line = (callee? text).map fun c => call c.1 c.2 := by
  obtain ⟨word, others⟩ := others_of_verb (by decide) found
  simp [parse?, word, found, others "invoke" (by decide) (by decide), others "get" (by decide) (by decide),
    others "set" (by decide) (by decide), others "del" (by decide) (by decide)]

theorem parse?_of_invoke (found : after? "invoke" line = some text) :
    parse? line = (callee? text).map fun c => invoke c.1 c.2 := by
  obtain ⟨word, others⟩ := others_of_verb (by decide) found
  simp [parse?, word, found, others "call" (by decide) (by decide), others "get" (by decide) (by decide),
    others "set" (by decide) (by decide), others "del" (by decide) (by decide)]

theorem parse?_of_get (found : after? "get" line = some text) : parse? line = (name? text).map get := by
  obtain ⟨word, others⟩ := others_of_verb (by decide) found
  simp [parse?, word, found, others "call" (by decide) (by decide), others "invoke" (by decide) (by decide),
    others "set" (by decide) (by decide), others "del" (by decide) (by decide)]

theorem parse?_of_set (found : after? "set" line = some text) :
    parse? line = (binding? text).map fun b => set b.1 (Literal.read b.2) := by
  obtain ⟨word, others⟩ := others_of_verb (by decide) found
  simp [parse?, word, found, others "call" (by decide) (by decide), others "invoke" (by decide) (by decide),
    others "get" (by decide) (by decide), others "del" (by decide) (by decide)]

theorem parse?_of_delete (found : after? "del" line = some text) : parse? line = (name? text).map delete := by
  obtain ⟨word, others⟩ := others_of_verb (by decide) found
  simp [parse?, word, found, others "call" (by decide) (by decide), others "invoke" (by decide) (by decide),
    others "get" (by decide) (by decide), others "set" (by decide) (by decide)]

/-! ## Lines about a property -/

def getLine (name : List Char) : List Char := "get ".toList ++ name

def setLine (name literal : List Char) : List Char :=
  "set ".toList ++ (name ++ ' ' :: '=' :: ' ' :: literal)

def deleteLine (name : List Char) : List Char := "del ".toList ++ name

theorem parse?_getLine (named : IsName name) :
    parse? (getLine name) = some (.get (String.ofList name)) := by
  have trimmed := named.trimStart []
  rw [List.append_nil] at trimmed
  have verb : after? "get" (getLine name) = some name :=
    after?_eq_some_iff.2 ⟨' ', name, rfl, by decide, trimmed.symm⟩
  rw [parse?_of_get verb, named.name?]
  rfl

theorem parse?_deleteLine (named : IsName name) :
    parse? (deleteLine name) = some (.delete (String.ofList name)) := by
  have trimmed := named.trimStart []
  rw [List.append_nil] at trimmed
  have verb : after? "del" (deleteLine name) = some name :=
    after?_eq_some_iff.2 ⟨' ', name, rfl, by decide, trimmed.symm⟩
  rw [parse?_of_delete verb, named.name?]
  rfl

theorem binding?_of_name (named : IsName name) (filled : ∃ c ∈ literal, Text.isBlank c = false) :
    binding? (name ++ ' ' :: '=' :: ' ' :: literal)
      = some (String.ofList name, Text.trimStart literal) := by
  have stop : ∀ c ∈ (' ' :: '=' :: ' ' :: literal).head?, Command.inName '=' c = false := by
    rintro c ⟨⟩
    rfl
  have value : afterEquals (' ' :: '=' :: ' ' :: literal) = Text.trimStart literal := rfl
  simp [binding?, dropWhile_run named.inName stop, takeWhile_run named.inName stop, value,
    Text.trimStart_ne_nil filled, named.1]

theorem parse?_setLine (named : IsName name) (filled : ∃ c ∈ literal, Text.isBlank c = false) :
    parse? (setLine name literal) = some (.set (String.ofList name) (Literal.read literal)) := by
  have verb : after? "set" (setLine name literal) = some (name ++ ' ' :: '=' :: ' ' :: literal) :=
    after?_eq_some_iff.2 ⟨' ', _, rfl, by decide, (named.trimStart _).symm⟩
  rw [parse?_of_set verb, binding?_of_name named filled, Option.map_some, Literal.read_trimStart]

end Command

end ScriptBoundary
