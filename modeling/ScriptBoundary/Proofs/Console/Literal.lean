import ScriptBoundary.Console.Literal
import ScriptBoundary.Proofs.Text.Blank
import ScriptBoundary.Proofs.Text.Numeral

/-!
How values are written in commands, and that what is written is read back. Between quotes a backslash
stands before every quote and every backslash. Reading takes the backslashes before quotes away first;
no pair of backslashes is torn by that, because every quote has a backslash of its own.
-/

namespace ScriptBoundary.Literal

/-- A character between quotes. -/
def escape (c : Char) : List Char := if c = '\\' ∨ c = '\"' then ['\\', c] else [c]

def quote (text : List Char) : List Char := '\"' :: (text.flatMap escape ++ ['\"'])

/-- The text of a value in a command. -/
def written : Scalar → List Char
  | .string text => quote text.toList
  | s => s.display.toList

/-- The values that are told from their texts on one line. A double may be displayed as an integer, and
a line feed ends the line. -/
def Writable : Scalar → Prop
  | .double _ => False
  | .string text => '\n' ∉ text.toList
  | _ => True

/-! ## Quotes -/

theorem unescape_cons {mark c : Char} {rest : List Char} (bare : c = '\\' → rest.head? ≠ some mark) :
    unescape mark (c :: rest) = c :: unescape mark rest := by
  cases rest with
  | nil => rfl
  | cons d rest =>
    rw [unescape, if_neg]
    rw [Bool.and_eq_true, decide_eq_true_eq, decide_eq_true_eq]
    exact fun hidden => bare hidden.1 (congrArg some hidden.2)

theorem unescape_marked (mark : Char) (rest : List Char) :
    unescape mark ('\\' :: mark :: rest) = mark :: unescape mark rest := by
  rw [unescape, if_pos (by simp)]

/-- What is left between quotes once the quotes have lost their backslashes. -/
def doubled (c : Char) : List Char := if c = '\\' then ['\\', '\\'] else [c]

theorem head?_escape_ne (text : List Char) : (text.flatMap escape).head? ≠ some '\"' := by
  cases text with
  | nil => exact nofun
  | cons c rest =>
    rw [List.flatMap_cons, escape]
    split
    next => simp
    next other => simpa using fun same => other (.inr same)

theorem unescape_quotes (text : List Char) : unescape '\"' (text.flatMap escape) = text.flatMap doubled := by
  induction text with
  | nil => rfl
  | cons c rest ih =>
    rw [List.flatMap_cons, List.flatMap_cons, ← ih]
    by_cases backslash : c = '\\'
    · subst backslash
      change unescape '\"' ('\\' :: '\\' :: rest.flatMap escape) = '\\' :: '\\' :: _
      rw [unescape_cons fun _ => by simp, unescape_cons fun _ => head?_escape_ne rest]
      rfl
    · by_cases mark : c = '\"'
      · subst mark
        exact unescape_marked '\"' _
      · rw [escape, if_neg (by simp [backslash, mark]), doubled, if_neg backslash]
        exact unescape_cons fun same => absurd same backslash

theorem unescape_backslashes (text : List Char) : unescape '\\' (text.flatMap doubled) = text := by
  induction text with
  | nil => rfl
  | cons c rest ih =>
    rw [List.flatMap_cons, doubled]
    split
    next backslash =>
      subst backslash
      exact (unescape_marked '\\' _).trans (congrArg _ ih)
    next other => exact (unescape_cons fun same => absurd same other).trans (congrArg _ ih)

theorem unquote_escape (text : List Char) : unquote (text.flatMap escape) = text := by
  rw [unquote, unescape_quotes, unescape_backslashes]

/-! ## Values -/

/-- A text is no word of a table in which none starts with its first character. -/
theorem lookup_eq_none {α : Type} {entries : List (String × α)} {c : Char}
    (other : ∀ e ∈ entries, e.1.toList.head? ≠ some c) (rest : List Char) :
    entries.lookup (String.ofList (c :: rest)) = none := by
  rw [List.lookup_eq_none_iff]
  intro e inside
  refine bne_iff_ne.2 fun same => other e inside ?_
  rw [← same, String.toList_ofList, List.head?_cons]

theorem quoted?_eq_none {c : Char} (other : c ≠ '\"') (rest : List Char) : quoted? (c :: rest) = none := by
  simp [quoted?, Text.inside?, other]

/-- The characters of printed integers. -/
theorem mem_integerText {c : Char} {i : Int} (inside : c ∈ Text.integerText i) : c = '-' ∨ c.isDigit = true := by
  have decimal {n : Nat} (inside : c ∈ Text.naturalText n) : c.isDigit = true :=
    Nat.isDigit_of_mem_toDigits (by decide) (by decide) inside
  cases i with
  | ofNat n => exact .inr (decimal inside)
  | negSucc n => exact (List.mem_cons.1 inside).imp_right decimal

theorem solid_quote (text : List Char) : Text.Solid (quote text) :=
  Text.solid_enclosed (by decide) (by decide) _

/-- Characters that neither end an argument nor start a quotation. -/
def IsPlain (c : Char) : Prop := Text.isBlank c = false ∧ c ≠ ',' ∧ c ≠ '\"'

/-- Such characters only, and some. -/
def Plain (text : List Char) : Prop := text ≠ [] ∧ ∀ c ∈ text, IsPlain c

-- Characters are finitely many, so the test must be told to look at those of the text alone.
instance (text : List Char) : Decidable (Plain text) :=
  decidable_of_iff (text ≠ [] ∧ text.all (fun c => !Text.isBlank c && c != ',' && c != '\"') = true)
    (by simp [Plain, IsPlain, and_assoc])

theorem isPlain_of_isDigit {c : Char} (digit : c.isDigit = true) : IsPlain c := by
  have first : '0'.toNat = 48 := rfl
  have last : '9'.toNat = 57 := rfl
  refine ⟨?_, ?_, ?_⟩
  · rw [Char.isDigit_iff_toNat, first, last] at digit
    simp only [Text.isBlank, Bool.or_eq_false_iff, Bool.and_eq_false_iff, decide_eq_false_iff_not, beq_eq_false_iff_ne]
    omega
  · rintro rfl
    exact absurd digit (by decide)
  · rintro rfl
    exact absurd digit (by decide)

theorem isPlain_integerText {c : Char} {i : Int} (inside : c ∈ Text.integerText i) : IsPlain c := by
  rcases mem_integerText inside with rfl | digit
  · exact ⟨by decide, by decide, by decide⟩
  · exact isPlain_of_isDigit digit

/-- A value is written between quotes, or without a mark that ends an argument. -/
theorem written_cases {v : Scalar} (writable : Writable v) :
    (∃ text, '\n' ∉ text ∧ written v = quote text) ∨ Plain (written v) := by
  cases v with
  | void | null => exact .inr (by decide)
  | boolean b => cases b <;> exact .inr (by decide)
  | double d => exact writable.elim
  | string text => exact .inl ⟨text.toList, writable, rfl⟩
  | int32 i =>
    have printed : written (.int32 i) = Text.integerText i.toInt := String.toList_ofList
    rw [printed]
    exact .inr ⟨Text.integerText_ne_nil _, fun c => isPlain_integerText⟩

theorem written_ne_nil {v : Scalar} (writable : Writable v) : written v ≠ [] := by
  obtain ⟨text, _, is⟩ | ⟨some_, _⟩ := written_cases writable
  · exact is ▸ List.cons_ne_nil _ _
  · exact some_

theorem solid_written {v : Scalar} (writable : Writable v) : Text.Solid (written v) := by
  obtain ⟨text, _, is⟩ | ⟨_, plain⟩ := written_cases writable
  · exact is ▸ solid_quote text
  · exact Text.solid_of_forall fun c inside => (plain c inside).1

theorem feed_notMem_written {v : Scalar} (writable : Writable v) : '\n' ∉ written v := by
  obtain ⟨text, one, is⟩ | ⟨_, plain⟩ := written_cases writable
  · rw [is, quote, List.mem_cons, List.mem_append, List.mem_flatMap]
    rintro (mark | ⟨c, inside, here⟩ | mark)
    · exact absurd mark (by decide)
    · have same : '\n' = c := by
        rw [escape] at here
        split at here <;> simpa using here
      exact one (same ▸ inside)
    · exact absurd mark (by decide)
  · exact fun inside => absurd (plain '\n' inside).1 (by decide)

theorem read_integerText (i : Int32) : read (Text.integerText i.toInt) = .int32 i := by
  have solid : Text.Solid (Text.integerText i.toInt) :=
    Text.solid_of_forall fun c inside => (isPlain_integerText inside).1
  have integer : integer? (Text.integerText i.toInt) = some (.int32 i) :=
    congrArg _ (Text.readInt32_integerText i)
  rw [read, Text.trim_of_solid solid, readTrimmed, integer]
  -- Keywords start with letters.
  have letters : ∀ e ∈ keywords, e.1.toList.head?.all (fun c => c != '-' && !c.isDigit) = true := by decide
  cases text : Text.integerText i.toInt with
  | nil => exact absurd text (Text.integerText_ne_nil i.toInt)
  | cons c rest =>
    have inside : c ∈ Text.integerText i.toInt := text ▸ List.mem_cons_self
    have keyword : keyword? (c :: rest) = none := by
      refine lookup_eq_none (fun e entry first => ?_) rest
      have letter := letters e entry
      rw [first, Option.all_some, Bool.and_eq_true, bne_iff_ne, Bool.not_eq_true'] at letter
      exact (mem_integerText inside).elim letter.1 (Bool.eq_false_iff.1 letter.2)
    rw [keyword, quoted?_eq_none (isPlain_integerText inside).2.2]
    rfl

theorem read_quote (text : List Char) : read (quote text) = .string (String.ofList text) := by
  have keyword : keyword? (quote text) = none := lookup_eq_none (by decide) _
  rw [read, Text.trim_of_solid (solid_quote text), readTrimmed, keyword, quoted?, quote, Text.inside?_enclosed,
    Option.map_some, unquote_escape]
  rfl

theorem read_written {v : Scalar} (writable : Writable v) : read (written v) = v := by
  cases v with
  | void | null => rfl
  | boolean b => cases b <;> rfl
  | int32 i =>
    change read (Scalar.int32Text i).toList = _
    rw [Scalar.int32Text, String.toList_ofList, read_integerText]
  | double d => exact writable.elim
  | string text => rw [written, read_quote, String.ofList_toList]

end ScriptBoundary.Literal
