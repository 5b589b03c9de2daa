import ScriptBoundary.Proofs.Console.Command

/-!
Commands with values, and the lines that they are written as. Parsing such a line gives the command
back, whatever the texts in it hold.
-/

namespace ScriptBoundary.Command

open Literal (IsPlain Writable escape quote written)

/-! ## Arguments -/

theorem closeQuote?_cons {c : Char} (other : c ≠ '\"') (bare : c ≠ '\\') (rest : List Char) :
    closeQuote? (c :: rest) = (closeQuote? rest).map fun r => (c :: r.1, r.2) := by
  cases rest with
  | nil => simp [closeQuote?, other]
  | cons d rest => rw [closeQuote?, if_neg other, if_neg bare]

theorem closeQuote?_mark (rest : List Char) : closeQuote? ('\"' :: rest) = some (['\"'], rest) := by
  cases rest <;> simp [closeQuote?]

/-- A quotation ends at the first quote without a backslash. -/
theorem closeQuote?_escape (text rest : List Char) :
    closeQuote? (text.flatMap escape ++ '\"' :: rest) = some (text.flatMap escape ++ ['\"'], rest) := by
  induction text with
  | nil => exact closeQuote?_mark rest
  | cons c text ih =>
    rw [List.flatMap_cons, List.append_assoc, List.append_assoc, escape]
    split
    next =>
      change closeQuote? ('\\' :: c :: (text.flatMap escape ++ '\"' :: rest)) = _
      rw [closeQuote?, if_neg (by decide), if_pos rfl, ih]
      rfl
    next other =>
      rw [not_or] at other
      change closeQuote? (c :: (text.flatMap escape ++ '\"' :: rest)) = _
      rw [closeQuote?_cons other.2 other.1, ih]
      rfl

/-- A text is an argument as it stands if it ends where the arguments do or a comma follows. -/
theorem argument?_written {v : Scalar} (writable : Writable v) (rest : List Char)
    (ends : ∀ c ∈ rest.head?, c = ',') : argument? (written v ++ rest) = some (written v, rest) := by
  obtain ⟨text, _, is⟩ | ⟨some_, plain⟩ := Literal.written_cases writable
  · have quotation : quotation? (quote text ++ rest) = some (quote text, rest) := by
      have closed := closeQuote?_escape text rest
      rw [quote, List.cons_append, List.append_assoc, List.singleton_append, quotation?, if_pos rfl, closed]
      rfl
    rw [is, argument?, quotation]
    rfl
  · generalize written v = text at some_ plain ⊢
    cases text with
    | nil => exact absurd rfl some_
    | cons c text =>
      obtain ⟨⟨solid, comma, mark⟩, plain⟩ := List.forall_mem_cons.1 plain
      have inside : ∀ d ∈ text, (d != ',') = true := fun d inside => bne_iff_ne.2 (plain d inside).2.1
      have stop : ∀ d ∈ rest.head?, (d != ',') = false := fun d first => by simp [ends d first]
      have bare : bare? (c :: (text ++ rest)) = some (c :: text, rest) := by
        rw [bare?, if_neg (by simp [solid, comma]), takeWhile_run inside stop, dropWhile_run inside stop]
      rw [List.cons_append, argument?, quotation?, if_neg mark, bare]
      rfl

theorem arguments_of_argument {text argument rest : List Char} (found : argument? text = some (argument, rest)) :
    arguments text = argument :: arguments rest := by
  cases text with
  | nil => cases found
  | cons c text =>
    rw [arguments]
    split
    next is => cases found.symm.trans is; rfl
    next none_ => cases found.symm.trans none_

theorem arguments_separator (text : List Char) : arguments (',' :: ' ' :: text) = arguments text := by
  have comma : argument? (',' :: ' ' :: text) = none := rfl
  have blank : argument? (' ' :: text) = none := rfl
  rw [arguments]
  split
  next is => cases comma.symm.trans is
  next =>
    rw [arguments]
    split
    next is => cases blank.symm.trans is
    next => rfl

/-- Arguments as they stand between parentheses. -/
def writtenAll (values : List Scalar) : List Char := [',', ' '].intercalate (values.map written)

theorem writtenAll_singleton (v : Scalar) : writtenAll [v] = written v := by
  simp [writtenAll, List.intercalate]

theorem writtenAll_cons_cons (v w : Scalar) (rest : List Scalar) :
    writtenAll (v :: w :: rest) = written v ++ ',' :: ' ' :: writtenAll (w :: rest) := by
  simp [writtenAll, List.intercalate]

theorem arguments_writtenAll {values : List Scalar} (writable : ∀ v ∈ values, Writable v) :
    arguments (writtenAll values) = values.map written := by
  induction values with
  | nil => exact arguments.eq_1
  | cons v rest ih =>
    obtain ⟨first, others⟩ := List.forall_mem_cons.1 writable
    cases rest with
    | nil =>
      have found := argument?_written first [] (by simp)
      rw [List.append_nil] at found
      rw [writtenAll_singleton, arguments_of_argument found, arguments]
      rfl
    | cons w rest =>
      have found := argument?_written first (',' :: ' ' :: writtenAll (w :: rest)) (by simp)
      rw [writtenAll_cons_cons, arguments_of_argument found, arguments_separator, ih others]
      rfl

theorem feed_notMem_writtenAll {values : List Scalar} (writable : ∀ v ∈ values, Writable v) :
    '\n' ∉ writtenAll values := by
  induction values with
  | nil => exact List.not_mem_nil
  | cons v rest ih =>
    obtain ⟨first, others⟩ := List.forall_mem_cons.1 writable
    have here := Literal.feed_notMem_written first
    cases rest with
    | nil => rwa [writtenAll_singleton]
    | cons w rest => simp [writtenAll_cons_cons, here, ih others]

/-! ## Lines -/

/-- A line as commands are read from: no line feed, and no blanks at its ends. -/
def IsLine (line : List Char) : Prop := '\n' ∉ line ∧ Text.Solid line

/-- The line is one, and it is parsed as the command. -/
def StandsFor (line : List Char) (c : Command) : Prop := IsLine line ∧ parse? line = some c

def callLine (verb : String) (name : List Char) (values : List Scalar) : List Char :=
  verb.toList ++ ' ' :: (name ++ '(' :: (writtenAll values ++ [')']))

variable {name : List Char} {values : List Scalar}

theorem callee?_written (named : Named '(' name) (writable : ∀ v ∈ values, Writable v) :
    callee? (name ++ '(' :: (writtenAll values ++ [')'])) = some (String.ofList name, values) := by
  have stop : ∀ c ∈ ('(' :: (writtenAll values ++ [')'])).head?, inName '(' c = false := by
    rintro c ⟨⟩
    rfl
  have open_ : Text.trimStart ('(' :: (writtenAll values ++ [')'])) = '(' :: (writtenAll values ++ [')']) :=
    Text.trimStart_of_not_blank (by decide) _
  have read : (values.map written).map Literal.read = values := by
    rw [List.map_map]
    exact (List.map_congr_left fun v inside => Literal.read_written (writable v inside)).trans (List.map_id _)
  simp only [callee?, takeWhile_run named.2 stop, dropWhile_run named.2 stop, open_, Text.inside?_enclosed,
    Option.map_some, arguments_writtenAll writable, read]
  rw [if_neg (by simpa using named.1)]

theorem isLine_callLine {verb : String} (known : verb ∈ verbs) (named : Named '(' name)
    (writable : ∀ v ∈ values, Writable v) : IsLine (callLine verb name values) := by
  have letters : ∀ verb ∈ verbs, Named '(' verb.toList := by decide
  have spelt := letters verb known
  refine ⟨?_, fun c first => ?_, fun c last => ?_⟩
  · simp [callLine, spelt.no_feed, named.no_feed, feed_notMem_writtenAll writable]
  · rw [callLine, List.head?_append_of_ne_nil _ spelt.1] at first
    exact spelt.not_blank (List.mem_of_mem_head? first)
  · have ends : callLine verb name values
        = (verb.toList ++ ' ' :: (name ++ '(' :: writtenAll values)) ++ [')'] := by simp [callLine]
    rw [ends, List.getLast?_concat] at last
    cases last
    decide

theorem after?_callLine (verb : String) (named : Named '(' name) (values : List Scalar) :
    after? verb (callLine verb name values) = some (name ++ '(' :: (writtenAll values ++ [')'])) :=
  after?_eq_some_iff.2 ⟨' ', _, rfl, by decide, (named.trimStart _).symm⟩

theorem isLine_setLine (named : Named '=' name) {v : Scalar} (writable : Writable v) :
    IsLine (setLine name (written v)) := by
  refine ⟨?_, fun c first => ?_, fun c last => ?_⟩
  · simp [setLine, named.no_feed, Literal.feed_notMem_written writable]
  · cases first
    decide
  · have ends : setLine name (written v) = ("set ".toList ++ (name ++ [' ', '=', ' '])) ++ written v := by
      simp [setLine]
    rw [ends, List.getLast?_append_of_ne_nil _ (Literal.written_ne_nil writable)] at last
    exact (Literal.solid_written writable).2 c last

theorem parse?_setLine_written (named : Named '=' name) {v : Scalar} (writable : Writable v) :
    parse? (setLine name (written v)) = some (.set (String.ofList name) v) := by
  have filled : ∃ c ∈ written v, Text.isBlank c = false := by
    obtain ⟨c, rest, is⟩ := List.exists_cons_of_ne_nil (Literal.written_ne_nil writable)
    exact ⟨c, is ▸ List.mem_cons_self, (Literal.solid_written writable).1 c (is ▸ rfl)⟩
  rw [parse?_setLine (isName_iff.2 named) filled, Literal.read_written writable]

/-- Whatever the texts hold, be it quotes, backslashes, commas, parentheses or the text of another value. -/
theorem written_commands_parsed (name : List Char) (writable : ∀ v ∈ values, Writable v) :
    (Named '(' name →
      StandsFor (callLine "call" name values) (.call (String.ofList name) values) ∧
      StandsFor (callLine "invoke" name values) (.invoke (String.ofList name) values)) ∧
    (Named '=' name → ∀ v ∈ values, StandsFor (setLine name (written v)) (.set (String.ofList name) v)) := by
  constructor
  · intro named
    have called := callee?_written named writable
    refine ⟨⟨isLine_callLine (by decide) named writable, ?_⟩, isLine_callLine (by decide) named writable, ?_⟩
    · rw [parse?_of_call (after?_callLine "call" named values), called]
      rfl
    · rw [parse?_of_invoke (after?_callLine "invoke" named values), called]
      rfl
  · intro named v inside
    exact ⟨isLine_setLine named (writable v inside), parse?_setLine_written named (writable v inside)⟩

/-- A backslash, a quote and marks between quotes, behind a name with a parenthesis. -/
theorem written_commands_parsed_of_marks :
    Named '(' "f)".toList ∧ Named '=' "f)".toList ∧ (∀ v ∈ [.string "\\\", )", .int32 (-7)], Writable v) ∧
      parse? "call f)(\"\\\\\\\", )\", -7)".toList = some (.call "f)" [.string "\\\", )", .int32 (-7)]) ∧
      parse? "invoke f)(\"\\\\\\\", )\", -7)".toList = some (.invoke "f)" [.string "\\\", )", .int32 (-7)]) ∧
      parse? "set f) = \"\\\\\\\", )\"".toList = some (.set "f)" (.string "\\\", )")) := by
  have callee : Named '(' "f)".toList := by decide
  have name : Named '=' "f)".toList := by decide
  have writable : ∀ v ∈ [.string "\\\", )", .int32 (-7)], Writable v := by
    refine List.forall_mem_cons.2 ⟨?_, List.forall_mem_singleton.2 trivial⟩
    change '\n' ∉ "\\\", )".toList
    decide
  obtain ⟨called, set⟩ := written_commands_parsed "f)".toList writable
  obtain ⟨⟨-, call⟩, -, invoke⟩ := called callee
  exact ⟨callee, name, writable, call, invoke, (set name _ List.mem_cons_self).2⟩

end ScriptBoundary.Command
