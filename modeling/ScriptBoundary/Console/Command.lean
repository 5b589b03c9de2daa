import ScriptBoundary.Console.Literal

/-!
Commands, each on a line of its own. A line has no blanks at its ends and holds no line feed.
-/

namespace ScriptBoundary

inductive Command where
  /-- Calls a host function. -/
  | call (name : String) (args : List Scalar)
  /-- Invokes a registered method. -/
  | invoke (name : String) (args : List Scalar)
  | get (name : String)
  | set (name : String) (value : Scalar)
  | delete (name : String)
  /-- Lists every identifier. -/
  | list
  | help
  | quit
deriving DecidableEq

namespace Command

/-! Arguments stand between commas. -/

/-- The text up to and with the quote that ends a quotation, and what follows it. A backslash hides
the character behind it. -/
def closeQuote? : List Char → Option (List Char × List Char)
  | [] => none
  | [c] => if c = '\"' then some ([c], []) else none
  | c :: d :: rest =>
    if c = '\"' then some ([c], d :: rest)
    else if c = '\\' then (closeQuote? rest).map fun r => (c :: d :: r.1, r.2)
    else (closeQuote? (d :: rest)).map fun r => (c :: r.1, r.2)

/-- The quotation that starts a text, if it is closed, and what follows it. -/
def quotation? : List Char → Option (List Char × List Char)
  | [] => none
  | c :: rest => if c = '\"' then (closeQuote? rest).map fun r => (c :: r.1, r.2) else none

/-- A text up to the next comma. No such text starts at a comma or a blank. -/
def bare? : List Char → Option (List Char × List Char)
  | [] => none
  | c :: rest =>
    if c = ',' || Text.isBlank c then none
    else some (c :: rest.takeWhile (· != ','), rest.dropWhile (· != ','))

/-- The argument that starts a text, and what follows it. -/
def argument? (text : List Char) : Option (List Char × List Char) :=
  (quotation? text).or (bare? text)

theorem closeQuote_length {text quotation rest : List Char}
    (h : closeQuote? text = some (quotation, rest)) : rest.length < text.length := by
  fun_induction closeQuote? text generalizing quotation rest with
  | case1 | case3 => cases h
  | case2 | case4 => cases h; simp
  | case5 d tail _ ih =>
    obtain ⟨r, hr, he⟩ := Option.map_eq_some_iff.1 h
    cases he
    have := ih hr
    simp only [List.length_cons]
    omega
  | case6 c d tail _ _ ih =>
    obtain ⟨r, hr, he⟩ := Option.map_eq_some_iff.1 h
    cases he
    have := ih hr
    simp only [List.length_cons] at this ⊢
    omega

theorem quotation_length {text argument rest : List Char}
    (h : quotation? text = some (argument, rest)) : rest.length < text.length := by
  unfold quotation? at h
  split at h
  · cases h
  · split at h
    · obtain ⟨r, hr, he⟩ := Option.map_eq_some_iff.1 h
      cases he
      have := closeQuote_length hr
      simp only [List.length_cons]
      omega
    · cases h

theorem bare_length {text argument rest : List Char}
    (h : bare? text = some (argument, rest)) : rest.length < text.length := by
  unfold bare? at h
  split at h
  · cases h
  · rename_i tail
    split at h
    · cases h
    · cases h
      have := (List.dropWhile_sublist (p := (· != ',')) (l := tail)).length_le
      simp only [List.length_cons]
      omega

theorem argument_length {text argument rest : List Char}
    (h : argument? text = some (argument, rest)) : rest.length < text.length := by
  rcases Option.or_eq_some_iff.1 h with h | ⟨_, h⟩
  · exact quotation_length h
  · exact bare_length h

/-- The arguments in a text. Commas and blanks between them do not matter, nor does it if there are
none between a quotation and what follows it. -/
def arguments (text : List Char) : List (List Char) :=
  match text with
  | [] => []
  | c :: rest =>
    match _found : argument? (c :: rest) with
    | some (argument, after) => argument :: arguments after
    | none => arguments rest
termination_by text.length
decreasing_by
  · exact argument_length _found
  · simp

/-! Every command but the single words starts with a verb and blanks. -/

/-- What follows a verb and the blanks behind it. -/
def after? (verb : String) (line : List Char) : Option (List Char) :=
  match verb.toList.isPrefixOf? line with
  | some (c :: rest) => if Text.isBlank c then some (Text.trimStart rest) else none
  | _ => none

/-- A name runs up to a blank or the mark that ends it. -/
def inName (mark c : Char) : Bool := !Text.isBlank c && c != mark

/-- A whole text as a name, which then has no blanks. -/
def name? (text : List Char) : Option String :=
  if text.isEmpty || text.any Text.isBlank then none else some (String.ofList text)

/-- A name and the arguments in parentheses behind it, which end the text. -/
def callee? (text : List Char) : Option (String × List Scalar) :=
  let name := text.takeWhile (inName '(')
  let rest := Text.trimStart (text.dropWhile (inName '('))
  if name.isEmpty then none
  else (Text.inside? '(' ')' rest).map fun body =>
    (String.ofList name, (arguments body).map Literal.read)

/-- What follows blanks, one equals sign and more blanks, each of which may be absent. -/
def afterEquals (text : List Char) : List Char :=
  match Text.trimStart text with
  | [] => []
  | c :: rest => if c = '=' then Text.trimStart rest else c :: rest

/-- A name and the text of its value. If nothing is left for the value, it is the last character,
whatever that is, and the name is what stands before it. -/
def binding? (text : List Char) : Option (String × List Char) :=
  let value := afterEquals (text.dropWhile (inName '='))
  let named := if value.isEmpty then text.dropLast else text
  let name := named.takeWhile (inName '=')
  if name.isEmpty then none
  else some (String.ofList name, if value.isEmpty then text.getLast?.toList else value)

def words : List (String × Command) :=
  [("ls", .list), ("help", .help), ("quit", .quit), ("exit", .quit)]

/-- The command on a line, if there is one. -/
def parse? (line : List Char) : Option Command :=
  (words.lookup (String.ofList line)).or <|
  (((after? "call" line).bind callee?).map fun c => call c.1 c.2).or <|
  (((after? "invoke" line).bind callee?).map fun c => invoke c.1 c.2).or <|
  (((after? "get" line).bind name?).map get).or <|
  (((after? "set" line).bind binding?).map fun b => set b.1 (Literal.read b.2)).or <|
  ((after? "del" line).bind name?).map delete

end Command

end ScriptBoundary
