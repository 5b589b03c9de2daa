import ScriptBoundary.Proofs.Console.Command

/-!
The lines that set a property, all of them. Where something is left behind the name and its equals sign,
that is the value and the name is whole. Where nothing is left the line is read all the same: its last
character becomes the value, even if it is the last one of the name.
-/

namespace ScriptBoundary.Command

variable {line text run gap left : List Char}

/-- Blanks around at most one equals sign, as many as there are in front of what is left. -/
structure Separates (gap left : List Char) : Prop where
  parts : ∃ before sign after, gap = before ++ (sign ++ after) ∧
    (∀ c ∈ before ++ after, Text.isBlank c = true) ∧ (sign = ['='] ∨ sign = [] ∧ left.head? ≠ some '=')
  solid : ∀ c ∈ left.head?, Text.isBlank c = false

/-- How a line that sets a property is meant: behind the verb and blanks a run of characters that a name
can have, the whole of it, then what separates it from a value, and what is left for the value. -/
structure Cut (line run gap left : List Char) : Prop where
  line : ∃ blanks, blanks ≠ [] ∧ (∀ c ∈ blanks, Text.isBlank c = true) ∧
    line = "set".toList ++ (blanks ++ (run ++ (gap ++ left)))
  name : Named '=' run
  whole : ∀ c ∈ (gap ++ left).head?, inName '=' c = false
  separates : Separates gap left

/-- The texts that are taken for the name and the value. -/
inductive Reads (run gap left : List Char) : List Char → List Char → Prop where
  | value (filled : left ≠ []) : Reads run gap left run left
  /-- Nothing is left, so the equals sign or a blank stands for the value. -/
  | mark (c : Char) (nothing : left = []) (last : gap.getLast? = some c) : Reads run gap left run [c]
  /-- Nothing follows the name, so its last character stands for the value. -/
  | split (name : List Char) (c : Char) (nothing : gap ++ left = []) (parted : run = name ++ [c])
      (some_ : name ≠ []) : Reads run gap left name [c]

/-! ## Cutting -/

theorem separates_afterEquals (rest : List Char) :
    ∃ gap, rest = gap ++ afterEquals rest ∧ Separates gap (afterEquals rest) := by
  let blanks (text : List Char) := text.takeWhile Text.isBlank
  have blank (text : List Char) : ∀ c ∈ blanks text, Text.isBlank c = true := fun c => List.mem_takeWhile_imp
  have parted (text : List Char) : blanks text ++ Text.trimStart text = text := List.takeWhile_append_dropWhile
  have first := Text.head?_trimStart rest
  have whole := parted rest
  unfold afterEquals
  split
  next nothing =>
    rw [nothing] at whole
    exact ⟨blanks rest, whole.symm,
      ⟨blanks rest, [], [], by simp, by simpa using blank rest, .inr ⟨rfl, by simp⟩⟩, by simp⟩
  next c after is =>
    rw [is] at first whole
    split
    next sign =>
      subst sign
      refine ⟨blanks rest ++ ('=' :: blanks after), ?_, ⟨_, ['='], blanks after, rfl, ?_, .inl rfl⟩,
        Text.head?_trimStart after⟩
      · rw [List.append_assoc, List.cons_append, parted, whole]
      · exact List.forall_mem_append.2 ⟨blank rest, blank after⟩
    next other =>
      exact ⟨blanks rest, whole.symm, ⟨blanks rest, [], [], by simp, by simpa using blank rest,
        .inr ⟨rfl, by simpa using other⟩⟩, first⟩

theorem Separates.afterEquals (separates : Separates gap left) : afterEquals (gap ++ left) = left := by
  obtain ⟨⟨before, sign, after, rfl, blank, sign_⟩, solid⟩ := separates
  obtain ⟨blank, blank'⟩ := List.forall_mem_append.1 blank
  have rest : Text.trimStart (after ++ left) = left := by
    rw [Text.trimStart_append blank', Text.trimStart_of_solid solid]
  rw [Command.afterEquals, List.append_assoc, List.append_assoc, Text.trimStart_append blank]
  rcases sign_ with rfl | ⟨rfl, other⟩
  · exact rest
  · rw [List.nil_append, rest]
    cases left with
    | nil => rfl
    | cons c left => exact if_neg fun same => other (congrArg some same)

theorem Cut.after? (cut : Cut line run gap left) : after? "set" line = some (run ++ (gap ++ left)) := by
  obtain ⟨blanks, some_, blank, rfl⟩ := cut.line
  obtain ⟨c, blanks, rfl⟩ := List.exists_cons_of_ne_nil some_
  obtain ⟨first, blank⟩ := List.forall_mem_cons.1 blank
  have trimmed := (Text.trimStart_append blank (run ++ (gap ++ left))).trans (cut.name.trimStart _)
  exact after?_eq_some_iff.2 ⟨c, _, rfl, first, trimmed.symm⟩

theorem exists_cut (found : Command.after? "set" line = some text) (named : text.takeWhile (inName '=') ≠ []) :
    ∃ run gap left, Cut line run gap left ∧ text = run ++ (gap ++ left) := by
  obtain ⟨c, rest, rfl, blank, rfl⟩ := after?_eq_some_iff.1 found
  have parted : rest.takeWhile Text.isBlank ++ Text.trimStart rest = rest := List.takeWhile_append_dropWhile
  generalize Text.trimStart rest = text at parted named
  have whole : text.takeWhile (inName '=') ++ text.dropWhile (inName '=') = text :=
    List.takeWhile_append_dropWhile
  obtain ⟨gap, is, separates⟩ := separates_afterEquals (text.dropWhile (inName '='))
  have ends := List.head?_dropWhile_not (inName '=') text
  rw [is] at whole ends
  refine ⟨_, gap, _, ?_, whole.symm⟩
  constructor
  case line =>
    refine ⟨c :: rest.takeWhile Text.isBlank, List.cons_ne_nil _ _, ?_, ?_⟩
    · exact List.forall_mem_cons.2 ⟨blank, fun d => List.mem_takeWhile_imp⟩
    · rw [whole, List.cons_append, parted]
  case name => exact ⟨named, fun d => List.mem_takeWhile_imp⟩
  case whole =>
    intro d first
    rwa [Option.mem_def.1 first] at ends
  case separates => exact separates

theorem cut_of_name_alone (named : Named '=' run) : Cut ("set ".toList ++ run) run [] [] where
  line := ⟨[' '], List.cons_ne_nil _ _, List.forall_mem_singleton.2 rfl, by simp⟩
  name := named
  whole := nofun
  separates := ⟨⟨[], [], [], rfl, nofun, .inr ⟨rfl, nofun⟩⟩, nofun⟩

/-! ## Reading -/

theorem binding?_of_value (named : Named '=' run) (whole : ∀ c ∈ (gap ++ left).head?, inName '=' c = false)
    (separates : Separates gap left) (filled : left ≠ []) :
    binding? (run ++ (gap ++ left)) = some (String.ofList run, left) := by
  simp [binding?, dropWhile_run named.2 whole, takeWhile_run named.2 whole, separates.afterEquals, filled, named.1]

/-- The last character is no part of the name. -/
theorem binding?_of_mark (named : Named '=' run) (whole : ∀ c ∈ gap.head?, inName '=' c = false)
    (separates : Separates gap []) {c : Char} (last : gap.getLast? = some c) :
    binding? (run ++ gap) = some (String.ofList run, [c]) := by
  have nothing := separates.afterEquals
  rw [List.append_nil] at nothing
  have some_ : gap ≠ [] := by
    rintro rfl
    cases last
  have whole' : ∀ d ∈ gap.dropLast.head?, inName '=' d = false := by
    intro d first
    rw [List.head?_dropLast] at first
    split at first
    next => exact whole d first
    next => cases first
  simp [binding?, dropWhile_run named.2 whole, nothing, List.dropLast_append_of_ne_nil some_,
    takeWhile_run named.2 whole', last, named.1]

/-- The last character is taken from the name. -/
theorem binding?_of_name_alone (named : Named '=' run) : binding? run =
    if run.dropLast = [] then none else some (String.ofList run.dropLast, run.getLast?.toList) := by
  have behind : run.dropWhile (inName '=') = [] := List.dropWhile_eq_nil_iff.2 named.2
  have before : run.dropLast.takeWhile (inName '=') = run.dropLast :=
    List.takeWhile_eq_self_iff.2 fun c inside => named.2 c ((List.dropLast_sublist run).mem inside)
  have nothing : afterEquals [] = [] := rfl
  simp [binding?, behind, nothing, before]

theorem binding?_of_no_name (unnamed : text.takeWhile (inName '=') = []) : binding? text = none := by
  have unnamed' : text.dropLast.takeWhile (inName '=') = [] := by
    cases text with
    | nil => rfl
    | cons c rest =>
      cases rest with
      | nil => rfl
      | cons d rest =>
        rw [List.takeWhile_eq_nil_iff] at unnamed ⊢
        exact fun _ => unnamed (Nat.succ_pos _)
  rw [binding?]
  split <;> simp [unnamed, unnamed']

theorem Cut.binding? (cut : Cut line run gap left) {name value : List Char} (reads : Reads run gap left name value) :
    binding? (run ++ (gap ++ left)) = some (String.ofList name, value) := by
  cases reads with
  | value filled => exact binding?_of_value cut.name cut.whole cut.separates filled
  | mark c nothing last =>
    subst nothing
    have whole := cut.whole
    rw [List.append_nil] at whole ⊢
    exact binding?_of_mark cut.name whole cut.separates last
  | split name c nothing parted some_ =>
    rw [nothing, List.append_nil, binding?_of_name_alone cut.name, parted, List.dropLast_concat, if_neg some_,
      List.getLast?_concat]
    rfl

/-- Only a name of one character has nothing to give. -/
theorem Cut.reads_or_short (cut : Cut line run gap left) :
    (∃ name value, Reads run gap left name value) ∨ gap ++ left = [] ∧ ∃ c, run = [c] := by
  by_cases filled : left = []
  · cases gap_ : gap.getLast? with
    | some c => exact .inl ⟨run, [c], .mark c filled gap_⟩
    | none =>
      have nothing : gap ++ left = [] := List.append_eq_nil_iff.2 ⟨List.getLast?_eq_none_iff.1 gap_, filled⟩
      have parted := (List.dropLast_concat_getLast cut.name.1).symm
      by_cases short : run.dropLast = []
      · exact .inr ⟨nothing, _, by rwa [short] at parted⟩
      · exact .inl ⟨_, _, .split _ _ nothing parted short⟩
  · exact .inl ⟨run, left, .value filled⟩

/-- No other verb sets a property. -/
theorem binding?_of_parse? {name : String} {v : Scalar} (parsed : parse? line = some (.set name v)) :
    ∃ text value, after? "set" line = some text ∧ binding? text = some (name, value) ∧ v = Literal.read value := by
  have word : words.lookup (String.ofList line) ≠ some (.set name v) := by
    intro found
    obtain ⟨before, behind, is, -⟩ := List.lookup_eq_some_iff.1 found
    have inside : (String.ofList line, Command.set name v) ∈ words :=
      is ▸ List.mem_append_right _ List.mem_cons_self
    simp [words] at inside
  simp only [parse?, Option.or_eq_some_iff, Option.map_eq_some_iff, word, reduceCtorEq, and_false, exists_false,
    or_false, false_or] at parsed
  obtain ⟨-, -, -, -, b, bound, is⟩ := parsed
  obtain ⟨text, found, bound⟩ := Option.bind_eq_some_iff.1 bound
  cases is
  exact ⟨text, b.2, found, bound, rfl⟩

/-- The line is read as it is meant: the whole run is the name and what is left is the value, and where
nothing is left the line is refused. -/
def Whole (line run left : List Char) : Prop :=
  parse? line = if left = [] then none else some (.set (String.ofList run) (Literal.read left))

theorem Cut.parse? (cut : Cut line run gap left) {name value : List Char} (reads : Reads run gap left name value) :
    parse? line = some (.set (String.ofList name) (Literal.read value)) := by
  rw [parse?_of_set cut.after?, cut.binding? reads]
  rfl

theorem Cut.parse?_of_short (cut : Cut line run gap left) (nothing : gap ++ left = []) {c : Char} (short : run = [c]) :
    Command.parse? line = none := by
  rw [parse?_of_set cut.after?, nothing, List.append_nil, binding?_of_name_alone cut.name, short]
  rfl

/-- Where something is left the line is read as it is meant, and else if it is refused. -/
theorem Cut.whole_iff (cut : Cut line run gap left) :
    Whole line run left ↔ left ≠ [] ∨ gap = [] ∧ ∃ c, run = [c] := by
  rcases cut.reads_or_short with ⟨name, value, reads⟩ | ⟨nothing, c, short⟩
  · rw [Whole, cut.parse? reads]
    cases reads with
    | value filled => simp [filled]
    | mark c nothing last =>
      have some_ : gap ≠ [] := by
        rintro rfl
        cases last
      simp [nothing, some_]
    | split name c nothing parted some_ =>
      have long : ¬ ∃ d, run = [d] := by
        rintro ⟨d, short⟩
        have length := congrArg List.length (parted.symm.trans short)
        rw [List.length_append, List.length_singleton, List.length_singleton, Nat.add_eq_right] at length
        exact some_ (List.length_eq_zero_iff.1 length)
      simp [(List.append_eq_nil_iff.1 nothing).2, long]
  · have empty := List.append_eq_nil_iff.1 nothing
    rw [Whole, cut.parse?_of_short nothing short, if_pos empty.2]
    exact iff_of_true rfl (.inr ⟨empty.1, c, short⟩)

/-- A line sets a property just if it can be cut as it is meant and something can be taken for the value. It
is read as it is meant wherever something is left for the value. Otherwise it is refused only if a name of a
single character stands alone. -/
theorem name_whole_where_value_left (line : List Char) :
    (∀ name v, parse? line = some (.set name v) ↔
      ∃ run gap left n value, Cut line run gap left ∧ Reads run gap left n value ∧
        name = String.ofList n ∧ v = Literal.read value) ∧
    ∀ run gap left, Cut line run gap left →
      (Whole line run left ↔ left ≠ [] ∨ gap = [] ∧ ∃ c, run = [c]) := by
  refine ⟨fun name v => ⟨fun parsed => ?_, ?_⟩, fun _ _ _ cut => cut.whole_iff⟩
  · obtain ⟨text, value, found, bound, rfl⟩ := binding?_of_parse? parsed
    have named : text.takeWhile (inName '=') ≠ [] := fun unnamed => by
      cases bound.symm.trans (binding?_of_no_name unnamed)
    obtain ⟨run, gap, left, cut, rfl⟩ := exists_cut found named
    rcases cut.reads_or_short with ⟨n, value', reads⟩ | ⟨nothing, c, short⟩
    · cases bound.symm.trans (cut.binding? reads)
      exact ⟨run, gap, left, n, _, cut, reads, rfl, rfl⟩
    · cases parsed.symm.trans (cut.parse?_of_short nothing short)
  · rintro ⟨run, gap, left, n, value, cut, reads, rfl, rfl⟩
    exact cut.parse? reads

/-- A line as it is meant, and a name of one character that stands alone. -/
theorem name_whole_where_value_left_of_single :
    Cut "set xy = z".toList "xy".toList " = ".toList "z".toList ∧
      parse? "set xy = z".toList = some (.set "xy" (.string "z")) ∧
      Cut "set x".toList "x".toList [] [] ∧ parse? "set x".toList = none := by
  have cut : Cut "set xy = z".toList "xy".toList " = ".toList "z".toList := by
    refine ⟨⟨[' '], by decide, List.forall_mem_singleton.2 rfl, rfl⟩, by decide, ?_, ⟨?_, ?_⟩⟩
    · rintro _ ⟨⟩
      rfl
    · exact ⟨[' '], ['='], [' '], rfl, List.all_eq_true.1 rfl, .inl rfl⟩
    · rintro _ ⟨⟩
      rfl
  have alone : Cut "set x".toList "x".toList [] [] := cut_of_name_alone (by decide)
  have read := ((name_whole_where_value_left _).2 _ _ _ cut).2 (.inl (by decide))
  have refused := ((name_whole_where_value_left _).2 _ _ _ alone).2 (.inr ⟨rfl, 'x', rfl⟩)
  exact ⟨cut, read, alone, refused⟩

/-- The name of two characters that stands alone loses the second one. -/
theorem name_split : Cut "set xy".toList "xy".toList [] [] ∧
    parse? "set xy".toList = some (.set "x" (.string "y")) := by
  have cut : Cut "set xy".toList "xy".toList [] [] := cut_of_name_alone (by decide)
  exact ⟨cut, cut.parse? (.split ['x'] 'y' rfl rfl (by decide))⟩

end ScriptBoundary.Command
