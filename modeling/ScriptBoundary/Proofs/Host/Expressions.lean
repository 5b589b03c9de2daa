import ScriptBoundary.Proofs.Host.Properties
import ScriptBoundary.Proofs.Text.Blank

/-!
Expressions by any wrapping. Blanks and pairs of parentheses around a text are taken off until there are
none, in whatever order they were put on, so two texts name one expression just when they wrap one text.
What was defined under it is answered, whatever a host did since, until that expression is defined anew.
-/

namespace ScriptBoundary

namespace Text

variable {text text' inner last : List Char} {turns : Nat}

/-! ## Enclosed text -/

theorem eq_of_inside? {left right : Char} (enclosed : inside? left right text = some inner) :
    text = left :: (inner ++ [right]) := by
  cases text with
  | nil => cases enclosed
  | cons c rest =>
    simp only [inside?] at enclosed
    split at enclosed
    next marks =>
      cases enclosed
      simp only [Bool.and_eq_true, decide_eq_true_eq] at marks
      rw [marks.1, List.dropLast_append_getLast? right marks.2]
    next => cases enclosed

theorem stripParens_of_inside (enclosed : inside? '(' ')' (trim text) = some inner) :
    stripParens text = stripParens inner := by
  rw [stripParens]
  split
  next found => rw [Option.some.inj (found.symm.trans enclosed)]
  next bare => cases bare.symm.trans enclosed

theorem stripParens_of_bare (bare : inside? '(' ')' (trim text) = none) : stripParens text = trim text := by
  rw [stripParens]
  split
  next found => cases found.symm.trans bare
  next => rfl

/-- Only what is left without the blanks around it matters. -/
theorem stripParens_of_trim (same : trim text = trim text') : stripParens text = stripParens text' := by
  cases enclosed : inside? '(' ')' (trim text) with
  | some inner => exact (stripParens_of_inside enclosed).trans (stripParens_of_inside (same ▸ enclosed)).symm
  | none =>
    rw [stripParens_of_bare enclosed, same]
    exact (stripParens_of_bare (same ▸ enclosed)).symm

/-! ## The loop -/

/-- One turn takes off a pair of parentheses and the blanks inside it. -/
def peel? (text : List Char) : Option (List Char) := (inside? '(' ')' text).map trim

/-- The loop has nothing left to take off after so many turns. -/
inductive Peels : Nat → List Char → List Char → Prop
  | bare {text : List Char} (done : peel? text = none) : Peels 0 text text
  | turn {turns : Nat} {text inner last : List Char} (peeled : peel? text = some inner)
      (rest : Peels turns inner last) : Peels (turns + 1) text last

theorem length_of_peel? (peeled : peel? text = some inner) : inner.length + 2 ≤ text.length := by
  obtain ⟨enclosed, found, rfl⟩ := Option.map_eq_some_iff.1 peeled
  have shorter := length_trim_le enclosed
  rw [eq_of_inside? found, List.length_cons, List.length_append, List.length_singleton]
  omega

theorem Peels.length_le (peels : Peels turns text last) : 2 * turns + last.length ≤ text.length := by
  induction peels with
  | bare done => omega
  | turn peeled rest ih =>
    have := length_of_peel? peeled
    omega

theorem Peels.bare_last (peels : Peels turns text last) : peel? last = none := by
  induction peels with
  | bare done => exact done
  | turn peeled rest ih => exact ih

theorem Peels.solid (peels : Peels turns text last) (solid : Solid text) : Solid last := by
  induction peels with
  | bare done => exact solid
  | turn peeled rest ih =>
    obtain ⟨enclosed, _, rfl⟩ := Option.map_eq_some_iff.1 peeled
    exact ih (solid_trim enclosed)

/-- The loop comes to an end on every text. -/
theorem peels_stripParens (text : List Char) : ∃ turns, Peels turns (trim text) (stripParens text) := by
  induction text using stripParens.induct with
  | case1 text inner enclosed ih =>
    obtain ⟨turns, rest⟩ := ih
    rw [stripParens_of_inside enclosed]
    exact ⟨turns + 1, .turn (by rw [peel?, enclosed, Option.map_some]) rest⟩
  | case2 text bare =>
    rw [stripParens_of_bare bare]
    exact ⟨0, .bare (by rw [peel?, bare, Option.map_none])⟩

theorem stripParens_stripParens (text : List Char) : stripParens (stripParens text) = stripParens text := by
  obtain ⟨turns, peels⟩ := peels_stripParens text
  have solid := trim_of_solid (peels.solid (solid_trim text))
  have bare := Option.map_eq_none_iff.1 peels.bare_last
  rw [stripParens_of_bare (solid.symm ▸ bare), solid]

/-! ## Wrappings -/

/-- Blanks and pairs of parentheses were put around the text, one after the other. -/
inductive Wraps (text : List Char) : List Char → Prop
  | bare : Wraps text text
  | blanks {wrapped before after : List Char} (wraps : Wraps text wrapped)
      (blank : ∀ c ∈ before ++ after, isBlank c = true) : Wraps text (before ++ wrapped ++ after)
  | parens {wrapped : List Char} (wraps : Wraps text wrapped) : Wraps text ('(' :: (wrapped ++ [')']))

theorem stripParens_surrounded {before after : List Char} (blank : ∀ c ∈ before ++ after, isBlank c = true)
    (text : List Char) : stripParens (before ++ text ++ after) = stripParens text :=
  stripParens_of_trim (trim_surrounded blank text)

theorem stripParens_enclosed (text : List Char) : stripParens ('(' :: (text ++ [')'])) = stripParens text := by
  have solid : Solid ('(' :: (text ++ [')'])) := solid_enclosed (by decide) (by decide) text
  exact stripParens_of_inside (by rw [trim_of_solid solid, inside?_enclosed])

theorem Wraps.stripParens (wraps : Wraps text text') : stripParens text' = stripParens text := by
  -- By how the text was wrapped, not by how the loop unwraps it: blanks can come in several layers.
  induction wraps with
  | bare => rfl
  | blanks wraps blank ih => rw [stripParens_surrounded blank, ih]
  | parens wraps ih => rw [stripParens_enclosed, ih]

theorem wraps_of_trim {core : List Char} (wraps : Wraps core (trim text)) : Wraps core text := by
  obtain ⟨before, after, blank, whole⟩ := exists_surrounded text
  rw [whole]
  exact wraps.blanks blank

/-- Every text is a wrapping of what is left of it. -/
theorem wraps_stripParens (text : List Char) : Wraps (stripParens text) text := by
  induction text using stripParens.induct with
  | case1 text inner enclosed ih =>
    rw [stripParens_of_inside enclosed]
    refine wraps_of_trim ?_
    rw [eq_of_inside? enclosed]
    exact ih.parens
  | case2 text bare =>
    rw [stripParens_of_bare bare]
    exact wraps_of_trim .bare

theorem stripParens_eq_iff :
    stripParens text = stripParens text' ↔ ∃ core, Wraps core text ∧ Wraps core text' := by
  constructor
  · exact fun same => ⟨stripParens text, wraps_stripParens text, same ▸ wraps_stripParens text'⟩
  · rintro ⟨core, wraps, wraps'⟩
    rw [wraps.stripParens, wraps'.stripParens]

end Text

namespace Heap

variable {ρ : Type} {heap : Heap ρ} {text script : String} {value : Raw}

/-! ## What a host does in between -/

/-- What a host can be asked to do to its heap. -/
inductive Action (ρ : Type) where
  | alloc (form : Form ρ)
  | retain (h : Handle)
  | release (h : Handle)
  | intern (text : String)
  | store (target : Handle) (id : HostId) (value : Raw)
  | push (target : Handle) (values : List Raw)
  | define (script : String) (value : Raw)
  | raise (message : String)

namespace Action

def perform (heap : Heap ρ) : Action ρ → Heap ρ
  | alloc form => (heap.alloc form).2
  | retain h => heap.retain h
  | release h => heap.release h
  | intern text => (heap.intern text).2
  | store target id value => (heap.store target id value).2
  | push target values => (heap.pushAll target values).2
  | define script value => heap.defineExpression script value
  | raise message => { heap with exceptions := heap.exceptions ++ [message] }

/-- The expression that it defines. -/
def defined? : Action ρ → Option String
  | define script _ => some (expressionKey script)
  | _ => none

end Action

/-- These are the operations of a host. -/
theorem operation_iff {heap' : Heap ρ} :
    Operation heap heap' ↔ ∃ action : Action ρ, action.perform heap = heap' := by
  constructor
  · intro operation
    cases operation with
    | alloc form => exact ⟨.alloc form, rfl⟩
    | retain h => exact ⟨.retain h, rfl⟩
    | release h => exact ⟨.release h, rfl⟩
    | intern text => exact ⟨.intern text, rfl⟩
    | store target id value => exact ⟨.store target id value, rfl⟩
    | push target values => exact ⟨.push target values, rfl⟩
    | define script value => exact ⟨.define script value, rfl⟩
    | raise message => exact ⟨.raise message, rfl⟩
  · rintro ⟨action, rfl⟩
    cases action <;> constructor

/-- The heap after the actions, the first of the list first. -/
def after (actions : List (Action ρ)) (heap : Heap ρ) : Heap ρ := actions.foldl Action.perform heap

theorem find?_defineExpression (heap : Heap ρ) (script : String) (value : Raw) (text : String) :
    (heap.defineExpression script value).expressions.find? text
      = if text = expressionKey script then some value else heap.expressions.find? text := by
  rw [defineExpression, expressions_releaseAll, Table.find?_insert, retainValue,
    (heap.alike_retainAll value.handles).expressions]

/-- Where nothing was defined before, there is nothing to give back. -/
theorem defineExpression_of_new (new : heap.expressions.find? (expressionKey script) = none) :
    heap.defineExpression script value = { heap.retainValue value with
      expressions := heap.expressions.insert (expressionKey script) value } := by
  have same : (heap.retainValue value).expressions = heap.expressions :=
    (heap.alike_retainAll value.handles).expressions
  simp only [defineExpression, same, new, Option.elim_none, releaseAll_nil]

/-- An expression stays what it is unless it is defined. -/
theorem find?_perform {action : Action ρ} (other : action.defined? ≠ some text) :
    (action.perform heap).expressions.find? text = heap.expressions.find? text := by
  cases action with
  | alloc | retain | intern | raise => rfl
  | release h => rw [Action.perform, release, expressions_releaseAll]
  | store target id value => rw [Action.perform, expressions_store]
  | push target values => rw [Action.perform, expressions_pushAll]
  | define script value =>
    have apart : text ≠ expressionKey script := fun same => other (congrArg some same.symm)
    rw [Action.perform, find?_defineExpression, if_neg apart]

theorem find?_after {actions : List (Action ρ)} (other : ∀ action ∈ actions, action.defined? ≠ some text) :
    (heap.after actions).expressions.find? text = heap.expressions.find? text := by
  induction actions generalizing heap with
  | nil => rfl
  | cons action rest ih =>
    obtain ⟨first, others⟩ := List.forall_mem_cons.1 other
    exact (ih others).trans (find?_perform first)

/-! ## Evaluation -/

theorem expressionKey_of_wraps {wrapped : String} (wraps : Text.Wraps script.toList wrapped.toList) :
    expressionKey wrapped = expressionKey script := by
  rw [expressionKey, wraps.stripParens, expressionKey]

theorem evaluate_of_find? (target : Handle)
    (found : heap.expressions.find? (expressionKey script) = some value) :
    heap.evaluate target script = (some value, heap.retainValue value) := by
  simp only [evaluate, found]

/-- A value that is a live object gets one more reference, and nothing else does. -/
theorem refs_retainValue (heap : Heap ρ) (value : Raw) (h : Handle) :
    (heap.retainValue value).refs h
      = heap.refs h + if value = .object h ∧ heap.isLive h then 1 else 0 := by
  have after := heap.find?_retainAll value.handles h
  cases found : heap.objects.find? h with
  | none =>
    have dead : heap.isLive h = false := by rw [isLive, Table.contains, found, Option.isSome_none]
    rw [found, Option.map_none] at after
    rw [retainValue, refs_of_absent after, refs_of_absent found, dead, if_neg (by simp)]
  | some e =>
    have live : heap.isLive h = true := by rw [isLive, Table.contains, found, Option.isSome_some]
    rw [found, Option.map_some] at after
    rw [retainValue, refs_of_find? after, refs_of_find? found, live]
    cases value <;> simp [Raw.handles, Raw.handle?, List.count_singleton]

/-- The loop ends on every text, has nothing to do a second time, and ends alike for all wrappings of a
text. So whatever blanks and parentheses an expression is defined with and evaluated with, its value is
answered with a reference, at any target and whatever properties that has, until it is defined anew. -/
theorem wrappings_ignored (script : String) (heap : Heap ρ) (value : Raw) :
    (∃ turns, 2 * turns ≤ script.toList.length ∧
      Text.Peels turns (Text.trim script.toList) (Text.stripParens script.toList)) ∧
    Text.stripParens (Text.stripParens script.toList) = Text.stripParens script.toList ∧
    (∀ text, Text.Wraps script.toList text → Text.stripParens text = Text.stripParens script.toList) ∧
    ∀ (first second : String) (actions : List (Action ρ)) (target : Handle),
      Text.Wraps script.toList first.toList → Text.Wraps script.toList second.toList →
      (∀ action ∈ actions, action.defined? ≠ some (expressionKey script)) →
        let later := (heap.defineExpression first value).after actions
        later.evaluate target second = (some value, later.retainValue value) ∧
          ∀ h, (later.retainValue value).refs h
            = later.refs h + if value = .object h ∧ later.isLive h then 1 else 0 := by
  refine ⟨?_, Text.stripParens_stripParens _, fun _ wraps => wraps.stripParens, ?_⟩
  · obtain ⟨turns, peels⟩ := Text.peels_stripParens script.toList
    have bounded := peels.length_le
    have trimmed := Text.length_trim_le script.toList
    exact ⟨turns, by omega, peels⟩
  · intro first second actions target defined evaluated other later
    have found : later.expressions.find? (expressionKey second) = some value := by
      rw [expressionKey_of_wraps evaluated, find?_after other, find?_defineExpression,
        expressionKey_of_wraps defined, if_pos rfl]
    exact ⟨evaluate_of_find? target found, later.refs_retainValue value⟩

/-- A global object with a property of its own. -/
def withAnswer : Heap Unit where
  objects := ⟨[(⟨1⟩, ⟨1, .plain, ⟨[(.name 0, .int32 7)]⟩⟩)]⟩
  lastHandle := 1
  names := (Names.empty.intern "answer").2
  expressions := .empty
  releases := .empty
  exceptions := []

/-- The object itself is answered, and not the property. -/
theorem wrappings_ignored_at_property :
    let later := (withAnswer.defineExpression " (answer)" (.object ⟨1⟩)).after [.define "(other)" .null]
    (later.peek ⟨1⟩ "answer").1 = some (.int32 7) ∧ later.refs ⟨1⟩ = 2 ∧
      (later.evaluate ⟨1⟩ "((answer ))").1 = some (.object ⟨1⟩) ∧
      (later.evaluate ⟨1⟩ "((answer ))").2.refs ⟨1⟩ = 3 := by
  intro later
  have defined : Text.Wraps "answer".toList " (answer)".toList := by
    have outer : Text.Wraps "answer".toList ([' '] ++ ('(' :: ("answer".toList ++ [')'])) ++ []) :=
      .blanks (.parens .bare) (List.forall_mem_singleton.2 rfl)
    exact outer
  have evaluated : Text.Wraps "answer".toList "((answer ))".toList := by
    have inner : Text.Wraps "answer".toList ([] ++ "answer".toList ++ [' ']) :=
      .blanks .bare (List.forall_mem_singleton.2 rfl)
    exact inner.parens.parens
  have answer : expressionKey " (answer)" = "answer" := by
    rw [expressionKey_of_wraps defined, expressionKey, Text.stripParens_of_bare (by decide)]
    decide
  have other : expressionKey "(other)" = "other" := by
    have enclosed : Text.inside? '(' ')' (Text.trim "(other)".toList) = some "other".toList := by decide
    rw [expressionKey, Text.stripParens_of_inside enclosed, Text.stripParens_of_bare (by decide)]
    decide
  have apart : ∀ action ∈ [(.define "(other)" .null : Action Unit)],
      action.defined? ≠ some (expressionKey "answer") := by
    rw [List.forall_mem_singleton, Action.defined?, other, ← expressionKey_of_wraps defined, answer]
    decide
  have first : withAnswer.defineExpression " (answer)" (.object ⟨1⟩) = { withAnswer.retain ⟨1⟩ with
      expressions := ⟨[("answer", .object ⟨1⟩)]⟩ } := by
    rw [defineExpression_of_new (by rw [answer]; rfl), answer]
    rfl
  have is : later = { withAnswer.retain ⟨1⟩ with
      expressions := ⟨[("answer", .object ⟨1⟩), ("other", .null)]⟩ } := by
    change (withAnswer.defineExpression _ _).defineExpression _ _ = _
    rw [first, defineExpression_of_new (by rw [other]; rfl), other]
    rfl
  obtain ⟨-, -, -, answered⟩ := wrappings_ignored "answer" withAnswer (.object ⟨1⟩)
  obtain ⟨ran, refs⟩ := answered _ _ _ ⟨1⟩ defined evaluated apart
  have two : later.refs ⟨1⟩ = 2 := by
    rw [is]
    rfl
  have live : later.isLive ⟨1⟩ = true := by
    rw [is]
    rfl
  have property : (later.peek ⟨1⟩ "answer").1 = some (.int32 7) := by
    rw [is]
    rfl
  refine ⟨property, two, congrArg Prod.fst ran, ?_⟩
  rw [ran]
  exact (refs ⟨1⟩).trans (by rw [two, if_pos ⟨rfl, live⟩])

end Heap

end ScriptBoundary
