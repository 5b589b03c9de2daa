import Mathlib.Data.Finset.Dedup
import Mathlib.Data.Finset.Filter
import Mathlib.Data.Finset.Card
import ScriptBoundary.Proofs.Bag.Edits
import ScriptBoundary.Proofs.Identifier

/-!
What a bag holds. It is the map of what was written last: a key is there if its last change was a write,
with the value written then. Its entries stand in the order of identifiers, so the last of them tells the
length of the array.
-/

namespace ScriptBoundary

/-- A value is written under a key, or what stands there is removed. -/
abbrev Change := Identifier × Option Value

/-- What stands under a key after changes, if `was` stood there before: the last change counts. -/
def standing (key : Identifier) (was : Option Value) (changes : List Change) : Option Value :=
  changes.foldl (fun was change => if change.1 = key then change.2 else was) was

def lastWrite (history : List Change) (key : Identifier) : Option Value := standing key none history

theorem standing_append (key : Identifier) (was : Option Value) (first second : List Change) :
    standing key was (first ++ second) = standing key (standing key was first) second :=
  List.foldl_append

theorem standing_of_untouched {key : Identifier} {changes : List Change}
    (untouched : key ∉ changes.map (·.1)) (was : Option Value) : standing key was changes = was := by
  induction changes with
  | nil => rfl
  | cons change rest ih =>
    rw [List.map_cons, List.mem_cons, not_or] at untouched
    rw [standing, List.foldl_cons, if_neg (Ne.symm untouched.1)]
    exact ih untouched.2

theorem mem_of_lastWrite {history : List Change} {key : Identifier} {value : Value}
    (wrote : lastWrite history key = some value) : key ∈ history.map (·.1) := by
  by_contra untouched
  cases (standing_of_untouched untouched none).symm.trans wrote

/-- Where a bag begins: empty, or with elements. -/
inductive Start where
  | empty (shape : Shape)
  | elements (values : List Value)

namespace Start

def bag : Start → Bag Value
  | empty shape => .ofShape shape
  | elements values => .ofElements values

/-- What was written to begin with. -/
def writes : Start → List Change
  | empty _ => []
  | elements values => values.zipIdx.map fun e => (.index (.ofNat e.2), some e.1)

theorem find?_bag (start : Start) (key : Identifier) :
    start.bag.find? key = lastWrite start.writes key := by
  cases start with
  | empty shape => rfl
  | elements values =>
    rw [bag, Bag.find?, Bag.ofElements, Table.find?_ofList, lastWrite, standing, writes,
      List.foldl_map, List.foldl_map]

theorem sorted_bag (start : Start) : start.bag.props.Sorted := by
  cases start with
  | empty shape => exact Table.sorted_empty
  | elements values => exact Table.sorted_ofList _

end Start

namespace Edit

/-- The key that the edit of a bag concerns, and what it leaves there. -/
def change (b : Bag Value) : Edit → Change
  | set id value => (id, some value)
  | push value => (.index b.nextIndex, some value)
  | remove id => (id, none)

theorem find?_apply (b : Bag Value) (edit : Edit) (key : Identifier) :
    (edit.apply b).find? key = if (edit.change b).1 = key then (edit.change b).2 else b.find? key := by
  simp only [eq_comm (b := key)]
  cases edit with
  | set id value => exact b.find?_set id key value
  | push value => exact b.find?_set _ key value
  | remove id => exact b.find?_remove id key

theorem sorted_apply {b : Bag Value} (sorted : b.props.Sorted) (edit : Edit) :
    (edit.apply b).props.Sorted := by
  cases edit with
  | set id value => exact Table.sorted_insert sorted id value
  | push value => exact Table.sorted_insert sorted _ value
  | remove id =>
    rw [apply, Bag.remove]
    split
    · exact Table.sorted_erase sorted id
    · exact sorted

end Edit

namespace Bag

variable {b : Bag Value}

/-- What edits of a bag change, the first edit first. -/
def changes (b : Bag Value) : List Edit → List Change
  | [] => []
  | edit :: rest => edit.change b :: (edit.apply b).changes rest

theorem find?_edited (b : Bag Value) (edits : List Edit) (key : Identifier) :
    (b.edited edits).find? key = standing key (b.find? key) (b.changes edits) := by
  induction edits generalizing b with
  | nil => rfl
  | cons edit rest ih =>
    rw [edited, List.foldl_cons, ← edited, ih, Edit.find?_apply]
    rfl

theorem sorted_edited (sorted : b.props.Sorted) (edits : List Edit) : (b.edited edits).props.Sorted := by
  induction edits generalizing b with
  | nil => exact sorted
  | cons edit rest ih => exact ih (edit.sorted_apply sorted)

/-- Writes under different keys come to the same in either order. -/
theorem set_comm (sorted : b.props.Sorted) {id id' : Identifier} (other : id ≠ id') (v v' : Value) :
    (b.set id v).set id' v' = (b.set id' v').set id v := by
  have props : (b.props.insert id v).insert id' v' = (b.props.insert id' v').insert id v := by
    refine Table.ext_find? (Table.sorted_insert (Table.sorted_insert sorted _ _) _ _)
      (Table.sorted_insert (Table.sorted_insert sorted _ _) _ _) fun key => ?_
    simp only [Table.find?_insert]
    by_cases first : key = id
    · simp [first, other]
    · simp [first]
  simp only [set, props]

theorem mem_identifiers {ν : Type} {b : Bag ν} {key : Identifier} :
    key ∈ b.identifiers ↔ ∃ value, b.find? key = some value := by
  rw [identifiers, ← Table.contains_iff_mem_keys, Table.contains_iff]
  rfl

/-- The length goes by the last key alone: integers come last, and the greatest of them at the end. -/
theorem arrayLength_cases {ν : Type} {b : Bag ν} (sorted : b.props.Sorted) :
    (b.arrayLength = 0 ∧ ∀ i, .index i ∈ b.identifiers → i.toInt < 0) ∨
    ∃ i, .index i ∈ b.identifiers ∧ 0 ≤ i.toInt ∧ (∀ j, .index j ∈ b.identifiers → j.toInt ≤ i.toInt) ∧
      b.arrayLength = i.toInt.toNat + 1 := by
  rw [arrayLength]
  cases last : b.props.lastKey? with
  | none =>
    have none_ : b.identifiers = [] := List.getLast?_eq_none_iff.1 last
    exact .inl ⟨rfl, fun i inside => by rw [none_] at inside; cases inside⟩
  | some key =>
    obtain ⟨inside, others⟩ := Table.last_of_lastKey? sorted last
    have before {i : Int32} (there : .index i ∈ b.identifiers) :
        .index i = key ∨ Identifier.Precedes (.index i) key :=
      (others _ there).imp_right Identifier.compare_eq_lt_iff.1
    cases key with
    | name text =>
      -- No integer comes before a name.
      refine .inl ⟨rfl, fun i there => ?_⟩
      rcases before there with same | less
      · cases same
      · cases less
    | index i =>
      have greatest : ∀ j, .index j ∈ b.identifiers → j.toInt ≤ i.toInt := by
        intro j there
        rcases before there with same | less
        · cases same
          exact Int.le_refl _
        · exact Int.le_of_lt less
      by_cases positive : 0 ≤ i.toInt
      · exact .inr ⟨i, inside, positive, greatest, if_pos positive⟩
      · refine .inl ⟨if_neg positive, fun j there => ?_⟩
        have := greatest j there
        omega

end Bag

/-- A bag holds what was written last, in the order of identifiers. -/
structure Bag.Keeps (b : Bag Value) (history : List Change) : Prop where
  ascending : b.identifiers.Pairwise Identifier.Precedes
  listed : ∀ key, key ∈ b.identifiers ↔ (lastWrite history key).isSome
  entries : ∀ key value, (key, value) ∈ b.props.entries ↔ lastWrite history key = some value
  size : b.size
    = ((history.map (·.1)).toFinset.filter fun key => (lastWrite history key).isSome).card
  empty : (∀ i, (lastWrite history (.index i)).isSome → i.toInt < 0) → b.arrayLength = 0
  length : ∀ i, (lastWrite history (.index i)).isSome → 0 ≤ i.toInt →
    (∀ j, (lastWrite history (.index j)).isSome → j.toInt ≤ i.toInt) →
      b.arrayLength = i.toInt.toNat + 1

namespace Start

/-- Everything that was written or removed, the first change first. -/
def history (start : Start) (edits : List Edit) : List Change := start.writes ++ start.bag.changes edits

variable {start : Start} {edits : List Edit}

theorem find?_edited (start : Start) (edits : List Edit) (key : Identifier) :
    (start.bag.edited edits).find? key = lastWrite (start.history edits) key := by
  rw [Bag.find?_edited, find?_bag, history, lastWrite, lastWrite, standing_append]

theorem isSome_lastWrite {key : Identifier} :
    (lastWrite (start.history edits) key).isSome ↔ key ∈ (start.bag.edited edits).identifiers := by
  rw [← find?_edited, Bag.mem_identifiers, Option.isSome_iff_exists]

theorem keeps_edited (start : Start) (edits : List Edit) :
    (start.bag.edited edits).Keeps (start.history edits) := by
  have sorted := Bag.sorted_edited start.sorted_bag edits
  constructor
  case ascending =>
    exact List.pairwise_map.2 (sorted.imp Identifier.compare_eq_lt_iff.1)
  case listed => exact fun key => isSome_lastWrite.symm
  case entries =>
    intro key value
    rw [← find?_edited]
    exact Table.mem_iff_find? sorted
  case size =>
    have distinct : (start.bag.edited edits).identifiers.Nodup := Table.nodup_keys sorted
    have same : ((start.history edits).map (·.1)).toFinset.filter
        (fun key => (lastWrite (start.history edits) key).isSome)
          = (start.bag.edited edits).identifiers.toFinset := by
      ext key
      rw [Finset.mem_filter, List.mem_toFinset, List.mem_toFinset, ← isSome_lastWrite]
      refine and_iff_right_of_imp fun wrote => ?_
      obtain ⟨value, wrote⟩ := Option.isSome_iff_exists.1 wrote
      exact mem_of_lastWrite wrote
    rw [same, List.toFinset_card_of_nodup distinct, Bag.identifiers, Table.keys, List.length_map]
    rfl
  case empty =>
    intro negative
    rcases Bag.arrayLength_cases sorted with ⟨zero, _⟩ | ⟨i, inside, positive, _⟩
    · exact zero
    · have := negative i (isSome_lastWrite.2 inside)
      omega
  case length =>
    intro i wrote positive greatest
    rcases Bag.arrayLength_cases sorted with ⟨_, negative⟩ | ⟨k, inside, _, last, is⟩
    · have := negative i (isSome_lastWrite.1 wrote)
      omega
    · have := last i (isSome_lastWrite.1 wrote)
      have := greatest k (isSome_lastWrite.2 inside)
      omega

/-- After any operations a bag holds what was written last and not removed, in the order of identifiers,
and nothing else of its history can be told from it. -/
theorem contents_by_last_write (start : Start) (edits : List Edit) :
    (start.bag.edited edits).Keeps (start.history edits) ∧
    (∀ start' edits', lastWrite (history start' edits') = lastWrite (start.history edits) →
      (start'.bag.edited edits').props = (start.bag.edited edits).props) ∧
    ∀ id id' v v', id ≠ id' →
      start.bag.edited (edits ++ [.set id v, .set id' v'])
        = start.bag.edited (edits ++ [.set id' v', .set id v]) := by
  refine ⟨start.keeps_edited edits, fun start' edits' same => ?_, fun id id' v v' other => ?_⟩
  · refine Table.ext_find? (Bag.sorted_edited start'.sorted_bag edits')
      (Bag.sorted_edited start.sorted_bag edits) fun key => ?_
    exact (start'.find?_edited edits' key).trans
      ((congrFun same key).trans (start.find?_edited edits key).symm)
  · simp only [Bag.edited, List.foldl_append, List.foldl_cons, List.foldl_nil]
    exact Bag.set_comm (Bag.sorted_edited start.sorted_bag edits) other v v'

/-- An element that is written and removed again leaves nothing behind, and a name may be written before
or after an integer. -/
theorem contents_by_last_write_of_removed :
    Identifier.name "b" ≠ .index (-1) ∧
    lastWrite ((Start.elements [.null]).history
        [.remove (.index 0), .set (.name "b") .void, .set (.index (-1)) .null])
      = lastWrite ((Start.empty .array).history [.set (.index (-1)) .null, .set (.name "b") .void]) ∧
    ((Start.elements [.null]).bag.edited
        [.remove (.index 0), .set (.name "b") .void, .set (.index (-1)) .null]).props
      = ((Start.empty .array).bag.edited [.set (.index (-1)) .null, .set (.name "b") .void]).props ∧
    (Start.empty .array).bag.edited [.set (.index (-1)) .null, .set (.name "b") .void]
      = (Start.empty .array).bag.edited [.set (.name "b") .void, .set (.index (-1)) .null] := by
  have other : Identifier.name "b" ≠ .index (-1) := by decide
  have same : lastWrite ((Start.elements [.null]).history
        [.remove (.index 0), .set (.name "b") .void, .set (.index (-1)) .null])
      = lastWrite ((Start.empty .array).history
        [.set (.index (-1)) .null, .set (.name "b") .void]) := by
    funext key
    by_cases name : key = .name "b"
    · subst name
      rfl
    · by_cases negative : key = .index (-1)
      · subst negative
        rfl
      · by_cases zero : key = .index 0
        · subst zero
          rfl
        · simp [lastWrite, standing, history, writes, Bag.changes, Edit.change, Ne.symm name,
            Ne.symm negative, Ne.symm zero]
  obtain ⟨_, alike, _⟩ :=
    contents_by_last_write (.empty .array) [.set (.index (-1)) .null, .set (.name "b") .void]
  obtain ⟨_, _, commute⟩ := contents_by_last_write (.empty .array) []
  exact ⟨other, same, alike _ _ same, commute _ _ _ _ (Ne.symm other)⟩

end Start

end ScriptBoundary
