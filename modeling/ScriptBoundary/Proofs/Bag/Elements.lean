import ScriptBoundary.Proofs.Bag.Contents
import ScriptBoundary.Proofs.Host.Names

/-!
The array view of a bag: one element for each index below the length, and an append after the last of
them. An index is a 32-bit integer, so both stop short of a bag that has the greatest one: there is no
index after it.
-/

namespace ScriptBoundary

namespace Bag

variable {ν : Type} {hole : ν} {entries : List (Identifier × ν)}

/-! ## Indices -/

/-- What stands at an index, or a hole. -/
def elementAt (hole : ν) (entries : List (Identifier × ν)) (i : Nat) : ν :=
  (Table.lookup (.index (.ofNat i)) entries).getD hole

/-- One past the greatest index. -/
def reach : List (Identifier × ν) → Nat
  | [] => 0
  | (.name _, _) :: rest => reach rest
  | (.index i, _) :: rest => if i.toInt < 0 then reach rest else max (i.toInt.toNat + 1) (reach rest)

theorem reach_le (entries : List (Identifier × ν)) : reach entries ≤ 2 ^ 31 := by
  induction entries with
  | nil => exact Nat.zero_le _
  | cons e rest ih =>
    obtain ⟨text | i, v⟩ := e
    · exact ih
    · rw [reach]
      have := i.toInt_lt
      split <;> omega

theorem lt_reach_iff {n : Nat} :
    n < reach entries ↔ ∃ i : Int32, .index i ∈ entries.map (·.1) ∧ (n : Int) ≤ i.toInt := by
  induction entries with
  | nil => simp [reach]
  | cons e rest ih =>
    obtain ⟨text | i, v⟩ := e
    · simp [reach, ih]
    · simp only [reach, List.map_cons, List.mem_cons, Identifier.index.injEq, or_and_right,
        exists_or, exists_eq_left, ← ih]
      split <;> omega

/-- In the order of identifiers, an index that stands before another is smaller. -/
theorem lt_of_ascending {i j : Int32} {v : ν}
    (sorted : Table.Ascending ((.index i, v) :: entries)) (inside : .index j ∈ entries.map (·.1)) :
    i.toInt < j.toInt := by
  obtain ⟨e, there, same⟩ := List.mem_map.1 inside
  have before := (List.pairwise_cons.1 sorted).1 e there
  rw [same] at before
  exact Int.compare_eq_lt.1 before

theorem elementAt_cons_of_ne {id : Identifier} {v : ν} {i : Nat}
    (other : id ≠ .index (.ofNat i)) : elementAt hole ((id, v) :: entries) i = elementAt hole entries i := by
  rw [elementAt, Table.lookup, if_neg fun same => other (Std.compare_eq_iff_eq.1 same).symm, elementAt]

theorem index_ne {i : Int32} {k : Nat} (small : k < 2 ^ 31) (other : i.toInt ≠ k) :
    Identifier.index i ≠ .index (.ofNat k) := by
  rintro same
  cases same
  exact other (HostId.toInt_ofNat small)

theorem elementAt_of_absent {k : Nat} (absent : .index (.ofNat k) ∉ entries.map (·.1)) :
    elementAt hole entries k = hole := by
  have none_ : Table.lookup (.index (.ofNat k)) entries = none :=
    Table.find?_eq_none_iff (t := ⟨entries⟩).2 fun e inside same =>
      absent (List.mem_map.2 ⟨e, inside, same⟩)
  rw [elementAt, none_, Option.getD_none]

theorem elementAt_cons_self {i : Int32} (positive : 0 ≤ i.toInt) (v : ν) :
    elementAt hole ((.index i, v) :: entries) i.toInt.toNat = v := by
  have same : Int32.ofNat i.toInt.toNat = i := by
    have := i.toInt_lt
    apply Int32.toInt_inj.1
    rw [HostId.toInt_ofNat (by omega)]
    omega
  rw [elementAt, same, Table.lookup, if_pos Std.ReflCmp.compare_self, Option.getD_some]

/-- An entry under another key is not seen at the indices from `next` to `stop`. -/
theorem map_elementAt_cons {id : Identifier} {next stop : Nat}
    (other : ∀ k, next ≤ k → k < stop → id ≠ .index (.ofNat k)) (v : ν) :
    (List.range' next (stop - next)).map (elementAt hole ((id, v) :: entries))
      = (List.range' next (stop - next)).map (elementAt hole entries) := by
  refine List.map_congr_left fun k inside => elementAt_cons_of_ne ?_
  obtain ⟨from_, before⟩ := List.mem_range'_1.1 inside
  exact other k from_ (by omega)

/-- There are only holes before the first index. -/
theorem map_elementAt_gap {i : Int32} {v : ν} (sorted : Table.Ascending ((.index i, v) :: entries))
    (next : Nat) : (List.range' next (i.toInt.toNat - next)).map (elementAt hole ((.index i, v) :: entries))
      = List.replicate (i.toInt.toNat - next) hole := by
  refine List.eq_replicate_iff.2 ⟨by simp, fun u inside => ?_⟩
  obtain ⟨k, within, rfl⟩ := List.mem_map.1 inside
  have := List.mem_range'_1.1 within
  have := i.toInt_lt
  apply elementAt_of_absent
  intro inside
  rcases List.mem_cons.1 inside with here | further
  · exact index_ne (by omega) (by omega) here.symm
  · have less := lt_of_ascending sorted further
    rw [HostId.toInt_ofNat (by omega)] at less
    omega

/-- From `next` on, the elements are what stands at one index after another. -/
theorem fill_eq (sorted : Table.Ascending entries) {next : Nat}
    (later : ∀ i : Int32, .index i ∈ entries.map (·.1) → 0 ≤ i.toInt → next ≤ i.toInt.toNat) :
    fill hole next entries
      = (List.range' next (reach entries - next)).map (elementAt hole entries) := by
  induction entries generalizing next with
  | nil => simp [fill, reach]
  | cons e rest ih =>
    have bound := reach_le rest
    have rest_ := (List.pairwise_cons.1 sorted).2
    have skipped : fill hole next rest = _ :=
      ih rest_ fun i inside => later i (List.mem_cons_of_mem _ inside)
    obtain ⟨text | i, v⟩ := e
    · have other : ∀ k, next ≤ k → k < reach rest → Identifier.name text ≠ .index (.ofNat k) := by
        intro k _ _ same
        cases same
      rw [fill, reach, map_elementAt_cons other]
      exact skipped
    by_cases negative : i.toInt < 0
    · rw [fill, reach, if_pos negative, if_pos negative,
        map_elementAt_cons fun k _ _ => index_ne (by omega) (by omega)]
      exact skipped
    have after := later i List.mem_cons_self (by omega)
    have further : fill hole (i.toInt.toNat + 1) rest = _ := ih rest_ fun j inside _ => by
      have := lt_of_ascending sorted inside
      omega
    -- The gap before the index, what stands there, and what comes after it.
    have length : reach ((.index i, v) :: rest) - next
        = (i.toInt.toNat - next) + ((reach rest - (i.toInt.toNat + 1)) + 1) := by
      rw [reach, if_neg negative]
      omega
    have there : next + (i.toInt.toNat - next) = i.toInt.toNat := by omega
    rw [fill, if_neg negative, length, ← List.range'_append_1, List.map_append,
      map_elementAt_gap sorted, there, List.range'_succ, List.map_cons,
      elementAt_cons_self (by omega), map_elementAt_cons fun k _ _ => index_ne (by omega) (by omega),
      further]

/-! ## The array view -/

section Array

variable {b : Bag ν}

theorem lt_arrayLength_iff (sorted : b.props.Sorted) {n : Nat} :
    n < b.arrayLength ↔ ∃ i : Int32, .index i ∈ b.identifiers ∧ (n : Int) ≤ i.toInt := by
  rcases arrayLength_cases sorted with ⟨zero, negative⟩ | ⟨i, inside, positive, greatest, is⟩
  · refine ⟨fun less => by omega, fun ⟨i, inside, least⟩ => ?_⟩
    have := negative i inside
    omega
  · refine ⟨fun less => ⟨i, inside, by omega⟩, fun ⟨j, there, least⟩ => ?_⟩
    have := greatest j there
    omega

theorem arrayLength_eq (sorted : b.props.Sorted) : b.arrayLength = reach b.props.entries :=
  eq_of_forall_lt_iff fun _ => (lt_arrayLength_iff sorted).trans lt_reach_iff.symm

theorem arrayLength_le (sorted : b.props.Sorted) : b.arrayLength ≤ 2 ^ 31 := by
  rw [arrayLength_eq sorted]
  exact reach_le _

/-- Only the greatest index makes the length too great for an index. -/
theorem mem_maxValue_iff (sorted : b.props.Sorted) :
    .index Int32.maxValue ∈ b.identifiers ↔ ¬ b.arrayLength < 2 ^ 31 := by
  have greatest : Int32.maxValue.toInt = 2 ^ 31 - 1 := rfl
  have reaches := lt_arrayLength_iff sorted (n := 2 ^ 31 - 1)
  refine ⟨fun inside => ?_, fun full => ?_⟩
  · have := reaches.2 ⟨_, inside, by omega⟩
    omega
  · obtain ⟨i, inside, least⟩ := reaches.1 (by omega)
    have bound := i.toInt_lt
    have same : i = Int32.maxValue := Int32.toInt_inj.1 (by omega)
    exact same ▸ inside

theorem elements_eq (sorted : b.props.Sorted) (small : b.arrayLength < 2 ^ 31) :
    b.elements hole = (List.range b.arrayLength).map (elementAt hole b.props.entries) := by
  rw [elements, nextIndex, HostId.toInt_ofNat small]
  split
  next none_ => simp [show b.arrayLength = 0 by omega]
  next =>
    rw [fill_eq sorted fun _ _ _ => Nat.zero_le _, ← arrayLength_eq sorted, Nat.sub_zero,
      List.range_eq_range']

theorem length_elements (sorted : b.props.Sorted) (small : b.arrayLength < 2 ^ 31) :
    (b.elements hole).length = b.arrayLength := by
  rw [elements_eq sorted small, List.length_map, List.length_range]

/-- Past the greatest index there is none. -/
theorem nextIndex_of_full (full : b.arrayLength = 2 ^ 31) : b.nextIndex = Int32.minValue := by
  rw [nextIndex, full]
  rfl

theorem elements_of_full (full : b.arrayLength = 2 ^ 31) : b.elements hole = [] := by
  rw [elements, nextIndex_of_full full]
  exact if_pos (by decide)

theorem length_elements_lt (sorted : b.props.Sorted) (hole : ν) :
    (b.elements hole).length < 2 ^ 31 := by
  by_cases small : b.arrayLength < 2 ^ 31
  · rwa [length_elements sorted small]
  · rw [elements_of_full (Nat.le_antisymm (arrayLength_le sorted) (Nat.le_of_not_lt small))]
    exact Nat.two_pow_pos 31

/-! ## Appending -/

/-- The next index is free. -/
theorem find?_nextIndex (sorted : b.props.Sorted) (small : b.arrayLength < 2 ^ 31) :
    b.find? (.index b.nextIndex) = none := by
  by_contra present
  obtain ⟨value, found⟩ := Option.ne_none_iff_exists'.1 present
  have inside : .index b.nextIndex ∈ b.identifiers := mem_identifiers.2 ⟨value, found⟩
  have less := (lt_arrayLength_iff sorted (n := b.arrayLength)).2
    ⟨b.nextIndex, inside, by rw [nextIndex, HostId.toInt_ofNat small]⟩
  omega

theorem find?_push (b : Bag ν) (v : ν) (key : Identifier) :
    (b.push v).find? key = if key = .index b.nextIndex then some v else b.find? key :=
  Table.find?_insert b.props _ key v

theorem sorted_push (sorted : b.props.Sorted) (v : ν) : (b.push v).props.Sorted :=
  Table.sorted_insert sorted _ v

theorem mem_identifiers_push {v : ν} {key : Identifier} :
    key ∈ (b.push v).identifiers ↔ key = .index b.nextIndex ∨ key ∈ b.identifiers := by
  simp only [mem_identifiers, find?_push]
  split <;> simp_all

theorem size_push (sorted : b.props.Sorted) (small : b.arrayLength < 2 ^ 31) (v : ν) :
    (b.push v).size = b.size + 1 := by
  have placed := (Table.perm_insert sorted (.index b.nextIndex) v).length_eq
  rw [Table.erase_of_absent (find?_nextIndex sorted small)] at placed
  exact placed

theorem arrayLength_push (sorted : b.props.Sorted) (small : b.arrayLength < 2 ^ 31) (v : ν) :
    (b.push v).arrayLength = b.arrayLength + 1 := by
  have next : b.nextIndex.toInt = b.arrayLength := HostId.toInt_ofNat small
  refine eq_of_forall_lt_iff fun n => ?_
  rw [lt_arrayLength_iff (sorted_push sorted v)]
  simp only [mem_identifiers_push, Identifier.index.injEq, or_and_right, exists_or, exists_eq_left,
    ← lt_arrayLength_iff sorted, next]
  omega

theorem elements_push (sorted : b.props.Sorted) (small : b.arrayLength + 1 < 2 ^ 31) (v : ν) :
    (b.push v).elements hole = b.elements hole ++ [v] := by
  have length := arrayLength_push sorted (by omega) v
  rw [elements_eq (sorted_push sorted v) (by omega), elements_eq sorted (by omega), length,
    List.range_succ, List.map_append, List.map_singleton]
  have at_ (i : Nat) : elementAt hole (b.push v).props.entries i
      = if Identifier.index (.ofNat i) = .index b.nextIndex then v
        else elementAt hole b.props.entries i := by
    change ((b.push v).find? _).getD hole = _
    rw [find?_push]
    split <;> rfl
  congr 1
  · refine List.map_congr_left fun i inside => ?_
    have := List.mem_range.1 inside
    have other : Identifier.index (.ofNat i) ≠ .index b.nextIndex := by
      apply index_ne (by omega)
      rw [HostId.toInt_ofNat (by omega)]
      omega
    rw [at_, if_neg other]
  · rw [at_]
    exact congrArg (fun u => [u]) (if_pos rfl)

theorem arrayLength_push_of_full (sorted : b.props.Sorted) (full : b.arrayLength = 2 ^ 31) (v : ν) :
    (b.push v).arrayLength = 2 ^ 31 := by
  have kept : .index Int32.maxValue ∈ (b.push v).identifiers :=
    mem_identifiers_push.2 (.inr ((mem_maxValue_iff sorted).2 (by omega)))
  have above := (mem_maxValue_iff (sorted_push sorted v)).1 kept
  have below := arrayLength_le (b := b.push v) (sorted_push sorted v)
  omega

end Array

end Bag

/-- A bag is read as an array, an element for each index below the length, and `v` is appended to it. -/
structure Bag.Appends (b : Bag Value) (v : Value) : Prop where
  count : (b.elements .void).length = b.arrayLength
  element : ∀ i, i < b.arrayLength →
    (b.elements .void)[i]? = some ((b.find? (.index (.ofNat i))).getD .void)
  free : .index (.ofNat b.arrayLength) ∉ b.identifiers
  rest : ∀ key, (b.push v).find? key
    = if key = .index (.ofNat b.arrayLength) then some v else b.find? key
  size : (b.push v).size = b.size + 1
  length : (b.push v).arrayLength = b.arrayLength + 1
  elements : .index Int32.maxValue ∉ (b.push v).identifiers →
    (b.push v).elements .void = b.elements .void ++ [v]

/-- There is no index after the last one: a bag is read as if it had no elements, and `v` is put under
the least index, over whatever stands there. -/
structure Bag.Overflows (b : Bag Value) (v : Value) : Prop where
  elements : b.elements .void = []
  pushed : b.push v = b.set (.index Int32.minValue) v
  lengths : b.arrayLength = 2 ^ 31 ∧ (b.push v).arrayLength = 2 ^ 31

namespace Bag

variable {b : Bag Value}

theorem appends (sorted : b.props.Sorted) (small : b.arrayLength < 2 ^ 31) (v : Value) :
    b.Appends v := by
  have elements : b.elements .void = _ := elements_eq sorted small
  constructor
  case count => exact length_elements sorted small
  case element =>
    intro i less
    rw [elements, List.getElem?_map, List.getElem?_range less]
    rfl
  case free =>
    rw [mem_identifiers, ← Option.isSome_iff_exists, Option.not_isSome_iff_eq_none]
    exact find?_nextIndex sorted small
  case rest => exact b.find?_push v
  case size => exact size_push sorted small v
  case length => exact arrayLength_push sorted small v
  case elements =>
    intro room
    have room := not_not.1 ((mem_maxValue_iff (sorted_push sorted v)).not.1 room)
    rw [arrayLength_push sorted small v] at room
    exact elements_push sorted room v

theorem overflows (sorted : b.props.Sorted) (full : b.arrayLength = 2 ^ 31) (v : Value) :
    b.Overflows v where
  elements := elements_of_full full
  pushed := by rw [push, nextIndex_of_full full]
  lengths := ⟨full, arrayLength_push_of_full sorted full v⟩

end Bag

namespace Start

/-- Elements and appends go by the length of the array, in every bag but one that has the greatest
index. -/
theorem array_view (start : Start) (edits : List Edit) (v : Value) :
    (.index Int32.maxValue ∉ (start.bag.edited edits).identifiers →
      (start.bag.edited edits).Appends v) ∧
    (.index Int32.maxValue ∈ (start.bag.edited edits).identifiers →
      (start.bag.edited edits).Overflows v) := by
  have sorted := Bag.sorted_edited start.sorted_bag edits
  rw [Bag.mem_maxValue_iff sorted, not_not]
  refine ⟨fun small => Bag.appends sorted small v, fun full => Bag.overflows sorted ?_ v⟩
  exact Nat.le_antisymm (Bag.arrayLength_le sorted) (Nat.le_of_not_lt full)

/-- A sparse bag has a hole for each missing index, and keeps its other keys; the bag that has the
greatest index takes the append elsewhere. -/
theorem array_view_of_sparse :
    ((Start.empty .array).bag.edited [.set (.index 2) .null, .set (.name "tag") .void]).Appends .null ∧
    ((Start.empty .array).bag.edited [.set (.index Int32.maxValue) .null]).Overflows .void :=
  ⟨(array_view (.empty .array) [.set (.index 2) .null, .set (.name "tag") .void] .null).1 (by decide),
    (array_view (.empty .array) [.set (.index Int32.maxValue) .null] .void).2 (by decide)⟩

end Start

/-- A bag with the least and the greatest index. -/
def Bag.ends : Bag Value :=
  (Start.empty .array).bag.edited
    [.set (.index Int32.minValue) .void, .set (.index Int32.maxValue) .null]

/-- An append writes over what stands under the least index and adds no key, and the bag has no elements
for all its length. -/
theorem Bag.push_overwrites :
    (Bag.ends.elements .void).length ≠ Bag.ends.arrayLength ∧
    Bag.ends.find? (.index Int32.minValue) = some .void ∧
    (Bag.ends.push .null).find? (.index Int32.minValue) = some .null ∧
    (Bag.ends.push .null).size = Bag.ends.size ∧
    (Bag.ends.push .null).arrayLength = Bag.ends.arrayLength :=
  ⟨by decide, rfl, rfl, rfl, rfl⟩

end ScriptBoundary
