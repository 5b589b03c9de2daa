import Mathlib.Data.List.Basic
import ScriptBoundary.Proofs.Table
import ScriptBoundary.Value.Basic

/-!
Engine values as maps. Their bags are sorted all the way down, and every change to a bag accounts
for the references in it.
-/

namespace ScriptBoundary

namespace Value

/-! Every bag in a value is a sorted map. -/

mutual

def Sorted : Value → Prop
  | .scalar _ => True
  | .object ⟨_, ⟨entries⟩, _⟩ => Table.Ascending entries ∧ EntriesSorted entries

def EntriesSorted : List (Identifier × Value) → Prop
  | [] => True
  | (_, v) :: rest => Sorted v ∧ EntriesSorted rest

end

theorem entriesSorted_iff {entries : List (Identifier × Value)} :
    EntriesSorted entries ↔ ∀ e ∈ entries, e.2.Sorted := by
  induction entries with
  | nil => simp [EntriesSorted]
  | cons e rest ih => rw [EntriesSorted, ih, List.forall_mem_cons]

theorem sorted_object_iff {bag : Bag Value} :
    (Value.object bag).Sorted ↔ bag.props.Sorted ∧ ∀ e ∈ bag.props.entries, e.2.Sorted := by
  obtain ⟨shape, ⟨entries⟩, backing⟩ := bag
  rw [Sorted, entriesSorted_iff]
  rfl

theorem sorted_scalar (s : Scalar) : (Value.scalar s).Sorted := by simp [Sorted]

theorem entriesHandles_eq (entries : List (Identifier × Value)) :
    entriesHandles entries = entries.flatMap fun e => e.2.handles := by
  induction entries with
  | nil => rfl
  | cons e rest ih => rw [entriesHandles, ih, List.flatMap_cons]

end Value

namespace Bag

/-- References of the entries of a bag. -/
def entryHandles (table : Table Identifier Value) : List Handle :=
  table.values.flatMap Value.handles

theorem handles_eq (bag : Bag Value) :
    bag.handles = entryHandles bag.props ++ bag.backing.toList := by
  obtain ⟨shape, ⟨entries⟩, backing⟩ := bag
  rw [handles, Value.handles, Value.entriesHandles_eq, entryHandles, Table.values, List.flatMap_map]

theorem mem_entryHandles {table : Table Identifier Value} {id : Identifier} {value : Value}
    (found : table.find? id = some value) {h : Handle} (inside : h ∈ value.handles) :
    h ∈ entryHandles table :=
  List.mem_flatMap.2 ⟨value, List.mem_map.2 ⟨(id, value), Table.mem_of_find? found, rfl⟩, inside⟩

theorem find?_set (bag : Bag Value) (id key : Identifier) (value : Value) :
    (bag.set id value).find? key = if key = id then some value else bag.find? key :=
  Table.find?_insert bag.props id key value

theorem find?_remove (bag : Bag Value) (id key : Identifier) :
    (bag.remove id).find? key = if key = id then none else bag.find? key := by
  by_cases inside : bag.contains id = true
  · rw [remove, if_pos inside]
    exact Table.find?_erase bag.props id key
  · rw [remove, if_neg inside]
    split
    next here => simpa [here, contains, Table.contains, find?] using inside
    next => rfl

theorem sorted_set {bag : Bag Value} {value : Value} (sorted : (Value.object bag).Sorted)
    (valueSorted : value.Sorted) (id : Identifier) : (Value.object (bag.set id value)).Sorted := by
  obtain ⟨table, entries⟩ := Value.sorted_object_iff.1 sorted
  refine Value.sorted_object_iff.2 ⟨Table.sorted_insert table id value, fun e inside => ?_⟩
  rcases Table.mem_place inside with rfl | there
  · exact valueSorted
  · exact entries e there

theorem sorted_remove {bag : Bag Value} (sorted : (Value.object bag).Sorted) (id : Identifier) :
    (Value.object (bag.remove id)).Sorted := by
  obtain ⟨table, entries⟩ := Value.sorted_object_iff.1 sorted
  simp only [remove]
  split
  · exact Value.sorted_object_iff.2 ⟨Table.sorted_erase table id,
      fun e inside => entries e (List.mem_of_mem_filter inside)⟩
  · exact sorted

/-- A write takes over the references of the new value and gives up those of the backing and of the
old value. -/
theorem handles_set {bag : Bag Value} (sorted : bag.props.Sorted) (id : Identifier) (value : Value) :
    ((bag.set id value).handles ++ bag.lostBySet id).Perm (value.handles ++ bag.handles) := by
  have moved := (Table.values_insert_perm sorted id value).flatMap_right Value.handles
  have old : (bag.find? id).elim [] Value.handles
      = (bag.props.find? id).toList.flatMap Value.handles := by
    rw [find?]
    cases bag.props.find? id <;> simp
  simp only [List.flatMap_append, List.flatMap_cons] at moved
  simp only [handles_eq, set, lostBySet, entryHandles, old, Option.toList_none, List.append_nil]
  rw [← List.append_assoc, ← List.append_assoc]
  refine List.Perm.trans ?_ (moved.append_right _)
  simp only [List.append_assoc]
  exact List.perm_append_comm.append_left _

/-- Removing a property gives up its references and those of the backing. -/
theorem handles_remove {bag : Bag Value} (sorted : bag.props.Sorted) (id : Identifier) :
    ((bag.remove id).handles ++ bag.lostByRemove id).Perm bag.handles := by
  cases found : bag.props.find? id with
  | none => simp [remove, lostByRemove, contains, Table.contains, find?, found]
  | some value =>
    have moved := ((Table.perm_erase sorted found).map (·.2)).flatMap_right Value.handles
    simp only [List.map_cons, List.flatMap_cons] at moved
    simp only [remove, lostByRemove, contains, Table.contains, find?, found, Option.isSome_some,
      if_true, handles_eq, entryHandles, Table.values, Option.toList_none, List.append_nil]
    rw [← List.append_assoc]
    exact (List.perm_append_comm.trans moved.symm).append_right _

/-- An element is a hole or the value of an entry. -/
theorem mem_elements {ν : Type} {b : Bag ν} {hole v : ν} (inside : v ∈ b.elements hole) :
    v = hole ∨ ∃ e ∈ b.props.entries, e.2 = v := by
  simp only [elements] at inside
  split at inside
  · cases inside
  · generalize b.props.entries = entries, 0 = next at inside
    induction entries generalizing next with
    | nil => cases inside
    | cons e rest ih =>
      have further {next : Nat} (inside : v ∈ fill hole next rest) :
          v = hole ∨ ∃ d ∈ e :: rest, d.2 = v :=
        (ih _ inside).imp_right (Exists.imp fun _ => And.imp_left (List.mem_cons_of_mem _))
      obtain ⟨id, u⟩ := e
      cases id with
      | name text => exact further inside
      | index i =>
        simp only [fill] at inside
        split at inside
        · exact further inside
        · rcases List.mem_append.1 inside with gap | inside
          · exact .inl (List.eq_of_mem_replicate gap)
          · rcases List.mem_cons.1 inside with rfl | inside
            · exact .inr ⟨_, List.mem_cons_self, rfl⟩
            · exact further inside

end Bag

end ScriptBoundary
