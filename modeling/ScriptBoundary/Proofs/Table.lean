import Mathlib.Data.List.Forall2
import ScriptBoundary.Handle
import ScriptBoundary.Host.Names
import ScriptBoundary.Table

/-!
Tables are finite maps. A table in strictly increasing key order is determined by what it answers,
and each of its operations changes the answer at one key.
-/

namespace ScriptBoundary

/-! ## The orders of the keys -/

instance : Std.LawfulEqOrd Handle where
  compare_self := fun {a} => (Std.ReflCmp.compare_self : compare a.number a.number = .eq)
  eq_of_compare := by
    rintro ⟨a⟩ ⟨b⟩ same
    exact congrArg Handle.mk (Std.compare_eq_iff_eq.1 (same : compare a b = .eq))

instance : Std.TransOrd Handle where
  eq_swap := fun {a b} => (Std.OrientedCmp.eq_swap : compare a.number b.number = _)
  isLE_trans := fun {a b c} =>
    (Std.TransCmp.isLE_trans : (compare a.number b.number).isLE → (compare b.number c.number).isLE →
      (compare a.number c.number).isLE)

instance : Std.LawfulEqOrd HostId where
  compare_self := by
    rintro (a | a) <;> exact (Std.ReflCmp.compare_self : compare a a = .eq)
  eq_of_compare := by
    rintro (a | a) (b | b) same
    · exact congrArg _ (Std.compare_eq_iff_eq.1 (show compare a b = .eq from same))
    · cases same
    · cases same
    · exact congrArg _ (Std.compare_eq_iff_eq.1 (show compare a b = .eq from same))

instance : Std.TransOrd HostId where
  eq_swap := by
    rintro (a | a) (b | b)
    · exact (Std.OrientedCmp.eq_swap : compare a b = _)
    · rfl
    · rfl
    · exact (Std.OrientedCmp.eq_swap : compare a b = _)
  isLE_trans := by
    rintro (a | a) (b | b) (c | c) first second
    · exact (Std.TransOrd.isLE_trans : (compare a b).isLE → (compare b c).isLE → _) first second
    · rfl
    · cases second
    · rfl
    · cases first
    · cases first
    · cases second
    · exact (Std.TransOrd.isLE_trans : (compare a b).isLE → (compare b c).isLE → _) first second

instance : Std.LawfulEqOrd Identifier where
  compare_self := by
    rintro (a | a)
    · exact (Std.ReflCmp.compare_self : compare a a = .eq)
    · exact (Std.ReflCmp.compare_self : compare a.toInt a.toInt = .eq)
  eq_of_compare := by
    rintro (a | a) (b | b) same
    · exact congrArg _ (Std.compare_eq_iff_eq.1 (show compare a b = .eq from same))
    · cases same
    · cases same
    · have number := Std.compare_eq_iff_eq.1 (show compare a.toInt b.toInt = .eq from same)
      exact congrArg _ (Int32.toInt_inj.1 number)

instance : Std.TransOrd Identifier where
  eq_swap := by
    rintro (a | a) (b | b)
    · exact (Std.OrientedCmp.eq_swap : compare a b = _)
    · rfl
    · rfl
    · exact (Std.OrientedCmp.eq_swap : compare a.toInt b.toInt = _)
  isLE_trans := by
    rintro (a | a) (b | b) (c | c) first second
    · exact (Std.TransOrd.isLE_trans : (compare a b).isLE → (compare b c).isLE → _) first second
    · rfl
    · cases second
    · rfl
    · cases first
    · cases first
    · cases second
    · exact (Std.TransOrd.isLE_trans : (compare a.toInt b.toInt).isLE →
        (compare b.toInt c.toInt).isLE → _) first second

/-! Lists that are related element by element. -/

theorem exists_of_mem_right {α β : Type} {R : α → β → Prop} {as : List α} {bs : List β}
    (related : List.Forall₂ R as bs) {b : β} (inside : b ∈ bs) : ∃ a ∈ as, R a b := by
  induction related with
  | nil => cases inside
  | cons first _ ih =>
    rcases List.mem_cons.1 inside with rfl | there
    · exact ⟨_, List.mem_cons_self, first⟩
    · obtain ⟨a, here, holds⟩ := ih there
      exact ⟨a, List.mem_cons_of_mem _ here, holds⟩

theorem forall₂_and {α β : Type} {R S : α → β → Prop} {as : List α} {bs : List β}
    (first : List.Forall₂ R as bs) (second : List.Forall₂ S as bs) :
    List.Forall₂ (fun a b => R a b ∧ S a b) as bs := by
  induction first with
  | nil => exact .nil
  | cons here _ ih =>
    cases second with
    | cons here' rest => exact .cons ⟨here, here'⟩ (ih rest)

theorem exists_of_mem_left {α β : Type} {R : α → β → Prop} {as : List α} {bs : List β}
    (related : List.Forall₂ R as bs) {a : α} (inside : a ∈ as) : ∃ b ∈ bs, R a b :=
  exists_of_mem_right related.flip inside

namespace Table

variable {κ ν ξ : Type} [Ord κ]

/-- Entries in strictly increasing key order. -/
def Ascending (entries : List (κ × ν)) : Prop :=
  entries.Pairwise fun a b => compare a.1 b.1 = .lt

def Sorted (t : Table κ ν) : Prop := Ascending t.entries

theorem different_of_ascending [Std.ReflOrd κ] {entries : List (κ × ν)} (sorted : Ascending entries) :
    entries.Pairwise fun d e => d.1 ≠ e.1 :=
  sorted.imp fun {d e} before same => by
    rw [same, Std.compare_self] at before
    cases before

theorem nodup_keys [Std.ReflOrd κ] {t : Table κ ν} (sorted : t.Sorted) : t.keys.Nodup :=
  List.pairwise_map.2 (different_of_ascending sorted)

theorem sorted_empty : (empty : Table κ ν).Sorted := List.Pairwise.nil

/-! ## What a table answers -/

section Answers

variable [DecidableEq κ] [Std.LawfulEqOrd κ]

@[simp] theorem find?_insert_self (t : Table κ ν) (k : κ) (v : ν) :
    (t.insert k v).find? k = some v := by simp [find?_insert]

theorem find?_insert_of_ne (t : Table κ ν) {k k' : κ} (v : ν) (other : k' ≠ k) :
    (t.insert k v).find? k' = t.find? k' := by simp [find?_insert, other]

theorem find?_update (t : Table κ ν) (k k' : κ) (f : ν → ν) :
    (t.update k f).find? k' = if k' = k then (t.find? k').map f else t.find? k' := by
  simp only [find?, update, Std.compare_eq_iff_eq]
  induction t.entries with
  | nil => simp [lookup]
  | cons e rest ih =>
    simp only [List.map_cons, lookup, ih]
    by_cases there : k' = e.1
    · subst there
      by_cases here : k = e.1
      · simp [here]
      · simp [here, Ne.symm here]
    · by_cases here : k = e.1
      · subst here
        simp [there]
      · simp [here, there]

theorem find?_erase (t : Table κ ν) (k k' : κ) :
    (t.erase k).find? k' = if k' = k then none else t.find? k' := by
  simp only [find?, erase]
  induction t.entries with
  | nil => simp [lookup]
  | cons e rest ih =>
    simp only [List.filter_cons, bne_iff_ne, ne_eq, Std.compare_eq_iff_eq]
    by_cases here : k = e.1
    · subst here
      simp only [not_true, if_false, ih, lookup, Std.compare_eq_iff_eq]
      split <;> rfl
    · simp only [here, not_false_eq_true, if_true, lookup, ih, Std.compare_eq_iff_eq]
      by_cases there : k' = e.1
      · simp [there, Ne.symm here]
      · simp [there]

theorem mem_of_find? {t : Table κ ν} {k : κ} {v : ν} (found : t.find? k = some v) :
    (k, v) ∈ t.entries := by
  simp only [find?] at found
  induction h : t.entries generalizing t with
  | nil => simp [h, lookup] at found
  | cons e rest ih =>
    rw [h] at found
    simp only [lookup, Std.compare_eq_iff_eq] at found
    split at found
    next here => cases found; simp [here]
    next => exact List.mem_cons_of_mem _ (ih (t := ⟨rest⟩) found rfl)

theorem find?_eq_none_iff {t : Table κ ν} {k : κ} :
    t.find? k = none ↔ ∀ e ∈ t.entries, e.1 ≠ k := by
  simp only [find?]
  induction t.entries with
  | nil => simp [lookup]
  | cons e rest ih =>
    simp only [lookup, Std.compare_eq_iff_eq, List.forall_mem_cons]
    by_cases here : k = e.1
    · simp [here]
    · simp [here, ih, Ne.symm here]

omit [DecidableEq κ] [Std.LawfulEqOrd κ] in
theorem contains_iff {t : Table κ ν} {k : κ} : t.contains k = true ↔ ∃ v, t.find? k = some v := by
  simp [contains, Option.isSome_iff_exists]

theorem contains_iff_mem_keys {t : Table κ ν} {k : κ} : t.contains k = true ↔ k ∈ t.keys := by
  rw [contains, Option.isSome_iff_ne_none, Ne, find?_eq_none_iff, keys, List.mem_map]
  simp only [not_forall, not_not, exists_prop]

theorem erase_of_absent {t : Table κ ν} {k : κ} (absent : t.find? k = none) : t.erase k = t := by
  have other := find?_eq_none_iff.1 absent
  simp only [erase]
  congr 1
  exact List.filter_eq_self.2 fun e inside => by
    simpa using (other e inside).symm

theorem update_of_absent {t : Table κ ν} {k : κ} (f : ν → ν) (absent : t.find? k = none) :
    t.update k f = t := by
  have other := find?_eq_none_iff.1 absent
  simp only [update]
  congr 1
  exact (List.map_congr_left fun e inside => by
    simp [(other e inside).symm]).trans (List.map_id _)

end Answers

/-! ## Order -/

theorem mem_place {k : κ} {v : ν} {entries : List (κ × ν)} {e : κ × ν}
    (inside : e ∈ place k v entries) : e = (k, v) ∨ e ∈ entries := by
  induction entries with
  | nil => exact .inl (List.mem_singleton.1 inside)
  | cons d rest ih =>
    simp only [place] at inside
    split at inside
    · simpa using inside
    · rcases List.mem_cons.1 inside with here | there
      · exact .inl here
      · exact .inr (List.mem_cons_of_mem _ there)
    · rcases List.mem_cons.1 inside with here | there
      · exact .inr (here ▸ List.mem_cons_self)
      · exact (ih there).imp_right (List.mem_cons_of_mem _)

theorem ascending_place [Std.TransOrd κ] [Std.LawfulEqOrd κ] {k : κ} {v : ν}
    {entries : List (κ × ν)} (sorted : Ascending entries) : Ascending (place k v entries) := by
  induction entries with
  | nil => exact List.pairwise_singleton _ _
  | cons e rest ih =>
    obtain ⟨first, sorted⟩ := List.pairwise_cons.1 sorted
    simp only [place]
    split
    next before =>
      refine List.pairwise_cons.2 ⟨fun d inside => ?_, List.pairwise_cons.2 ⟨first, sorted⟩⟩
      rcases List.mem_cons.1 inside with rfl | inside
      · exact before
      · exact Std.TransCmp.lt_trans before (first d inside)
    next same =>
      have key : k = e.1 := Std.compare_eq_iff_eq.1 same
      exact List.pairwise_cons.2 ⟨key ▸ first, sorted⟩
    next after =>
      refine List.pairwise_cons.2 ⟨fun d inside => ?_, ih sorted⟩
      rcases mem_place inside with rfl | inside
      · exact Std.OrientedCmp.gt_iff_lt.1 after
      · exact first d inside

theorem sorted_insert [Std.TransOrd κ] [Std.LawfulEqOrd κ] {t : Table κ ν} (sorted : t.Sorted)
    (k : κ) (v : ν) : (t.insert k v).Sorted := ascending_place sorted

theorem insertNew?_eq_some {t placed : Table κ ν} {k : κ} {v : ν}
    (new : t.insertNew? k v = some placed) : placed = t.insert k v := by
  obtain ⟨entries, found, rfl⟩ := Option.map_eq_some_iff.1 new
  rw [insert, place_of_placeNew? found]

theorem ofList_cons (e : κ × ν) (rest : List (κ × ν)) :
    ofList (e :: rest) = ofList rest ∨ ofList (e :: rest) = (ofList rest).insert e.1 e.2 := by
  change ((ofList rest).insertNew? e.1 e.2).getD (ofList rest) = _ ∨ _
  cases new : (ofList rest).insertNew? e.1 e.2 with
  | none => exact .inl rfl
  | some placed =>
    right
    change ((ofList rest).insertNew? e.1 e.2).getD (ofList rest) = _
    rw [new, Option.getD_some, insertNew?_eq_some new]

theorem mem_ofList {entries : List (κ × ν)} {e : κ × ν} (inside : e ∈ (ofList entries).entries) :
    e ∈ entries := by
  induction entries with
  | nil => cases inside
  | cons d rest ih =>
    rcases ofList_cons d rest with same | inserted
    · exact List.mem_cons_of_mem _ (ih (same ▸ inside))
    · rw [inserted] at inside
      rcases mem_place inside with rfl | there
      · exact List.mem_cons_self
      · exact List.mem_cons_of_mem _ (ih there)

theorem sorted_ofList [Std.TransOrd κ] [Std.LawfulEqOrd κ] (entries : List (κ × ν)) :
    (ofList entries).Sorted := by
  induction entries with
  | nil => exact sorted_empty
  | cons e rest ih =>
    rcases ofList_cons e rest with same | inserted
    · rw [same]
      exact ih
    · rw [inserted]
      exact sorted_insert ih _ _

theorem sorted_erase {t : Table κ ν} (sorted : t.Sorted) (k : κ) : (t.erase k).Sorted :=
  List.Pairwise.filter _ sorted

theorem ascending_map {entries : List (κ × ν)} (f : κ × ν → κ × ξ) (keeps : ∀ e, (f e).1 = e.1)
    (sorted : Ascending entries) : Ascending (entries.map f) := by
  refine List.pairwise_map.2 (sorted.imp fun {a b} before => ?_)
  rw [keeps, keeps]
  exact before

theorem sorted_update {t : Table κ ν} (sorted : t.Sorted) (k : κ) (f : ν → ν) :
    (t.update k f).Sorted :=
  ascending_map _ (fun e => by split <;> rfl) sorted

/-- Every other key comes before the last one. -/
theorem last_of_lastKey? {t : Table κ ν} (sorted : t.Sorted) {k : κ} (last : t.lastKey? = some k) :
    k ∈ t.keys ∧ ∀ k' ∈ t.keys, k' = k ∨ compare k' k = .lt := by
  obtain ⟨before, all⟩ := List.getLast?_eq_some_iff.1 last
  have ascending : t.keys.Pairwise fun a b => compare a b = .lt := List.pairwise_map.2 sorted
  rw [all] at ascending ⊢
  obtain ⟨_, _, earlier⟩ := List.pairwise_append.1 ascending
  refine ⟨List.mem_append_right _ List.mem_cons_self, fun k' inside => ?_⟩
  rcases List.mem_append.1 inside with there | here
  · exact .inr (earlier k' there k List.mem_cons_self)
  · exact .inl (List.mem_singleton.1 here)

/-! ## Entries of a sorted table -/

section Entries

variable [DecidableEq κ] [Std.LawfulEqOrd κ] [Std.TransOrd κ]

omit [DecidableEq κ] [Std.TransOrd κ] in
theorem find?_of_mem {t : Table κ ν} (sorted : t.Sorted) {k : κ} {v : ν}
    (inside : (k, v) ∈ t.entries) : t.find? k = some v := by
  obtain ⟨entries⟩ := t
  simp only [find?, Sorted, Ascending] at *
  induction entries with
  | nil => cases inside
  | cons e rest ih =>
    obtain ⟨first, sorted⟩ := List.pairwise_cons.1 sorted
    rcases List.mem_cons.1 inside with rfl | later
    · simp [lookup, Std.ReflCmp.compare_self]
    · have other : compare k e.1 ≠ .eq := by
        intro same
        have before := first _ later
        rw [← Std.compare_eq_iff_eq.1 same] at before
        simp at before
      simp [lookup, other, ih sorted later]

omit [DecidableEq κ] [Std.TransOrd κ] in
theorem mem_iff_find? [DecidableEq κ] {t : Table κ ν} (sorted : t.Sorted) {k : κ} {v : ν} :
    (k, v) ∈ t.entries ↔ t.find? k = some v := ⟨find?_of_mem sorted, mem_of_find?⟩

/-- Two sorted tables that answer alike are the same table. -/
theorem ext_find? {s t : Table κ ν} (sortedS : s.Sorted) (sortedT : t.Sorted)
    (same : ∀ k, s.find? k = t.find? k) : s = t := by
  have perm : s.entries.Perm t.entries := by
    refine (List.perm_ext_iff_of_nodup ?_ ?_).2 fun e => ?_
    · exact sortedS.imp fun {a b} before eq => by simp [eq, Std.ReflCmp.compare_self] at before
    · exact sortedT.imp fun {a b} before eq => by simp [eq, Std.ReflCmp.compare_self] at before
    · rw [mem_iff_find? sortedS, mem_iff_find? sortedT, same]
  have entries : s.entries = t.entries := by
    refine List.Perm.eq_of_pairwise ?_ sortedS sortedT perm
    intro a b _ _ before after
    rw [Std.OrientedOrd.eq_swap, before] at after
    cases after
  cases s; cases t; exact congrArg _ entries

omit [DecidableEq κ] [Std.TransOrd κ] in
/-- An entry and the others. -/
theorem perm_erase {t : Table κ ν} (sorted : t.Sorted) {k : κ} {v : ν}
    (found : t.find? k = some v) : t.entries.Perm ((k, v) :: (t.erase k).entries) := by
  obtain ⟨entries⟩ := t
  simp only [find?, Sorted, Ascending, erase] at *
  induction entries with
  | nil => simp [lookup] at found
  | cons e rest ih =>
    obtain ⟨first, sorted⟩ := List.pairwise_cons.1 sorted
    simp only [lookup, List.filter_cons] at found ⊢
    by_cases here : compare k e.1 = .eq
    · obtain rfl : k = e.1 := Std.compare_eq_iff_eq.1 here
      have others : rest.filter (fun d => compare e.1 d.1 != .eq) = rest := by
        apply List.filter_eq_self.2
        intro d inside
        rw [first d inside]
        rfl
      simp only [here, if_true, Option.some.injEq] at found
      subst found
      rw [others, here]
      exact List.Perm.refl _
    · simp only [here, if_false] at found
      simp only [bne_iff_ne.2 here, if_true]
      exact ((ih sorted found).cons e).trans (List.Perm.swap _ _ _)

theorem perm_insert {t : Table κ ν} (sorted : t.Sorted) (k : κ) (v : ν) :
    (t.insert k v).entries.Perm ((k, v) :: (t.erase k).entries) := by
  have others : (t.insert k v).erase k = t.erase k := by
    apply ext_find? (sorted_erase (sorted_insert sorted k v) k) (sorted_erase sorted k)
    intro k'
    simp only [find?_erase, find?_insert]
    split <;> rfl
  exact others ▸ perm_erase (sorted_insert sorted k v) (find?_insert_self t k v)

theorem perm_update {t : Table κ ν} (sorted : t.Sorted) {k : κ} {v : ν} (f : ν → ν)
    (found : t.find? k = some v) : (t.update k f).entries.Perm ((k, f v) :: (t.erase k).entries) := by
  have others : (t.update k f).erase k = t.erase k := by
    apply ext_find? (sorted_erase (sorted_update sorted k f) k) (sorted_erase sorted k)
    intro k'
    simp only [find?_erase, find?_update]
    split <;> rfl
  apply others ▸ perm_erase (sorted_update sorted k f)
  simp [find?_update, found]

/-- An insertion puts a value in place of another, if there was one. -/
theorem values_insert_perm {t : Table κ ν} (sorted : t.Sorted) (k : κ) (v : ν) :
    ((t.insert k v).values ++ (t.find? k).toList).Perm (v :: t.values) := by
  have inserted := (perm_insert sorted k v).map (·.2)
  cases found : t.find? k with
  | none =>
    rw [erase_of_absent found] at inserted
    simpa [values] using inserted
  | some old =>
    have others := ((perm_erase sorted found).map (·.2)).symm
    exact (inserted.append_right _).trans (((List.perm_append_singleton _ _).trans others).cons _)

omit [Std.TransOrd κ] in
theorem ofList_cons_of_new {entries : List (κ × ν)} {e : κ × ν}
    (new : (ofList entries).find? e.1 = none) :
    ofList (e :: entries) = (ofList entries).insert e.1 e.2 := by
  change ((ofList entries).insertNew? e.1 e.2).getD (ofList entries) = _
  cases placed : (ofList entries).insertNew? e.1 e.2 with
  | some t => exact insertNew?_eq_some placed
  | none =>
    obtain ⟨d, inside, same⟩ := exists_of_placeNew?_eq_none (Option.map_eq_none_iff.1 placed)
    exact absurd (Std.compare_eq_iff_eq.1 same).symm (find?_eq_none_iff.1 new d inside)

theorem lookup_of_placeNew? {k : κ} {v : ν} {entries placed : List (κ × ν)}
    (sorted : Ascending entries) (new : placeNew? k v entries = some placed) :
    lookup k entries = none := by
  induction entries generalizing placed with
  | nil => rfl
  | cons e rest ih =>
    obtain ⟨first, sorted⟩ := List.pairwise_cons.1 sorted
    simp only [placeNew?] at new
    split at new
    next before =>
      have absent : ∀ d ∈ e :: rest, d.1 ≠ k := by
        rintro d inside rfl
        rcases List.mem_cons.1 inside with rfl | later
        · simp [Std.compare_self] at before
        · have := Std.TransCmp.lt_trans before (first d later)
          simp [Std.compare_self] at this
      exact find?_eq_none_iff (t := ⟨e :: rest⟩).2 absent
    next => cases new
    next after =>
      obtain ⟨tail, found, _⟩ := Option.map_eq_some_iff.1 new
      rw [lookup, if_neg (by simp [after]), ih sorted found]

theorem find?_ofList_cons (e : κ × ν) (rest : List (κ × ν)) (k : κ) :
    (ofList (e :: rest)).find? k
      = ((ofList rest).find? k).or (if e.1 = k then some e.2 else none) := by
  cases found : (ofList rest).find? e.1 with
  | none =>
    rw [ofList_cons_of_new found, find?_insert]
    by_cases here : k = e.1
    · subst here
      simp [found]
    · simp [here, Ne.symm here]
  | some v =>
    have same : ofList (e :: rest) = ofList rest := by
      change ((ofList rest).insertNew? e.1 e.2).getD (ofList rest) = _
      cases placed : (ofList rest).insertNew? e.1 e.2 with
      | none => rfl
      | some t =>
        obtain ⟨_, new, _⟩ := Option.map_eq_some_iff.1 placed
        cases (lookup_of_placeNew? (sorted_ofList rest) new).symm.trans found
    rw [same]
    by_cases here : e.1 = k
    · subst here
      simp [found]
    · simp [here]

/-- The last entry of a key counts. -/
theorem find?_ofList (entries : List (κ × ν)) (k : κ) :
    (ofList entries).find? k
      = entries.foldl (fun was e => if e.1 = k then some e.2 else was) none := by
  have from_ (was : Option ν) (entries : List (κ × ν)) :
      entries.foldl (fun was e => if e.1 = k then some e.2 else was) was
        = ((ofList entries).find? k).or was := by
    induction entries generalizing was with
    | nil => rfl
    | cons e rest ih =>
      rw [List.foldl_cons, ih, find?_ofList_cons, Option.or_assoc]
      split <;> simp
  rw [from_, Option.or_none]

/-- A table holds the entries that it is made of if their keys are different. -/
theorem entries_ofList_perm {entries : List (κ × ν)}
    (different : entries.Pairwise fun d e => d.1 ≠ e.1) : (ofList entries).entries.Perm entries := by
  induction entries with
  | nil => exact .nil
  | cons e rest ih =>
    obtain ⟨first, different⟩ := List.pairwise_cons.1 different
    have new : (ofList rest).find? e.1 = none :=
      find?_eq_none_iff.2 fun d inside => (first d (mem_ofList inside)).symm
    have placed := perm_insert (sorted_ofList rest) e.1 e.2
    rw [erase_of_absent new] at placed
    rw [ofList_cons_of_new new]
    exact placed.trans ((ih different).cons e)

/-- A sorted table is made of its entries, in whatever order. -/
theorem ofList_of_perm {t : Table κ ν} (sorted : t.Sorted) {entries : List (κ × ν)}
    (perm : entries.Perm t.entries) : ofList entries = t := by
  have different : entries.Pairwise fun d e => d.1 ≠ e.1 := by
    exact (perm.pairwise_iff fun other => other.symm).2 (different_of_ascending sorted)
  apply ext_find? (sorted_ofList entries) sorted
  intro k
  have same := (entries_ofList_perm different).trans perm
  ext v
  rw [← mem_iff_find? (sorted_ofList entries), ← mem_iff_find? sorted]
  exact same.mem_iff

theorem ofList_of_ascending {entries : List (κ × ν)} (sorted : Ascending entries) :
    ofList entries = ⟨entries⟩ := ofList_of_perm (t := ⟨entries⟩) sorted (.refl _)

end Entries

end Table

end ScriptBoundary
