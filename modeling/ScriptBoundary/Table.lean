/-!
Finite maps as association lists in strictly increasing key order. The order is part of what a
table answers: its keys and entries come out sorted.
-/

namespace ScriptBoundary

structure Table (κ ν : Type) where
  entries : List (κ × ν)

namespace Table

variable {κ ν ξ : Type}

def empty : Table κ ν := ⟨[]⟩

instance : Inhabited (Table κ ν) := ⟨empty⟩

def size (t : Table κ ν) : Nat := t.entries.length

def isEmpty (t : Table κ ν) : Bool := t.entries.isEmpty

def keys (t : Table κ ν) : List κ := t.entries.map (·.1)

def values (t : Table κ ν) : List ν := t.entries.map (·.2)

/-- The greatest key. -/
def lastKey? (t : Table κ ν) : Option κ := t.keys.getLast?

/-- Changes every value and no key. -/
def mapValues (f : ν → ξ) (t : Table κ ν) : Table κ ξ :=
  ⟨t.entries.map fun e => (e.1, f e.2)⟩

variable [Ord κ]

def lookup (k : κ) : List (κ × ν) → Option ν
  | [] => none
  | e :: rest => if compare k e.1 = .eq then some e.2 else lookup k rest

def find? (t : Table κ ν) (k : κ) : Option ν := lookup k t.entries

def contains (t : Table κ ν) (k : κ) : Bool := (t.find? k).isSome

/-- Puts an entry before the first greater key, in place of an equal one. -/
def place (k : κ) (v : ν) : List (κ × ν) → List (κ × ν)
  | [] => [(k, v)]
  | e :: rest =>
    match compare k e.1 with
    | .lt => (k, v) :: e :: rest
    | .eq => (k, v) :: rest
    | .gt => e :: place k v rest

def insert (t : Table κ ν) (k : κ) (v : ν) : Table κ ν := ⟨place k v t.entries⟩

theorem lookup_place [DecidableEq κ] [Std.LawfulEqOrd κ] (k k' : κ) (v : ν) (entries : List (κ × ν)) :
    lookup k' (place k v entries) = if k' = k then some v else lookup k' entries := by
  induction entries with
  | nil => simp [place, lookup]
  | cons e rest ih =>
    simp only [place]
    split
    next => simp [lookup]
    next same =>
      have key : k = e.1 := Std.compare_eq_iff_eq.1 same
      by_cases h : k' = k <;> simp_all [lookup]
    next later =>
      have other : k ≠ e.1 := by
        rintro rfl
        simp [Std.ReflCmp.compare_self] at later
      simp only [lookup, ih, Std.compare_eq_iff_eq]
      by_cases h : k' = k <;> simp_all

/-- An insertion changes what is answered at its key alone. -/
theorem find?_insert [DecidableEq κ] [Std.LawfulEqOrd κ] (t : Table κ ν) (k k' : κ) (v : ν) :
    (t.insert k v).find? k' = if k' = k then some v else t.find? k' :=
  lookup_place k k' v t.entries

/-- Puts an entry before the first greater key, unless there is an equal one. -/
def placeNew? (k : κ) (v : ν) : List (κ × ν) → Option (List (κ × ν))
  | [] => some [(k, v)]
  | e :: rest =>
    match compare k e.1 with
    | .lt => some ((k, v) :: e :: rest)
    | .eq => none
    | .gt => (placeNew? k v rest).map (e :: ·)

theorem place_of_placeNew? {k : κ} {v : ν} {entries placed : List (κ × ν)}
    (h : placeNew? k v entries = some placed) : place k v entries = placed := by
  induction entries generalizing placed with
  | nil => exact Option.some.inj h
  | cons e rest ih =>
    simp only [placeNew?] at h
    simp only [place]
    split at h
    · exact Option.some.inj h
    · cases h
    · obtain ⟨tail, found, rfl⟩ := Option.map_eq_some_iff.1 h
      rw [ih found]

/-- Only an entry of the same key is in the way. -/
theorem exists_of_placeNew?_eq_none {k : κ} {v : ν} {entries : List (κ × ν)}
    (h : placeNew? k v entries = none) : ∃ e ∈ entries, compare k e.1 = .eq := by
  induction entries with
  | nil => cases h
  | cons e rest ih =>
    simp only [placeNew?] at h
    split at h
    · cases h
    · exact ⟨e, List.mem_cons_self, by assumption⟩
    · obtain ⟨d, inside, same⟩ := ih (Option.map_eq_none_iff.1 h)
      exact ⟨d, List.mem_cons_of_mem _ inside, same⟩

/-- Inserts an entry; `none` if there is one of the same key. -/
def insertNew? (t : Table κ ν) (k : κ) (v : ν) : Option (Table κ ν) :=
  (placeNew? k v t.entries).map Table.mk

def erase (t : Table κ ν) (k : κ) : Table κ ν :=
  ⟨t.entries.filter fun e => compare k e.1 != .eq⟩

/-- Changes the value at a key, if there is one. -/
def update (t : Table κ ν) (k : κ) (f : ν → ν) : Table κ ν :=
  ⟨t.entries.map fun e => if compare k e.1 = .eq then (e.1, f e.2) else e⟩

/-- Entries in order; a later one replaces an earlier one of the same key. -/
def ofList (entries : List (κ × ν)) : Table κ ν :=
  entries.foldr (fun e t => (t.insertNew? e.1 e.2).getD t) empty

end Table

end ScriptBoundary
