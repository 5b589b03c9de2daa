import Mathlib.Algebra.Group.Nat.Defs
import ScriptBoundary.Host.Names

/-!
Host identifiers and what they stand for. A name keeps its identifier once it is known, so what an
identifier denotes does not change as names are added.
-/

namespace ScriptBoundary

namespace HostId

@[simp] theorem toInt32_ofInt32 (i : Int32) : (ofInt32 i).toInt32 = i := by
  simp [ofInt32, toInt32, Int32.ofNat]

@[simp] theorem isName_ofInt32 (i : Int32) : (ofInt32 i).isName = false := rfl

theorem toInt_ofNat {i : Nat} (small : i < 2 ^ 31) : (Int32.ofNat i).toInt = i := by
  simp only [Int32.toInt_ofNat', Int.bmod, Int32.size]
  omega

theorem elementIndex?_ofNat {i : Nat} (small : i < 2 ^ 31) :
    (ofInt32 (.ofNat i)).elementIndex? = some i := by
  simp [elementIndex?, toInt_ofNat small]

theorem indices_of_small {size : Nat} (small : size < 2 ^ 31) :
    indices size = (List.range size).map fun i => ofInt32 (.ofNat i) := by
  rw [indices, toInt_ofNat small, Int.toNat_natCast]

/-- An index that is listed is one of an element. -/
theorem exists_of_mem_indices {size : Nat} {id : HostId} (inside : id ∈ indices size) :
    ∃ i < size, i < 2 ^ 31 ∧ id = ofInt32 (.ofNat i) := by
  obtain ⟨i, within, rfl⟩ := List.mem_map.1 inside
  have within := List.mem_range.1 within
  refine ⟨i, ?_, ?_, rfl⟩ <;>
    simp only [Int32.toInt_ofNat', Int.bmod, Int32.size] at within <;> omega

theorem ofNat_inj {i j : Nat} (small : i < 2 ^ 31) (small' : j < 2 ^ 31)
    (same : ofInt32 (.ofNat i) = ofInt32 (.ofNat j)) : i = j := by
  have index := congrArg elementIndex? same
  rw [elementIndex?_ofNat small, elementIndex?_ofNat small'] at index
  exact Option.some.inj index

theorem nodup_indices (size : Nat) : (indices size).Nodup := by
  refine List.pairwise_map.2 (List.nodup_range.imp_of_mem fun {i j} inside there other same => ?_)
  have bound := (Int32.ofNat size).toInt_lt
  have := List.mem_range.1 inside
  have := List.mem_range.1 there
  exact other (ofNat_inj (by omega) (by omega) same)

end HostId

namespace Names

/-- Names that were known stay known. -/
def Extends (names base : Names) : Prop := base.texts <+: names.texts

/-- The host has handed out the identifier. -/
def Knows (names : Names) (id : HostId) : Prop := id.isName → ∃ text, names.text? id = some text

/-- The host identifier of an engine identifier. -/
def Denotes (names : Names) (key : HostId) : Identifier → Prop
  | .name text => names.text? key = some text
  | .index i => key = .ofInt32 i

variable {names later base : Names} {id key : HostId}

theorem Extends.refl (names : Names) : names.Extends names := List.prefix_refl _

theorem Extends.trans (second : later.Extends names) (first : names.Extends base) :
    later.Extends base := List.IsPrefix.trans first second

/-- A name that is known is found, and any other one comes to be the last. -/
theorem intern_cases (names : Names) (text : String) :
    (∃ id, names.text? id = some text ∧ names.intern text = (id, names)) ∨
    (text ∉ names.texts ∧ (names.intern text).1 = .name names.texts.length ∧
      (names.intern text).2.texts = names.texts ++ [text]) := by
  simp only [intern]
  split
  next id found => exact .inl ⟨id, (names.inverse text id).1 found, rfl⟩
  next new =>
    refine .inr ⟨fun inside => ?_, rfl, rfl⟩
    obtain ⟨position, is⟩ := List.mem_iff_getElem?.1 inside
    have found := (names.inverse text (.name position)).2 is
    rw [new] at found
    cases found

theorem extends_intern (names : Names) (text : String) : (names.intern text).2.Extends names := by
  rcases names.intern_cases text with ⟨id, _, is⟩ | ⟨_, _, texts⟩
  · rw [is]
    exact .refl names
  · rw [Extends, texts]
    exact List.prefix_append _ _

theorem Extends.text? (more : later.Extends names) {text : String}
    (known : names.text? id = some text) : later.text? id = some text := by
  cases id with
  | word bits => cases known
  | name position =>
    obtain ⟨added, texts⟩ := more
    obtain ⟨inside, is⟩ := List.getElem?_eq_some_iff.1 known
    simp only [Names.text?, textAt?, ← texts]
    rw [List.getElem?_append_left inside]
    exact known

theorem text?_intern (names : Names) (text : String) :
    (names.intern text).2.text? (names.intern text).1 = some text := by
  rcases names.intern_cases text with ⟨id, known, is⟩ | ⟨_, id, texts⟩
  · rw [is]
    exact known
  · simp [text?, textAt?, id, texts]

theorem isName_of_text? {text : String} (known : names.text? key = some text) : key.isName := by
  cases key with
  | word bits => cases known
  | name position => rfl

@[simp] theorem isName_intern (names : Names) (text : String) : (names.intern text).1.isName :=
  isName_of_text? (names.text?_intern text)

theorem Extends.knows (more : later.Extends names) (known : names.Knows id) : later.Knows id :=
  fun name => (known name).imp fun _ => more.text?

theorem knows_intern (names : Names) (text : String) :
    (names.intern text).2.Knows (names.intern text).1 := fun _ => ⟨text, names.text?_intern text⟩

theorem extends_key (names : Names) (text : String) : (names.key text).2.Extends names := by
  simp only [key]
  split
  · exact .refl names
  · exact names.extends_intern _

theorem Extends.denotes (more : later.Extends names) {id : Identifier}
    (denotes : names.Denotes key id) : later.Denotes key id := by
  cases id with
  | name text => exact more.text? denotes
  | index i => exact denotes

theorem extends_ofIdentifier (names : Names) (id : Identifier) :
    (names.ofIdentifier id).2.Extends names := by
  cases id with
  | name text => exact names.extends_intern text
  | index i => exact .refl names

theorem denotes_ofIdentifier (names : Names) (id : Identifier) :
    (names.ofIdentifier id).2.Denotes (names.ofIdentifier id).1 id := by
  cases id with
  | name text => exact names.text?_intern text
  | index i => rfl

theorem Denotes.identifier {id : Identifier} (denotes : names.Denotes key id) :
    names.identifier key = id := by
  cases id with
  | name text =>
    have known : names.text? key = some text := denotes
    simp [Names.identifier, isName_of_text? known, known]
  | index i =>
    have word : key = .ofInt32 i := denotes
    simp [Names.identifier, word]

/-- A host identifier stands for one engine identifier. -/
theorem Denotes.unique {id id' : Identifier} (denotes : names.Denotes key id)
    (denotes' : names.Denotes key id') : id = id' := denotes.identifier.symm.trans denotes'.identifier

end Names

end ScriptBoundary
