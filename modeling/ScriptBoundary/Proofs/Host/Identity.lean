import Mathlib.Data.List.Nodup
import ScriptBoundary.Proofs.Host.Names

/-!
Host identifiers and engine identifiers name the same keys. Every name is interned once, so what a
host has handed out stands for an engine identifier of its own, now and after names were added.
-/

namespace ScriptBoundary

namespace HostId

theorem ofInt32_ofNat {bits : Nat} (small : bits < 2 ^ 32) : ofInt32 (.ofNat bits) = .word bits := by
  simp only [ofInt32, word.injEq]
  exact Nat.mod_eq_of_lt small

end HostId

namespace Names

/-- No name is interned twice. -/
def Distinct (names : Names) : Prop := names.texts.Nodup

/-- An identifier that the host has handed out: that of an interned name or of a 32-bit integer. -/
def Issued (names : Names) : HostId → Prop
  | .word bits => bits < 2 ^ 32
  | .name position => position < names.texts.length

variable {names later : Names} {id : HostId}

theorem issued_ofInt32 (names : Names) (i : Int32) : names.Issued (.ofInt32 i) :=
  i.toUInt32.toNat_lt

/-- An element is addressed by one identifier. -/
theorem Issued.of_elementIndex? (issued : names.Issued id) {i : Nat} (index : id.elementIndex? = some i) :
    i < 2 ^ 31 ∧ id = .ofInt32 (.ofNat i) := by
  cases id with
  | name position => cases index
  | word bits =>
    have bound := (Int32.ofNat bits).toInt_lt
    simp only [HostId.elementIndex?, HostId.isName, HostId.toInt32, Bool.false_eq_true, if_false] at index
    obtain ⟨positive, is⟩ := Option.ite_none_right_eq_some.1 index
    cases is
    have same : Int32.ofNat (Int32.ofNat bits).toInt.toNat = .ofNat bits := by
      apply Int32.toInt_inj.1
      rw [HostId.toInt_ofNat (by omega)]
      omega
    exact ⟨by omega, by rw [same, HostId.ofInt32_ofNat issued]⟩

theorem Issued.denotes (issued : names.Issued id) : names.Denotes id (names.identifier id) := by
  cases id with
  | word bits => exact (HostId.ofInt32_ofNat issued).symm
  | name position =>
    have known : names.texts[position]? = some names.texts[position] := List.getElem?_eq_getElem issued
    simp [identifier, Denotes, HostId.isName, text?, textAt?, known]

theorem Extends.issued (more : later.Extends names) (issued : names.Issued id) : later.Issued id := by
  cases id with
  | word bits => exact issued
  | name position => exact Nat.lt_of_lt_of_le issued more.length_le

theorem issued_of_text? {text : String} (known : names.text? id = some text) : names.Issued id := by
  cases id with
  | word bits => cases known
  | name position => exact (List.getElem?_eq_some_iff.1 known).1

theorem issued_intern (names : Names) (text : String) :
    (names.intern text).2.Issued (names.intern text).1 := issued_of_text? (names.text?_intern text)

/-- What is found in the index is where the name stands. -/
theorem distinct (names : Names) : names.Distinct := by
  apply List.nodup_iff_injective_getElem.2
  intro i j same
  have here := (names.inverse names.texts[i] (.name i)).2 (List.getElem?_eq_getElem i.isLt)
  have there := (names.inverse names.texts[j] (.name j)).2 (List.getElem?_eq_getElem j.isLt)
  rw [show names.texts[i] = names.texts[j] from same, there] at here
  exact Fin.ext (HostId.name.inj (Option.some.inj here)).symm

/-- An identifier that was handed out keeps its meaning. -/
theorem Extends.identifier (more : later.Extends names) (issued : names.Issued id) :
    later.identifier id = names.identifier id := (more.denotes issued.denotes).identifier

/-- The host answers with the identifier if it is asked for some name or integer now. -/
def Handed (names : Names) (id : HostId) : Prop := ∃ key, names.ofIdentifier key = (id, names)

theorem handed_ofInt32 (names : Names) (i : Int32) : names.Handed (.ofInt32 i) := ⟨.index i, rfl⟩

theorem mem_of_text? {text : String} (known : names.text? id = some text) : text ∈ names.texts := by
  cases id with
  | word bits => cases known
  | name position => exact List.mem_of_getElem? known

/-- A name that is known has the identifier under which it is known. -/
theorem intern_of_text? {text : String} (known : names.text? id = some text) :
    names.intern text = (id, names) := by
  have found := (names.inverse text id).2 known
  simp only [intern]
  split
  next id' found' =>
    rw [found] at found'
    cases found'
    rfl
  next new =>
    rw [found] at new
    cases new

/-- A name is interned once. -/
theorem intern_intern (names : Names) (text : String) :
    (names.intern text).2.intern text = ((names.intern text).1, (names.intern text).2) :=
  intern_of_text? (names.text?_intern text)

/-- An engine identifier has one host identifier. -/
theorem ofIdentifier_again (names : Names) (key : Identifier) :
    (names.ofIdentifier key).2.ofIdentifier key
      = ((names.ofIdentifier key).1, (names.ofIdentifier key).2) := by
  cases key with
  | name text => exact names.intern_intern text
  | index i => rfl

theorem handed_ofIdentifier (names : Names) (key : Identifier) :
    (names.ofIdentifier key).2.Handed (names.ofIdentifier key).1 := ⟨key, names.ofIdentifier_again key⟩

theorem Extends.intern (more : later.Extends names) {text : String}
    (interned : names.intern text = (id, names)) : later.intern text = (id, later) := by
  have known := names.text?_intern text
  rw [interned] at known
  exact intern_of_text? (more.text? known)

theorem Extends.ofIdentifier (more : later.Extends names) {key : Identifier}
    (answers : names.ofIdentifier key = (id, names)) : later.ofIdentifier key = (id, later) := by
  cases key with
  | index i => exact Prod.ext (Prod.mk.inj answers).1 rfl
  | name text => exact more.intern answers

/-- What the host hands out it goes on handing out. -/
theorem Extends.handed (more : later.Extends names) (handed : names.Handed id) : later.Handed id :=
  handed.imp fun _ => more.ofIdentifier

/-- So it does with the identifiers of interned names, none of which is there twice. -/
theorem Issued.handed (issued : names.Issued id) : names.Handed id := by
  cases id with
  | word bits => exact ⟨.index (.ofNat bits), Prod.ext (HostId.ofInt32_ofNat issued) rfl⟩
  | name position =>
    have known : names.text? (.name position) = some names.texts[position] := List.getElem?_eq_getElem issued
    exact ⟨.name names.texts[position], intern_of_text? known⟩

/-- So there is nothing that the host answers with beside what it has issued. -/
theorem issued_iff_handed : names.Issued id ↔ names.Handed id := by
  refine ⟨Issued.handed, fun ⟨key, answers⟩ => ?_⟩
  have denotes := names.denotes_ofIdentifier key
  rw [answers] at denotes
  cases key with
  | name text => exact issued_of_text? denotes
  | index i =>
    have word : id = .ofInt32 i := denotes
    exact word ▸ names.issued_ofInt32 i

theorem Handed.denotes (handed : names.Handed id) : names.Denotes id (names.identifier id) := by
  obtain ⟨key, answers⟩ := handed
  have denotes := names.denotes_ofIdentifier key
  rw [answers] at denotes
  rwa [denotes.identifier]

theorem Handed.identifier (handed : names.Handed id) (more : later.Extends names) :
    later.identifier id = names.identifier id := (more.denotes handed.denotes).identifier

/-- An engine identifier goes back to the host identifier that it came from. -/
theorem Handed.ofIdentifier (handed : names.Handed id) :
    names.ofIdentifier (names.identifier id) = (id, names) := by
  obtain ⟨key, answers⟩ := handed
  have denotes := names.denotes_ofIdentifier key
  rw [answers] at denotes
  rw [denotes.identifier, answers]

/-- Distinct host identifiers stand for distinct engine identifiers. -/
theorem Handed.identifier_inj {key key' : HostId} (handed : names.Handed key)
    (handed' : names.Handed key') : names.identifier key = names.identifier key' ↔ key = key' := by
  refine ⟨fun same => ?_, fun same => same ▸ rfl⟩
  have back := handed.ofIdentifier
  rw [same, handed'.ofIdentifier] at back
  exact (Prod.mk.inj back).1.symm

theorem Issued.identifier_inj {key key' : HostId} (issued : names.Issued key) (issued' : names.Issued key') :
    names.identifier key = names.identifier key' ↔ key = key' :=
  issued.handed.identifier_inj issued'.handed

end Names

end ScriptBoundary
