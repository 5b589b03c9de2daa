import Mathlib.Tactic.SplitIfs
import ScriptBoundary.Proofs.Table
import ScriptBoundary.Proofs.Text.Numeral

/-!
The order of identifiers, and what texts fold to. Names come first, in the order of their bytes, and then
integers in the order of their values. Bytes are in the order of characters, since a greater character has
greater bytes and those of one never begin with those of another.
-/

namespace ScriptBoundary

namespace Text

/-- The bytes of a text in UTF-8. -/
def bytes (text : String) : List UInt8 := text.toByteArray.data.toList

theorem bytes_eq (text : String) : bytes text = text.toList.flatMap String.utf8EncodeChar := by
  rw [bytes, ← String.utf8Encode_toList, List.utf8Encode, List.toList_data_toByteArray]

/-- Whatever follows them, two characters are told apart by their bytes. -/
theorem encoded_lt {c d : Char} (less : c < d) (xs ys : List UInt8) :
    String.utf8EncodeChar c ++ xs < String.utf8EncodeChar d ++ ys := by
  have less : c.val.toNat < d.val.toNat := less
  have bound : d.val.toNat < 0x110000 := by
    rcases d.valid with _ | ⟨_, _⟩ <;> omega
  have leading (n : Nat) : (n % 8 + 240) % 2 ^ 8 = n % 8 + 240 := by omega
  have cube : 262144 = 64 * 64 * 64 := rfl
  have square : 4096 = 64 * 64 := rfl
  simp only [String.utf8EncodeChar]
  -- The first byte tells how many there are; among as many, the first that differs decides.
  split_ifs <;>
    simp only [List.cons_append, List.nil_append, List.cons_lt_cons_iff, UInt8.lt_iff_toNat_lt,
      ← UInt8.toNat_inj, UInt8.toNat_ofNat', leading, square, cube, ← Nat.div_div_eq_div_mul] <;>
    omega

theorem flatMap_encoded_lt {cs ds : List Char} (less : cs < ds) :
    cs.flatMap String.utf8EncodeChar < ds.flatMap String.utf8EncodeChar := by
  induction less with
  | @nil d ds =>
    rw [List.flatMap_nil, List.flatMap_cons]
    cases encoded : String.utf8EncodeChar d with
    | nil => exact absurd encoded String.utf8EncodeChar_ne_nil
    | cons => exact List.nil_lt_cons _ _
  | rel less => exact encoded_lt less _ _
  | cons _ ih => exact List.append_left_lt ih

theorem bytes_lt_iff {a b : String} : bytes a < bytes b ↔ a < b := by
  have mono {a b : String} (less : a < b) : bytes a < bytes b := by
    rw [bytes_eq, bytes_eq]
    exact flatMap_encoded_lt less
  refine ⟨fun less => ?_, mono⟩
  cases order : compare a b with
  | lt => exact compareOfLessAndEq_eq_lt.1 order
  | eq =>
    rw [Std.compare_eq_iff_eq.1 order] at less
    exact absurd less (List.lt_irrefl _)
  | gt =>
    have reverse : compare b a = .lt := Std.OrientedCmp.gt_iff_lt.1 order
    exact absurd less (List.lt_asymm (mono (compareOfLessAndEq_eq_lt.1 reverse)))

end Text

namespace Identifier

/-- Names in the order of their bytes, then integers in the order of their values. -/
def Precedes : Identifier → Identifier → Prop
  | .name a, .name b => Text.bytes a < Text.bytes b
  | .name _, .index _ => True
  | .index _, .name _ => False
  | .index i, .index j => i.toInt < j.toInt

theorem compare_eq_lt_iff {a b : Identifier} : compare a b = .lt ↔ a.Precedes b := by
  rcases a with a | a <;> rcases b with b | b
  · rw [Precedes, Text.bytes_lt_iff]
    exact compareOfLessAndEq_eq_lt
  · exact ⟨fun _ => trivial, fun _ => rfl⟩
  · exact ⟨nofun, False.elim⟩
  · exact Int.compare_eq_lt

/-! ## Texts -/

theorem ofText_eq_index_iff {text : String} {i : Int32} :
    ofText text = .index i ↔ Text.readInt32 text.toList = some i := by
  unfold ofText
  cases Text.readInt32 text.toList <;> simp

theorem ofText_eq_name_iff {text kept : String} :
    ofText text = .name kept ↔ kept = text ∧ Text.readInt32 text.toList = none := by
  unfold ofText
  cases Text.readInt32 text.toList <;> simp [eq_comm]

/-- How identifiers are spelled in script texts: a name as it is, an integer in decimal. -/
inductive Spells : Identifier → String → Prop where
  | name (text : String) : Spells (.name text) text
  | index (i : Int32) : Spells (.index i) (toString i.toInt)

/-- An identifier that came from a text is what its printed form folds to. -/
theorem ofText_display_index (i : Int32) : ofText (display (.index i)) = .index i := by
  rw [ofText_eq_index_iff, display, String.toList_ofList]
  exact Text.readInt32_integerText i

theorem ofText_display_ofText (text : String) : ofText (ofText text).display = ofText text := by
  cases folded : ofText text with
  | index i => exact ofText_display_index i
  | name kept =>
    obtain ⟨rfl, _⟩ := ofText_eq_name_iff.1 folded
    exact folded

/-- Two texts fold to one identifier only if they are one text, or numerals of one integer. -/
theorem ofText_eq_ofText_iff {text text' : String} :
    ofText text = ofText text' ↔ text = text' ∨ ∃ n n' : Text.Numeral,
      n.text = text.toList ∧ n'.text = text'.toList ∧ n.Fits ∧ n.value = n'.value := by
  constructor
  · intro same
    cases folded : ofText text' with
    | name kept =>
      obtain ⟨rfl, _⟩ := ofText_eq_name_iff.1 folded
      exact .inl (ofText_eq_name_iff.1 (same.trans folded)).1.symm
    | index i =>
      obtain ⟨n', written', value'⟩ := Text.readInt32_eq_some_iff.1 (ofText_eq_index_iff.1 folded)
      obtain ⟨n, written, value⟩ :=
        Text.readInt32_eq_some_iff.1 (ofText_eq_index_iff.1 (same.trans folded))
      exact .inr ⟨n, n', written, written', Text.Numeral.fits_of_value value, value.trans value'.symm⟩
  · rintro (rfl | ⟨n, n', written, written', fits, same⟩)
    · rfl
    · have fits' : n'.Fits := by rwa [Text.Numeral.Fits, ← same]
      have read := written ▸ n.readInt32_text fits
      have read' := written' ▸ n'.readInt32_text fits'
      rw [ofText_eq_index_iff.2 read, ofText_eq_index_iff.2 read', same]

/-- A text folds to an integer exactly if it is a numeral of a 32-bit integer, and otherwise it is a name
and kept as it is. Folding is undone by printing, and nothing else folds to the same identifier. -/
theorem folds_canonically :
    (∀ text i, ofText text = .index i ↔
      ∃ n : Text.Numeral, n.text = text.toList ∧ n.value = i.toInt) ∧
    (∀ text kept, ofText text = .name kept ↔
      kept = text ∧ ∀ n : Text.Numeral, n.text = text.toList → ¬ n.Fits) ∧
    (∀ text, ofOwnedText text = ofText text) ∧
    (∀ i, ofText (display (.index i)) = .index i) ∧
    (∀ text, ofText (ofText text).display = ofText text) ∧
    ∀ text text', ofText text = ofText text' ↔ text = text' ∨ ∃ n n' : Text.Numeral,
      n.text = text.toList ∧ n'.text = text'.toList ∧ n.Fits ∧ n.value = n'.value := by
  refine ⟨fun text i => ?_, fun text kept => ?_, fun _ => rfl, ofText_display_index,
    ofText_display_ofText, fun _ _ => ofText_eq_ofText_iff⟩
  · rw [ofText_eq_index_iff, Text.readInt32_eq_some_iff]
  · rw [ofText_eq_name_iff, Text.readInt32_eq_none_iff]

example : ofText "-0000000002147483648" = .index (-2147483648) := by decide

end Identifier

end ScriptBoundary
