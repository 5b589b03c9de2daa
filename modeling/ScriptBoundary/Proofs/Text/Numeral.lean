import ScriptBoundary.Text.Integer

/-!
Which texts are read as integers. Numerals are given by how they are written, and reading accepts
exactly the numerals of 32-bit integers, printed integers among them.
-/

namespace ScriptBoundary.Text

inductive Sign where
  | plus
  | minus

/-- The characters of a sign, if there is one. -/
def signText : Option Sign → List Char
  | none => []
  | some .plus => ['+']
  | some .minus => ['-']

def signed : Option Sign → Nat → Int
  | some .minus, n => -n
  | _, n => n

/-- At most one sign, and one or more digits. -/
structure Numeral where
  sign : Option Sign
  digits : List Char
  written : digits ≠ []
  decimal : ∀ c ∈ digits, c.isDigit = true

namespace Numeral

def text (n : Numeral) : List Char := signText n.sign ++ n.digits

def value (n : Numeral) : Int := signed n.sign (Nat.ofDigitChars 10 n.digits 0)

/-- The value is a 32-bit integer. -/
def Fits (n : Numeral) : Prop := -2147483648 ≤ n.value ∧ n.value ≤ 2147483647

end Numeral

/-! ## Digits -/

theorem digit?_eq_some_iff {c : Char} {d : Nat} :
    digit? c = some d ↔ c.isDigit = true ∧ c.toNat - '0'.toNat = d := by
  have isDigit : c.isDigit = (48 ≤ c.toNat && c.toNat ≤ 57) := by
    rw [Bool.eq_iff_iff, Char.isDigit_iff_toNat, Bool.and_eq_true, decide_eq_true_eq, decide_eq_true_eq]
    rfl
  rw [digit?, isDigit]
  split
  next within => exact ⟨fun is => ⟨within, Option.some.inj is⟩, fun is => congrArg some is.2⟩
  next outside => exact iff_of_false (Option.some_ne_none d).symm fun is => outside is.1

theorem readDigits_eq_some_iff {digits : List Char} {value result : Nat} :
    readDigits value digits = some result
      ↔ (∀ c ∈ digits, c.isDigit = true) ∧ Nat.ofDigitChars 10 digits value = result := by
  induction digits generalizing value with
  | nil => simp [readDigits, Nat.ofDigitChars_nil]
  | cons c rest ih =>
    rw [readDigits, Option.bind_eq_some_iff, List.forall_mem_cons, Nat.ofDigitChars_cons,
      Nat.mul_comm 10]
    constructor
    · rintro ⟨d, digit, read⟩
      obtain ⟨isDigit, rfl⟩ := digit?_eq_some_iff.1 digit
      obtain ⟨others, is⟩ := ih.1 read
      exact ⟨⟨isDigit, others⟩, is⟩
    · rintro ⟨⟨isDigit, others⟩, is⟩
      exact ⟨_, digit?_eq_some_iff.2 ⟨isDigit, rfl⟩, ih.2 ⟨others, is⟩⟩

theorem readNatural_eq_some_iff {digits : List Char} {result : Nat} :
    readNatural digits = some result ↔ digits ≠ [] ∧ (∀ c ∈ digits, c.isDigit = true) ∧
      Nat.ofDigitChars 10 digits 0 = result := by
  cases digits with
  | nil => simp [readNatural]
  | cons c rest =>
    rw [readNatural, readDigits_eq_some_iff]
    exact (and_iff_right (List.cons_ne_nil c rest)).symm

/-! ## Integers -/

/-- A sign is read off, and what is left is a natural number. -/
theorem exists_sign (text : List Char) : ∃ sign digits,
    text = signText sign ++ digits ∧ readInteger text = (readNatural digits).map (signed sign) := by
  unfold readInteger
  split
  next digits => exact ⟨some .minus, digits, rfl, by cases readNatural digits <;> rfl⟩
  next digits => exact ⟨some .plus, digits, rfl, by cases readNatural digits <;> rfl⟩
  next => exact ⟨none, text, rfl, by cases readNatural text <;> rfl⟩

theorem exists_numeral_of_readInteger {text : List Char} {i : Int} (read : readInteger text = some i) :
    ∃ n : Numeral, n.text = text ∧ n.value = i := by
  obtain ⟨sign, digits, rfl, is⟩ := exists_sign text
  rw [is] at read
  obtain ⟨m, natural, rfl⟩ := Option.map_eq_some_iff.1 read
  obtain ⟨written, decimal, rfl⟩ := readNatural_eq_some_iff.1 natural
  exact ⟨⟨sign, digits, written, decimal⟩, rfl, rfl⟩

theorem Numeral.readInteger_text (n : Numeral) : readInteger n.text = some n.value := by
  obtain ⟨sign, digits, written, decimal⟩ := n
  have natural : readNatural digits = some _ := readNatural_eq_some_iff.2 ⟨written, decimal, rfl⟩
  change readInteger (signText sign ++ digits) = some (signed sign _)
  rcases sign with _ | _ | _
  · -- A digit is no sign.
    change readInteger digits = _
    unfold readInteger
    split
    next => exact absurd (decimal '-' List.mem_cons_self) (by decide)
    next => exact absurd (decimal '+' List.mem_cons_self) (by decide)
    next => rw [natural]; rfl
  · change readInteger ('+' :: digits) = _
    rw [readInteger, natural]
    rfl
  · change readInteger ('-' :: digits) = _
    rw [readInteger, natural]
    rfl

theorem Numeral.fits_of_value {n : Numeral} {i : Int32} (is : n.value = i.toInt) : n.Fits := by
  have := i.le_toInt
  have := i.toInt_lt
  rw [Fits, is]
  omega

theorem Numeral.readInt32_text {n : Numeral} (fits : n.Fits) :
    readInt32 n.text = some (.ofInt n.value) := by
  have within : inInt32 n.value = true := by
    have := fits.1
    have := fits.2
    simp only [inInt32, Bool.and_eq_true, decide_eq_true_eq]
    omega
  rw [readInt32, n.readInteger_text]
  exact if_pos within

theorem readInt32_eq_some_iff {text : List Char} {i : Int32} :
    readInt32 text = some i ↔ ∃ n : Numeral, n.text = text ∧ n.value = i.toInt := by
  constructor
  · intro read
    unfold readInt32 at read
    split at read
    next v whole =>
      obtain ⟨n, is, rfl⟩ := exists_numeral_of_readInteger whole
      split at read
      next within =>
        simp only [inInt32, Bool.and_eq_true, decide_eq_true_eq] at within
        cases read
        exact ⟨n, is, (Int32.toInt_ofInt_of_le (by omega) (by omega)).symm⟩
      next => cases read
    next => cases read
  · rintro ⟨n, rfl, is⟩
    rw [n.readInt32_text (Numeral.fits_of_value is), is, Int32.ofInt_toInt]

theorem readInt32_eq_none_iff {text : List Char} :
    readInt32 text = none ↔ ∀ n : Numeral, n.text = text → ¬ n.Fits := by
  constructor
  · rintro none_ n rfl fits
    cases none_.symm.trans (n.readInt32_text fits)
  · intro misfits
    cases read : readInt32 text with
    | none => rfl
    | some i =>
      obtain ⟨n, is, value⟩ := readInt32_eq_some_iff.1 read
      exact absurd (Numeral.fits_of_value value) (misfits n is)

/-! ## Printing -/

theorem integerText_ne_nil (i : Int) : integerText i ≠ [] := by
  cases i with
  | ofNat n => exact Nat.toDigits_ne_nil
  | negSucc n => exact List.cons_ne_nil _ _

/-- An integer is printed as a numeral of it. -/
theorem exists_numeral_of_integer (i : Int) : ∃ n : Numeral, n.text = integerText i ∧ n.value = i := by
  have printed (sign : Option Sign) (m : Nat) :
      ∃ n : Numeral, n.text = signText sign ++ naturalText m ∧ n.value = signed sign m := by
    refine ⟨⟨sign, naturalText m, Nat.toDigits_ne_nil, fun c inside => ?_⟩, rfl, ?_⟩
    · exact Nat.isDigit_of_mem_toDigits (by decide) (by decide) inside
    · exact congrArg (signed sign) Nat.ofDigitChars_ten_toDigits
  cases i with
  | ofNat m => exact printed none m
  | negSucc m => exact printed (some .minus) (m + 1)

theorem readInt32_integerText (i : Int32) : readInt32 (integerText i.toInt) = some i :=
  readInt32_eq_some_iff.2 (exists_numeral_of_integer i.toInt)

end ScriptBoundary.Text
