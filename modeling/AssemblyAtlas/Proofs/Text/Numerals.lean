import AssemblyAtlas.Proofs.Text.Case
import AssemblyAtlas.Proofs.Text.Digits

/-!
# Which numerals are read

Exactly the runs of digits below the limit are read, and the same behind a plus sign.

* `HexDigit` is a hexadecimal digit with its value, `digitValue?_sixteen_iff` and
  `digitValue?_ten_iff` are about one digit;
* `digitsValue?_ten_iff` is about a run of decimal digits;
* `readNumeral?_eq_some_iff` is about a numeral.
-/

namespace AssemblyAtlas
namespace Text

/-! ## Digits -/

/-- What has a value is a digit or a letter, and the value is below the base. -/
theorem of_digitValue?
    {base value : Nat}
    {c : Char}
    (known : digitValue? base c = some value) :
    value < base
      ∧ (('0'.toNat ≤ c.toNat ∧ c.toNat ≤ '9'.toNat ∧ value = c.toNat - '0'.toNat)
        ∨ ('a'.toNat ≤ c.toNat ∧ c.toNat ≤ 'z'.toNat ∧ value = c.toNat - 'a'.toNat + 10)
        ∨ ('A'.toNat ≤ c.toNat ∧ c.toNat ≤ 'Z'.toNat ∧ value = c.toNat - 'A'.toNat + 10)) := by
  simp only [digitValue?, Option.ite_none_right_eq_some, Option.some.injEq] at known
  obtain ⟨small, same⟩ := known
  rw [same] at small
  refine ⟨small, ?_⟩
  split at same
  case isTrue digit =>
    obtain ⟨low, high⟩ := Char.isDigit_iff_toNat.1 digit
    exact .inl ⟨low, high, same.symm⟩
  case isFalse =>
    split at same
    case isTrue letter => exact .inr (.inl ⟨letter.1, letter.2, same.symm⟩)
    case isFalse =>
      split at same
      case isTrue letter => exact .inr (.inr ⟨letter.1, letter.2, same.symm⟩)
      case isFalse => omega

/-- The character is a hexadecimal digit of either case with this value. -/
def HexDigit (c : Char) (value : Nat) : Prop :=
  value < 16 ∧ c.toLower = Nat.digitChar value

instance (c : Char) (value : Nat) : Decidable (HexDigit c value) :=
  inferInstanceAs (Decidable (_ ∧ _))

theorem isHexDigit_iff_toNat {c : Char} :
    c.isHexDigit = true
      ↔ ('0'.toNat ≤ c.toNat ∧ c.toNat ≤ '9'.toNat)
        ∨ ('a'.toNat ≤ c.toNat ∧ c.toNat ≤ 'f'.toNat)
        ∨ ('A'.toNat ≤ c.toNat ∧ c.toNat ≤ 'F'.toNat) := by
  simp only [Char.isHexDigit, Bool.or_eq_true, Bool.and_eq_true, decide_eq_true_eq,
    Char.isDigit_iff_toNat, ge_iff_le, UInt32.le_iff_toNat_le, or_assoc]
  rfl

/-- Exactly the hexadecimal digits have a value. -/
theorem exists_hexDigit_iff {c : Char} :
    (∃ value, HexDigit c value) ↔ c.isHexDigit = true := by
  constructor
  · rintro ⟨value, small, lower⟩
    have each : ∀ n < 16, (Nat.digitChar n).isHexDigit = true := by decide
    rw [← eq_toLower Char.isHexDigit (by decide) c, lower]
    exact each value small
  · intro isDigit
    have each : ∀ code < 103, (Char.ofNat code).isHexDigit = true →
        ∃ value < 16, (Char.ofNat code).toLower = Nat.digitChar value := by
      decide +kernel
    have known : '9'.toNat = 57 ∧ 'f'.toNat = 102 ∧ 'F'.toNat = 70 := ⟨rfl, rfl, rfl⟩
    have small : c.toNat < 103 := by
      have ranges := isHexDigit_iff_toNat.1 isDigit
      omega
    have found := each c.toNat small
    rw [Char.ofNat_toNat] at found
    exact found isDigit

/-- Exactly the hexadecimal digits are read in base sixteen, as their values. -/
theorem digitValue?_sixteen_iff
    {c : Char}
    {value : Nat} :
    digitValue? 16 c = some value ↔ HexDigit c value := by
  have of_digit {n : Nat} (digit : HexDigit c n) : digitValue? 16 c = some n := by
    rw [← eq_toLower (digitValue? 16) (by decide) c, digit.2]
    exact digitValue?_digitChar (Nat.le_refl 16) digit.1
  refine ⟨fun known => ?_, of_digit⟩
  have isDigit : c.isHexDigit = true := by
    have codes : 'a'.toNat = 97 ∧ 'f'.toNat = 102 ∧ 'A'.toNat = 65 ∧ 'F'.toNat = 70 :=
      ⟨rfl, rfl, rfl, rfl⟩
    have ranges := of_digitValue? known
    exact isHexDigit_iff_toNat.2 (by omega)
  obtain ⟨n, digit⟩ := exists_hexDigit_iff.2 isDigit
  obtain rfl := Option.some.inj ((of_digit digit).symm.trans known)
  exact digit

/-- Exactly the decimal digits are read in base ten. -/
theorem digitValue?_ten_iff
    {c : Char}
    {value : Nat} :
    digitValue? 10 c = some value ↔ c.isDigit = true ∧ value = c.toNat - '0'.toNat := by
  constructor
  · intro known
    obtain ⟨small, digit | letter | letter⟩ := of_digitValue? known
    · exact ⟨Char.isDigit_iff_toNat.2 ⟨digit.1, digit.2.1⟩, digit.2.2⟩
    · omega
    · omega
  · rintro ⟨isDigit, rfl⟩
    have codes : '0'.toNat = 48 ∧ '9'.toNat = 57 := ⟨rfl, rfl⟩
    have range := Char.isDigit_iff_toNat.1 isDigit
    have small : c.toNat - '0'.toNat < 10 := by omega
    rw [digitValue?, if_pos isDigit]
    exact if_pos small

/-- No base has a plus sign among its digits. -/
theorem digitValue?_plus (base : Nat) :
    digitValue? base '+' = none := by
  rw [Option.eq_none_iff_forall_ne_some]
  intro value known
  have codes : '+'.toNat = 43 ∧ '0'.toNat = 48 ∧ 'a'.toNat = 97 ∧ 'A'.toNat = 65 :=
    ⟨rfl, rfl, rfl, rfl⟩
  have ranges := of_digitValue? known
  omega

/-! ## Runs of digits -/

theorem digitsValue?_cons_eq_some_iff
    {base start value : Nat}
    {c : Char}
    {rest : List Char} :
    digitsValue? base start (c :: rest) = some value
      ↔ ∃ digit, digitValue? base c = some digit
        ∧ digitsValue? base (start * base + digit) rest = some value := by
  rw [digitsValue?]
  cases digitValue? base c <;> simp

theorem digitsValue?_singleton_eq_some_iff
    {base start value : Nat}
    {c : Char} :
    digitsValue? base start [c] = some value
      ↔ ∃ digit, digitValue? base c = some digit ∧ value = start * base + digit := by
  rw [digitsValue?_cons_eq_some_iff]
  simp only [digitsValue?, Option.some.injEq, eq_comm]

/-- Exactly the runs of decimal digits are read in base ten, as what they continue the number to. -/
theorem digitsValue?_ten_iff
    {start value : Nat}
    {digits : List Char} :
    digitsValue? 10 start digits = some value
      ↔ (∀ c ∈ digits, c.isDigit = true) ∧ value = Nat.ofDigitChars 10 digits start := by
  induction digits generalizing start with
  | nil =>
      rw [digitsValue?, Nat.ofDigitChars_nil, Option.some.injEq, eq_comm]
      exact (and_iff_right fun _ none => absurd none List.not_mem_nil).symm
  | cons c rest ih =>
      rw [digitsValue?_cons_eq_some_iff, Nat.ofDigitChars_cons, List.forall_mem_cons, and_assoc]
      constructor
      · rintro ⟨digit, first, behind⟩
        obtain ⟨isDigit, rfl⟩ := digitValue?_ten_iff.1 first
        rw [Nat.mul_comm 10]
        exact ⟨isDigit, ih.1 behind⟩
      · rintro ⟨isDigit, behind⟩
        rw [Nat.mul_comm 10] at behind
        exact ⟨_, digitValue?_ten_iff.2 ⟨isDigit, rfl⟩, ih.2 behind⟩

/-! ## Numerals -/

/-- A numeral is a run of digits, or one behind a plus sign, with a value up to the limit. -/
theorem readNumeral?_eq_some_iff
    {base limit value : Nat}
    {text : List Char} :
    readNumeral? base limit text = some value
      ↔ ∃ digits, (text = digits ∨ text = '+' :: digits)
        ∧ digits ≠ []
        ∧ digitsValue? base 0 digits = some value
        ∧ value ≤ limit := by
  have run (digits : List Char) :
      (if digits.isEmpty then none else (digitsValue? base 0 digits).filter (· ≤ limit))
          = some value
        ↔ digits ≠ [] ∧ digitsValue? base 0 digits = some value ∧ value ≤ limit := by
    cases digits with
    | nil => simp
    | cons c rest => simp [Option.filter_eq_some_iff]
  by_cases signed : ∃ rest, text = '+' :: rest
  · obtain ⟨rest, rfl⟩ := signed
    rw [readNumeral?]
    refine (run rest).trans ⟨fun known => ⟨rest, .inr rfl, known⟩, ?_⟩
    rintro ⟨digits, rfl | same, some_digit, known, bounded⟩
    · rw [digitsValue?, digitValue?_plus] at known
      cases known
    · obtain rfl := (List.cons.inj same).2
      exact ⟨some_digit, known, bounded⟩
  · rw [readNumeral?]
    · refine (run text).trans ⟨fun known => ⟨text, .inl rfl, known⟩, ?_⟩
      rintro ⟨digits, rfl | same, known⟩
      · exact known
      · exact absurd ⟨digits, same⟩ signed
    · exact fun rest same => signed ⟨rest, same⟩

end Text
end AssemblyAtlas
