import AssemblyAtlas.Proofs.Text.Trimmed
import AssemblyAtlas.Text.Numeral
import Mathlib.Tactic.IntervalCases
import Mathlib.Tactic.Ring

/-!
# Numerals that are written and read

Every numeral that is written is read again as the same number.

* `Digit` is what all characters of a numeral are;
* `readNumeral?_decimal` and `readNumeral?_hexByte` are the round trips.
-/

namespace AssemblyAtlas
namespace Text

/-- The character is a small hexadecimal digit. -/
def Digit (c : Char) : Prop :=
  ∃ n < 16, c = Nat.digitChar n

/-- What holds of the sixteen digits holds of every digit. -/
theorem Digit.of_forall
    {motive : Char → Prop}
    (each : ∀ n < 16, motive (Nat.digitChar n))
    {c : Char}
    (digit : Digit c) :
    motive c := by
  obtain ⟨n, small, rfl⟩ := digit
  exact each n small

/-- A digit is no white space. -/
theorem Digit.bare
    {c : Char}
    (digit : Digit c) :
    isBlank c = false :=
  digit.of_forall (motive := fun c => isBlank c = false) (by decide)

/-- A digit is an ASCII character. -/
theorem Digit.ascii
    {c : Char}
    (digit : Digit c) :
    c.toNat ≤ 0x7f ∧ c.utf8Size = 1 :=
  digit.of_forall (motive := fun c => c.toNat ≤ 0x7f ∧ c.utf8Size = 1) (by decide)

/-- A digit does not cut a text, has no sign, and does not begin the word for nothing. -/
theorem Digit.ne
    {c sign : Char}
    (digit : Digit c)
    (isSign : sign ∈ [',', '.', '+', 'n']) :
    c ≠ sign := by
  obtain ⟨n, -, rfl⟩ := digit
  simp only [List.mem_cons, List.not_mem_nil, or_false] at isSign
  rcases isSign with rfl | rfl | rfl | rfl <;> simp

theorem digit_of_mem_decimal
    {n : Nat}
    {c : Char}
    (member : c ∈ decimal n) :
    Digit c := by
  induction n using Nat.strongRecOn with
  | ind n ih =>
      rw [decimal, Nat.toDigits_eq_if (by decide)] at member
      split at member
      · next small => exact ⟨n, by omega, List.mem_singleton.1 member⟩
      · rcases List.mem_append.1 member with front | last
        · exact ih (n / 10) (by omega) front
        · exact ⟨n % 10, by omega, List.mem_singleton.1 last⟩

theorem digit_of_mem_hexFixed
    {width n : Nat}
    {c : Char}
    (member : c ∈ hexFixed width n) :
    Digit c := by
  induction width with
  | zero => cases member
  | succ width ih =>
      rcases List.mem_cons.1 member with rfl | behind
      · exact ⟨_, Nat.mod_lt _ (by decide), rfl⟩
      · exact ih behind

/-- A digit of the base is read as its value. -/
theorem digitValue?_digitChar
    {base n : Nat}
    (known : base ≤ 16)
    (small : n < base) :
    digitValue? base (Nat.digitChar n) = some n := by
  have value : (if (Nat.digitChar n).isDigit then
      (Nat.digitChar n).toNat - '0'.toNat
    else if 'a' ≤ Nat.digitChar n ∧ Nat.digitChar n ≤ 'z' then
      (Nat.digitChar n).toNat - 'a'.toNat + 10
    else if 'A' ≤ Nat.digitChar n ∧ Nat.digitChar n ≤ 'Z' then
      (Nat.digitChar n).toNat - 'A'.toNat + 10
    else
      base) = n := by
    have below : n < 16 := Nat.lt_of_lt_of_le small known
    clear known small
    interval_cases n <;> rfl
  rw [digitValue?]
  simp only [value, small, ↓reduceIte]

/-- Reading a run of digits goes on where reading its front stops. -/
theorem digitsValue?_append
    (base value : Nat)
    (front rest : List Char) :
    digitsValue? base value (front ++ rest)
      = (digitsValue? base value front).bind (digitsValue? base · rest) := by
  induction front generalizing value with
  | nil => rfl
  | cons c front ih =>
      rw [List.cons_append, digitsValue?, digitsValue?]
      cases digitValue? base c with
      | none => rfl
      | some digit => exact ih _

theorem digitsValue?_decimal (n : Nat) :
    digitsValue? 10 0 (decimal n) = some n := by
  induction n using Nat.strongRecOn with
  | ind n ih =>
      rw [decimal, Nat.toDigits_eq_if (by decide)]
      split
      · next small => simp [digitsValue?, digitValue?_digitChar (by decide) small]
      · next large =>
          have last : digitValue? 10 (Nat.digitChar (n % 10)) = some (n % 10) :=
            digitValue?_digitChar (by decide) (Nat.mod_lt n (by decide))
          have front : digitsValue? 10 0 (Nat.toDigits 10 (n / 10)) = some (n / 10) :=
            ih (n / 10) (by omega)
          rw [digitsValue?_append, front, Option.bind_some, digitsValue?, last]
          simp only [digitsValue?, Option.some.injEq]
          omega

/-- Digits of a fixed width are read as what they leave of the number. -/
theorem digitsValue?_hexFixed
    (width value n : Nat) :
    digitsValue? 16 value (hexFixed width n) = some (value * 16 ^ width + n % 16 ^ width) := by
  induction width generalizing value with
  | zero => simp [hexFixed, digitsValue?, Nat.mod_one]
  | succ width ih =>
      have first : digitValue? 16 (hexDigit (n / Nat.pow 16 width))
          = some (n / 16 ^ width % 16) :=
        digitValue?_digitChar (Nat.le_refl 16) (Nat.mod_lt _ (by decide))
      rw [hexFixed, digitsValue?, first]
      simp only [ih, Option.some.injEq]
      rw [pow_succ, Nat.mod_mul]
      ring

/-- A run of digits is read whole. -/
theorem readNumeral?_of_digitsValue?
    {base limit n : Nat}
    {digits : List Char}
    (some_digit : digits ≠ [])
    (digit : ∀ c ∈ digits, Digit c)
    (value : digitsValue? base 0 digits = some n)
    (bounded : n ≤ limit) :
    readNumeral? base limit digits = some n := by
  obtain ⟨c, rest, rfl⟩ := List.exists_cons_of_ne_nil some_digit
  have unsigned : c ≠ '+' := (digit c List.mem_cons_self).ne (by decide)
  rw [readNumeral?]
  · simp [value, bounded]
  · intro _ same
    exact unsigned (List.cons.inj same).1

/-- A decimal numeral is read as the number that it was written for. -/
theorem readNumeral?_decimal
    {limit n : Nat}
    (bounded : n ≤ limit) :
    readNumeral? 10 limit (decimal n) = some n :=
  readNumeral?_of_digitsValue? Nat.toDigits_ne_nil (fun _ => digit_of_mem_decimal)
    (digitsValue?_decimal n) bounded

/-- The two digits of a byte are read as the byte. -/
theorem readNumeral?_hexByte (byte : UInt8) :
    readNumeral? 16 0xff (hexByte byte) = some byte.toNat := by
  have bounded : byte.toNat < 16 ^ 2 := byte.toNat_lt
  refine readNumeral?_of_digitsValue? (List.cons_ne_nil _ _)
    (fun _ => digit_of_mem_hexFixed) ?_ (by omega)
  rw [hexByte, digitsValue?_hexFixed, Nat.zero_mul, Nat.zero_add, Nat.mod_eq_of_lt bounded]

end Text
end AssemblyAtlas
