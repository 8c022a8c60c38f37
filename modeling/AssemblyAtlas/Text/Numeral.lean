/-!
# Numerals

Numbers are written and read in bases up to sixteen.

* `decimal` and `hexFixed` write;
* `readNumeral?` reads a numeral below a limit; it may carry a plus sign.
-/

namespace AssemblyAtlas
namespace Text

/-- The decimal digits of a number. -/
def decimal (n : Nat) : List Char :=
  Nat.toDigits 10 n

/-- The small hexadecimal digit of a number below sixteen. -/
def hexDigit (n : Nat) : Char :=
  Nat.digitChar (n % 16)

/-- The lowest `width` hexadecimal digits of a number. -/
def hexFixed : (width : Nat) → Nat → List Char
  | 0, _ => []
  | width + 1, n => hexDigit (n / Nat.pow 16 width) :: hexFixed width n

/-- The two hexadecimal digits of a byte. -/
def hexByte (byte : UInt8) : List Char :=
  hexFixed 2 byte.toNat

/-- The value of a digit of the base; letters of either case count from ten. -/
def digitValue? (base : Nat) (c : Char) : Option Nat :=
  let value :=
    if c.isDigit then
      c.toNat - '0'.toNat
    else if 'a' ≤ c ∧ c ≤ 'z' then
      c.toNat - 'a'.toNat + 10
    else if 'A' ≤ c ∧ c ≤ 'Z' then
      c.toNat - 'A'.toNat + 10
    else
      base
  if value < base then
    some value
  else
    none

/-- The value of a run of digits that continues a number. -/
def digitsValue? (base : Nat) : Nat → List Char → Option Nat
  | value, [] => some value
  | value, c :: rest =>
      match digitValue? base c with
      | some digit => digitsValue? base (value * base + digit) rest
      | none => none

/-- Reads a non-empty run of digits, after an optional plus sign, whose value is at most the
limit. -/
def readNumeral? (base limit : Nat) (text : List Char) : Option Nat :=
  let digits :=
    match text with
    | '+' :: rest => rest
    | _ => text
  if digits.isEmpty then
    none
  else
    (digitsValue? base 0 digits).filter (· ≤ limit)

end Text
end AssemblyAtlas
