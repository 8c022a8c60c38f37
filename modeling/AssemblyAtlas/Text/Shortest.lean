import AssemblyAtlas.Text.Numeral

/-!
# Shortest decimal texts of floating-point numbers

A finite number in double precision is written with the fewest decimal digits that read back as
the same number; of the texts with so many digits the nearest to the number is taken, and of two
equally near the larger.

* `Double.ofBits` takes the bits of a number apart;
* `Double.shortest` finds the digits and the place of the decimal point;
* `Double.display` writes positional notation for sizes from one ten-thousandth up to below ten to
  the sixteenth, and scientific notation for all others.
-/

namespace AssemblyAtlas
namespace Text

/-- What the bits of a number in double precision stand for. -/
inductive Double where
  | notANumber
  | infinite (negative : Bool)
  | finite (negative : Bool) (significand : Nat) (exponent : Int) (leastOfBinade : Bool)
deriving DecidableEq

namespace Double

/-- Takes the bits apart. A finite number is its significand times a power of two; the least number
of a binade has a nearer neighbour below than above. -/
def ofBits (bits : UInt64) : Double :=
  let raw := bits.toNat
  let negative := decide (Nat.pow 2 63 ≤ raw)
  let scale : Nat := raw / Nat.pow 2 52 % Nat.pow 2 11
  let fraction := raw % Nat.pow 2 52
  if scale = Nat.pow 2 11 - 1 then
    if fraction = 0 then .infinite negative else .notANumber
  else if scale = 0 then
    .finite negative fraction (-1074) false
  else
    .finite negative (Nat.pow 2 52 + fraction) ((scale : Int) - 1075) (fraction = 0 ∧ 1 < scale)

/-- A run of digits as a number, and the place of the decimal point counted from its start. -/
structure Digits where
  digits : List Char
  point : Int
deriving DecidableEq

/-- Drops zeros from the end of a number other than zero. -/
def withoutZeros : Nat → Nat → Nat
  | 0, n => n
  | fuel + 1, n => if n % 10 = 0 then withoutZeros fuel (n / 10) else n

/-- A quotient of natural numbers. -/
structure Quotient where
  numerator : Nat
  denominator : Nat

/-- The quotient times a power of ten. -/
def Quotient.shift (quotient : Quotient) (power : Int) : Quotient :=
  ⟨quotient.numerator * Nat.pow 10 power.toNat, quotient.denominator * Nat.pow 10 (-power).toNat⟩

/-- The least power of ten above a positive quotient. -/
def Quotient.magnitude (quotient : Quotient) : Int :=
  let estimate : Int :=
    (Nat.toDigits 10 quotient.numerator).length - (Nat.toDigits 10 quotient.denominator).length
  let shifted := quotient.shift (-estimate)
  if shifted.numerator < shifted.denominator then
    estimate
  else
    estimate + 1

/-- The numbers that read back as a finite positive number lie between two bounds; the three
values are in quarters of the last binary place, and the bounds belong to the interval if the
significand is even. -/
structure Interval where
  low : Nat
  value : Nat
  high : Nat
  /-- A quarter of the last binary place. -/
  unit : Quotient
  closed : Bool

/-- The interval of a finite number. -/
def interval (significand : Nat) (exponent : Int) (leastOfBinade : Bool) : Interval where
  low := 4 * significand - (if leastOfBinade then 1 else 2)
  value := 4 * significand
  high := 4 * significand + 2
  unit := ⟨Nat.pow 2 (exponent - 2).toNat, Nat.pow 2 (2 - exponent).toNat⟩
  closed := significand % 2 = 0

/-- The best number of the given count of digits in an interval, as a multiple of the power of ten
for its last digit. -/
def candidate? (interval : Interval) (magnitude : Int) (count : Nat) : Option Nat :=
  let scaled := interval.unit.shift (count - magnitude)
  let value := interval.value * scaled.numerator
  let below := value / scaled.denominator
  let inside (n : Nat) : Bool :=
    let low := interval.low * scaled.numerator
    let high := interval.high * scaled.numerator
    let place := n * scaled.denominator
    if interval.closed then low ≤ place ∧ place ≤ high else low < place ∧ place < high
  match inside below, inside (below + 1) with
  | false, false => none
  | true, false => some below
  | false, true => some (below + 1)
  | true, true =>
      if value - below * scaled.denominator < (below + 1) * scaled.denominator - value then
        some below
      else
        some (below + 1)

/-- The fewest digits that read back as the number. -/
def shortest (significand : Nat) (exponent : Int) (leastOfBinade : Bool) : Digits :=
  let interval := interval significand exponent leastOfBinade
  let magnitude :=
    Quotient.magnitude ⟨interval.value * interval.unit.numerator, interval.unit.denominator⟩
  let found := (List.range 17).findSome? fun i =>
    (candidate? interval magnitude (i + 1)).map fun n => (n, i + 1)
  match found with
  | none => ⟨['0'], 1⟩
  | some (n, count) =>
      let digits := decimal n
      ⟨decimal (withoutZeros digits.length n), digits.length + magnitude - count⟩

/-- Positional notation with at least one digit on each side of the point. -/
def positional (number : Digits) : List Char :=
  let zeros (count : Int) : List Char := List.replicate count.toNat '0'
  if number.point ≤ 0 then
    '0' :: '.' :: zeros (-number.point) ++ number.digits
  else if number.digits.length ≤ number.point then
    number.digits ++ zeros (number.point - number.digits.length) ++ ['.', '0']
  else
    number.digits.take number.point.toNat ++ '.' :: number.digits.drop number.point.toNat

/-- Scientific notation with one digit before the point. -/
def scientific (number : Digits) : List Char :=
  let mantissa :=
    match number.digits with
    | [] | [_] => number.digits
    | first :: rest => first :: '.' :: rest
  let power := number.point - 1
  let sign := if power < 0 then ['-'] else []
  mantissa ++ 'e' :: sign ++ decimal power.natAbs

/-- The text of a finite number. -/
def finiteText
    (negative : Bool)
    (significand : Nat)
    (exponent : Int)
    (leastOfBinade : Bool) :
    List Char :=
  let sign := if negative then ['-'] else []
  if significand = 0 then
    sign ++ ['0', '.', '0']
  else
    let number := shortest significand exponent leastOfBinade
    if -3 ≤ number.point ∧ number.point ≤ 16 then
      sign ++ positional number
    else
      sign ++ scientific number

end Double

end Text
end AssemblyAtlas
