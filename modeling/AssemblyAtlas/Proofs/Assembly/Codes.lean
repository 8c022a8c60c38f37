import AssemblyAtlas.Proofs.Assembly.IdentityText
import AssemblyAtlas.Proofs.Text.Numerals

/-!
# Which versions and key tokens are read

A key token is meant to be sixteen hexadecimal digits, and a version one to four decimal numbers
with dots between them. These texts are read as meant. Numerals may carry a plus sign, though, so a
sign is read in the place of the first digit of a byte and in front of the parts of a version.

* `KeyToken.Spells` and `Version.Dotted` are the texts that are read;
* `KeyToken.Documented` and `Version.Documented` are what is meant;
* `codes_documented_iff` says that only accepted signs come between the two.
-/

namespace AssemblyAtlas
namespace Assembly

open Text

/-! ## Key tokens -/

namespace KeyToken

/-- The spelling of bytes: two digits, or one digit behind a plus sign. -/
inductive Spells : List Char → List UInt8 → Prop
  | nil : Spells [] []
  | digits {first second : Char} {high low : Nat} {text : List Char} {bytes : List UInt8} :
      HexDigit first high →
      HexDigit second low →
      Spells text bytes →
      Spells (first :: second :: text) (UInt8.ofNat (16 * high + low) :: bytes)
  | signed {digit : Char} {low : Nat} {text : List Char} {bytes : List UInt8} :
      HexDigit digit low →
      Spells text bytes →
      Spells ('+' :: digit :: text) (UInt8.ofNat low :: bytes)

/-- Two characters are read as two digits, or as one digit with a sign. -/
theorem readNumeral?_pair_iff
    {first second : Char}
    {value : Nat} :
    readNumeral? 16 0xff [first, second] = some value
      ↔ (∃ high low, HexDigit first high ∧ HexDigit second low ∧ value = 16 * high + low)
        ∨ first = '+' ∧ HexDigit second value := by
  have two {a b : Char} :
      digitsValue? 16 0 [a, b] = some value
        ↔ ∃ high low, HexDigit a high ∧ HexDigit b low ∧ value = 16 * high + low := by
    rw [digitsValue?_cons_eq_some_iff]
    simp only [digitsValue?_singleton_eq_some_iff, digitValue?_sixteen_iff]
    constructor
    · rintro ⟨high, isHigh, low, isLow, rfl⟩
      exact ⟨high, low, isHigh, isLow, by omega⟩
    · rintro ⟨high, low, isHigh, isLow, rfl⟩
      exact ⟨high, isHigh, low, isLow, by omega⟩
  have one {b : Char} : digitsValue? 16 0 [b] = some value ↔ HexDigit b value := by
    simp [digitsValue?_singleton_eq_some_iff, digitValue?_sixteen_iff]
  rw [readNumeral?_eq_some_iff]
  constructor
  · rintro ⟨digits, rfl | same, -, known, -⟩
    · exact .inl (two.1 known)
    · obtain ⟨rfl, rfl⟩ := List.cons.inj same
      exact .inr ⟨rfl, one.1 known⟩
  · rintro (⟨high, low, isHigh, isLow, rfl⟩ | ⟨rfl, isLow⟩)
    · have bounded : high < 16 ∧ low < 16 := ⟨isHigh.1, isLow.1⟩
      exact ⟨_, .inl rfl, List.cons_ne_nil _ _, two.2 ⟨high, low, isHigh, isLow, rfl⟩, by omega⟩
    · have bounded : value < 16 := isLow.1
      exact ⟨_, .inr rfl, List.cons_ne_nil _ _, one.2 isLow, by omega⟩

theorem readBytes?_eq_some_iff
    {text : List Char}
    {bytes : List UInt8} :
    readBytes? text = some bytes ↔ Spells text bytes := by
  constructor
  · intro read
    induction text using readBytes?.induct generalizing bytes with
    | case1 =>
        obtain rfl := Option.some.inj read
        exact .nil
    | case2 => cases read
    | case3 first second rest byte others areOthers isByte ih =>
        rw [readBytes?, isByte, areOthers] at read
        obtain rfl := Option.some.inj read
        rcases readNumeral?_pair_iff.1 isByte with ⟨high, low, isHigh, isLow, rfl⟩ | ⟨rfl, isLow⟩
        · exact .digits isHigh isLow (ih areOthers)
        · exact .signed isLow (ih areOthers)
    | case4 first second rest stuck ih =>
        rw [readBytes?] at read
        split at read
        · next byte others isByte areOthers => exact absurd areOthers (stuck byte others isByte)
        · cases read
  · intro spells
    induction spells with
    | nil => rfl
    | digits isHigh isLow _ ih =>
        rw [readBytes?, readNumeral?_pair_iff.2 (.inl ⟨_, _, isHigh, isLow, rfl⟩), ih]
    | signed isLow _ ih =>
        rw [readBytes?, readNumeral?_pair_iff.2 (.inr ⟨rfl, isLow⟩), ih]

variable {text : List Char} {bytes : List UInt8}

theorem Spells.length_eq
    (spells : Spells text bytes) :
    text.length = 2 * bytes.length := by
  induction spells with
  | nil => rfl
  | digits _ _ _ ih =>
      rw [List.length_cons, List.length_cons, List.length_cons]
      omega
  | signed _ _ ih =>
      rw [List.length_cons, List.length_cons, List.length_cons]
      omega

/-- Bytes are spelled in digits and signs. -/
theorem Spells.of_mem
    (spells : Spells text bytes)
    {c : Char}
    (member : c ∈ text) :
    c.isHexDigit = true ∨ c = '+' := by
  induction spells with
  | nil => cases member
  | digits isHigh isLow _ ih =>
      rcases List.mem_cons.1 member with rfl | member
      · exact .inl (exists_hexDigit_iff.1 ⟨_, isHigh⟩)
      rcases List.mem_cons.1 member with rfl | member
      · exact .inl (exists_hexDigit_iff.1 ⟨_, isLow⟩)
      · exact ih member
  | signed isLow _ ih =>
      rcases List.mem_cons.1 member with rfl | member
      · exact .inr rfl
      rcases List.mem_cons.1 member with rfl | member
      · exact .inl (exists_hexDigit_iff.1 ⟨_, isLow⟩)
      · exact ih member

/-- Exactly the texts that spell the bytes of a key token are read, white space around them left
aside. -/
theorem parse_eq_ok_iff
    {text : String}
    {token : KeyToken} :
    parse text = .ok token ↔ Spells (trim text.toList) token.bytes.toList := by
  rw [parse]
  constructor
  · intro read
    split at read
    · cases read
    · split at read
      · next bytes known =>
          split at read
          · obtain rfl := Except.ok.inj read
            exact readBytes?_eq_some_iff.1 known
          · cases read
      · cases read
  · intro spells
    have plain {c : Char} (member : c ∈ trim text.toList) : c.toNat ≤ 0x7f ∧ c.utf8Size = 1 := by
      have codes : '9'.toNat = 57 ∧ 'f'.toNat = 102 ∧ 'F'.toNat = 70 := ⟨rfl, rfl, rfl⟩
      have small : c.toNat ≤ 0x7f := by
        rcases spells.of_mem member with digit | rfl
        · have ranges := isHexDigit_iff_toNat.1 digit
          omega
        · decide
      exact ⟨small, Char.utf8Size_eq_one_iff.2 (UInt32.le_iff_toNat_le.2 small)⟩
    have length : utf8Length (trim text.toList) = 16 := by
      rw [utf8Length_eq_length fun c isIn => (plain isIn).2, spells.length_eq,
        Vector.length_toList]
    have ascii : (trim text.toList).any (0x7f < ·.toNat) = false := by
      rw [List.any_eq_false]
      intro c isIn
      simpa using (plain isIn).1
    simp only [length, ascii, readBytes?_eq_some_iff.2 spells, ne_eq, not_true_eq_false,
      Bool.false_eq_true, or_self, ↓reduceIte, List.size_toArray, Vector.length_toList, ↓reduceDIte]
    rfl

/-- Hexadecimal digits spell bytes, two digits each. -/
theorem exists_spells
    (count : Nat)
    (length : text.length = 2 * count)
    (digits : ∀ c ∈ text, c.isHexDigit = true) :
    ∃ bytes, bytes.length = count ∧ Spells text bytes := by
  induction count generalizing text with
  | zero =>
      obtain rfl := List.length_eq_zero_iff.1 length
      exact ⟨[], rfl, .nil⟩
  | succ count ih =>
      match text with
      | first :: second :: rest =>
          obtain ⟨isFirst, digits⟩ := List.forall_mem_cons.1 digits
          obtain ⟨isSecond, digits⟩ := List.forall_mem_cons.1 digits
          obtain ⟨high, isHigh⟩ := exists_hexDigit_iff.2 isFirst
          obtain ⟨low, isLow⟩ := exists_hexDigit_iff.2 isSecond
          rw [List.length_cons, List.length_cons] at length
          obtain ⟨bytes, count, spells⟩ := ih (by omega) digits
          exact ⟨_, by rw [List.length_cons, count], .digits isHigh isLow spells⟩

/-- Without a sign each byte is the value of its two digits. -/
theorem Spells.byte_of_unsigned
    (spells : Spells text bytes)
    (unsigned : '+' ∉ text)
    {index : Nat}
    (inside : index < bytes.length) :
    ∃ first second high low, text[2 * index]? = some first
      ∧ text[2 * index + 1]? = some second
      ∧ HexDigit first high
      ∧ HexDigit second low
      ∧ bytes[index]? = some (UInt8.ofNat (16 * high + low)) := by
  induction spells generalizing index with
  | nil => cases inside
  | signed _ _ _ => exact absurd List.mem_cons_self unsigned
  | digits isHigh isLow _ ih =>
      cases index with
      | zero => exact ⟨_, _, _, _, rfl, rfl, isHigh, isLow, rfl⟩
      | succ index =>
          have rest := fun sign => unsigned (List.mem_cons_of_mem _ (List.mem_cons_of_mem _ sign))
          exact ih rest (Nat.lt_of_succ_lt_succ inside)

/-- The two digits of a byte are written small. -/
theorem hexByte_ofNat
    {high low : Nat}
    (isHigh : high < 16)
    (isLow : low < 16) :
    hexByte (UInt8.ofNat (16 * high + low)) = [Nat.digitChar high, Nat.digitChar low] := by
  have value : (UInt8.ofNat (16 * high + low)).toNat = 16 * high + low := by
    rw [UInt8.toNat_ofNat']
    omega
  have first : (16 * high + low) / Nat.pow 16 1 % 16 = high := by
    change (16 * high + low) / 16 % 16 = high
    omega
  have second : (16 * high + low) / Nat.pow 16 0 % 16 = low := by
    change (16 * high + low) / 1 % 16 = low
    omega
  rw [hexByte, value, hexFixed, hexFixed, hexFixed, hexDigit, hexDigit, first, second]

/-- Without a sign the digits are written again, in small letters. -/
theorem Spells.flatMap_hexByte
    (spells : Spells text bytes)
    (unsigned : '+' ∉ text) :
    bytes.flatMap hexByte = text.map Char.toLower := by
  induction spells with
  | nil => rfl
  | signed _ _ _ => exact absurd List.mem_cons_self unsigned
  | digits isHigh isLow _ ih =>
      have rest := fun sign => unsigned (List.mem_cons_of_mem _ (List.mem_cons_of_mem _ sign))
      rw [List.flatMap_cons, hexByte_ofNat isHigh.1 isLow.1, ih rest, List.map_cons, List.map_cons,
        isHigh.2, isLow.2]
      rfl

/-- A text is meant to be read if it is sixteen hexadecimal digits with white space around them.
Each byte is meant to be the value of its two digits, and the token to be written in the same
digits with small letters. -/
structure Documented (text : String) : Prop where
  accepted : (∃ token, parse text = .ok token)
    ↔ (trim text.toList).length = 16 ∧ ∀ c ∈ trim text.toList, c.isHexDigit = true
  bytes : ∀ token, parse text = .ok token → ∀ index < 8,
    ∃ first second high low, (trim text.toList)[2 * index]? = some first
      ∧ (trim text.toList)[2 * index + 1]? = some second
      ∧ HexDigit first high
      ∧ HexDigit second low
      ∧ token.bytes.toList[index]? = some (UInt8.ofNat (16 * high + low))
  display : ∀ token, parse text = .ok token →
    token.display = String.ofList ((trim text.toList).map Char.toLower)

/-- A text is read as it is meant, unless a sign is accepted in it. -/
theorem documented_iff
    {text : String} :
    Documented text ↔ ∀ token, parse text = .ok token → '+' ∉ trim text.toList := by
  constructor
  · intro documented token read sign
    have digit := (documented.accepted.1 ⟨token, read⟩).2 '+' sign
    exact absurd digit (by decide)
  · intro unsigned
    refine ⟨⟨?_, ?_⟩, fun token read index inside => ?_, fun token read => ?_⟩
    · rintro ⟨token, read⟩
      have spells := parse_eq_ok_iff.1 read
      refine ⟨spells.length_eq.trans (by rw [Vector.length_toList]), fun c member => ?_⟩
      refine (spells.of_mem member).resolve_right fun sign => ?_
      exact unsigned token read (sign ▸ member)
    · rintro ⟨length, digits⟩
      obtain ⟨bytes, count, spells⟩ := exists_spells 8 length digits
      exact ⟨⟨⟨bytes.toArray, count⟩⟩, parse_eq_ok_iff.2 spells⟩
    · exact (parse_eq_ok_iff.1 read).byte_of_unsigned (unsigned token read)
        (by rwa [Vector.length_toList])
    · rw [display, (parse_eq_ok_iff.1 read).flatMap_hexByte (unsigned token read)]

end KeyToken

/-! ## Versions -/

namespace Version

/-- A part of a version as it is meant: a number of decimal digits that is at most 65535. -/
structure Number (part : List Char) : Prop where
  some_digit : part ≠ []
  decimal : ∀ c ∈ part, c.isDigit = true
  bounded : Nat.ofDigitChars 10 part 0 ≤ 0xffff

/-- The text consists of some parts, one to four, with dots between them. -/
structure Dotted (text : List Char) (parts : List (List Char)) : Prop where
  joined : text = join ['.'] parts
  some_part : parts ≠ []
  few : parts.length ≤ 4

/-- The version holds some numbers, and zeros for those that are missing. -/
def Holds (version : Version) (numbers : List Nat) : Prop :=
  version.parts.map (·.toNat) = numbers ++ List.replicate (4 - numbers.length) 0

/-- The part without a plus sign in front of it. -/
def unsigned : List Char → List Char
  | '+' :: digits => digits
  | part => part

theorem unsigned_of_not_mem
    {part : List Char}
    (absent : '+' ∉ part) :
    unsigned part = part := by
  rw [unsigned]
  rintro digits rfl
  exact absent List.mem_cons_self

/-- A number has no plus sign. -/
theorem Number.unsigned_eq
    {part : List Char}
    (number : Number part) :
    unsigned part = part :=
  unsigned_of_not_mem fun sign => absurd (number.decimal '+' sign) (by decide)

theorem eq_or_eq_unsigned (part : List Char) :
    part = unsigned part ∨ part = '+' :: unsigned part := by
  by_cases signed : ∃ digits, part = '+' :: digits
  · obtain ⟨digits, rfl⟩ := signed
    exact .inr rfl
  · rw [unsigned]
    · exact .inl rfl
    · exact fun digits same => signed ⟨digits, same⟩

/-- A part is read if it is a number, perhaps behind a plus sign. -/
theorem parsePart_eq_ok_iff
    {part : List Char}
    {value : UInt16} :
    parsePart part = .ok value
      ↔ Number (unsigned part) ∧ value.toNat = Nat.ofDigitChars 10 (unsigned part) 0 := by
  have read (number : Nat) :
      readNumeral? 10 0xffff part = some number
        ↔ Number (unsigned part) ∧ number = Nat.ofDigitChars 10 (unsigned part) 0 := by
    rw [readNumeral?_eq_some_iff]
    simp only [digitsValue?_ten_iff]
    constructor
    · rintro ⟨digits, same, some_digit, ⟨decimal, rfl⟩, bounded⟩
      have unsigned_eq : unsigned part = digits := by
        rcases same with rfl | rfl
        · exact unsigned_of_not_mem fun sign => absurd (decimal '+' sign) (by decide)
        · rfl
      rw [unsigned_eq]
      exact ⟨⟨some_digit, decimal, bounded⟩, rfl⟩
    · rintro ⟨isNumber, rfl⟩
      exact ⟨unsigned part, eq_or_eq_unsigned part, isNumber.some_digit,
        ⟨isNumber.decimal, rfl⟩, isNumber.bounded⟩
  rw [parsePart]
  constructor
  · intro known
    split at known
    · next number isRead =>
        obtain ⟨isNumber, rfl⟩ := (read number).1 isRead
        rw [← Except.ok.inj known, UInt16.toNat_ofNat_of_lt' (Nat.lt_succ_of_le isNumber.bounded)]
        exact ⟨isNumber, rfl⟩
    · cases known
  · rintro ⟨isNumber, same⟩
    rw [(read _).2 ⟨isNumber, rfl⟩, ← same]
    exact congrArg Except.ok UInt16.ofNat_toNat

/-- Missing parts are zeros. -/
theorem parts_padded
    {values : List UInt16}
    (few : values.length ≤ 4) :
    Holds ⟨values.getD 0 0, values.getD 1 0, values.getD 2 0, values.getD 3 0⟩
      (values.map (·.toNat)) := by
  match values with
  | [] | [_] | [_, _] | [_, _, _] | [_, _, _, _] => rfl
  | _ :: _ :: _ :: _ :: _ :: _ =>
      simp only [List.length_cons] at few
      omega

theorem eq_of_holds
    {left right : Version}
    {numbers : List Nat}
    (leftHolds : left.Holds numbers)
    (rightHolds : right.Holds numbers) :
    left = right := by
  have same : left.parts = right.parts :=
    List.map_injective_iff.2 (fun _ _ => UInt16.toNat_inj.1) (leftHolds.trans rightHolds.symm)
  rw [parts, parts] at same
  cases left
  cases right
  simpa using same

/-- A dotted text of numbers is read as a version that holds them. -/
theorem exists_parse
    {text : String}
    {parts : List (List Char)}
    (dotted : Dotted (trim text.toList) parts)
    (numbers : ∀ part ∈ parts, Number (unsigned part)) :
    ∃ version, parse text = .ok version
      ∧ version.Holds (parts.map fun part => Nat.ofDigitChars 10 (unsigned part) 0) := by
  have undotted (part : List Char) (isPart : part ∈ parts) : '.' ∉ part := by
    intro dot
    have decimal := (numbers part isPart).decimal
    rcases eq_or_eq_unsigned part with same | same
    · exact absurd (decimal '.' (same ▸ dot)) (by decide)
    · rw [same] at dot
      exact absurd (decimal '.' (List.mem_of_ne_of_mem (by decide) dot)) (by decide)
  have cut : pieces '.' (trim text.toList) = parts := by
    rw [dotted.joined]
    exact pieces_join dotted.some_part undotted
  have value (part : List Char) (isPart : part ∈ parts) :
      (UInt16.ofNat (Nat.ofDigitChars 10 (unsigned part) 0)).toNat
        = Nat.ofDigitChars 10 (unsigned part) 0 :=
    UInt16.toNat_ofNat_of_lt' (Nat.lt_succ_of_le (numbers part isPart).bounded)
  have read : parts.mapM parsePart
      = .ok (parts.map fun part => UInt16.ofNat (Nat.ofDigitChars 10 (unsigned part) 0)) := by
    rw [Success.mapM_eq_ok_iff, List.forall₂_map_right_iff, List.forall₂_same]
    exact fun part isPart => parsePart_eq_ok_iff.2 ⟨numbers part isPart, value part isPart⟩
  have padded := @parts_padded
    (parts.map fun part => UInt16.ofNat (Nat.ofDigitChars 10 (unsigned part) 0))
    (by simpa using dotted.few)
  rw [List.map_map] at padded
  rw [parse, cut, if_neg (Nat.not_lt.2 dotted.few), read]
  exact ⟨_, rfl, List.map_congr_left value ▸ padded⟩

/-- Exactly the dotted texts are read whose parts are numbers, perhaps behind plus signs. -/
theorem parse_eq_ok_iff
    {text : String}
    {version : Version} :
    parse text = .ok version
      ↔ ∃ parts, Dotted (trim text.toList) parts
        ∧ (∀ part ∈ parts, Number (unsigned part))
        ∧ version.Holds (parts.map fun part => Nat.ofDigitChars 10 (unsigned part) 0) := by
  constructor
  · intro read
    rw [parse] at read
    split at read
    · cases read
    split at read
    · cases read
    next few _ values known =>
      obtain rfl := Except.ok.inj read
      have each := (Success.mapM_eq_ok_iff _ _ _).1 known
      have same : values.map (·.toNat)
          = (pieces '.' (trim text.toList)).map fun part =>
              Nat.ofDigitChars 10 (unsigned part) 0 := by
        rw [← List.forall₂_eq_eq_eq, List.forall₂_map_left_iff, List.forall₂_map_right_iff]
        exact each.flip.imp fun part value isRead => (parsePart_eq_ok_iff.1 isRead).2
      refine ⟨_, ⟨(join_pieces '.' _).symm, pieces_ne_nil _ _, Nat.le_of_not_lt few⟩,
        fun part isPart => ?_, ?_⟩
      · obtain ⟨value, -, isRead⟩ := Success.exists_result each isPart
        exact (parsePart_eq_ok_iff.1 isRead).1
      · rw [← same]
        exact parts_padded (each.length_eq ▸ Nat.le_of_not_lt few)
  · rintro ⟨parts, dotted, numbers, holds⟩
    obtain ⟨other, read, otherHolds⟩ := exists_parse dotted numbers
    rw [read, eq_of_holds holds otherHolds]

/-- A text is meant to be read if it consists of one to four numbers with dots between them and
white space around them. The version is meant to hold these numbers, and to be read again from what
is written for it. -/
structure Documented (text : String) : Prop where
  accepted : (∃ version, parse text = .ok version)
    ↔ ∃ parts, Dotted (trim text.toList) parts ∧ ∀ part ∈ parts, Number part
  numbers : ∀ version, parse text = .ok version →
    ∃ parts, Dotted (trim text.toList) parts
      ∧ (∀ part ∈ parts, Number part)
      ∧ version.Holds (parts.map (Nat.ofDigitChars 10 · 0))
  again : ∀ version, parse text = .ok version → parse version.display = .ok version

/-- A text is read as it is meant, unless a sign is accepted in it. -/
theorem documented_iff
    {text : String} :
    Documented text ↔ ∀ version, parse text = .ok version → '+' ∉ trim text.toList := by
  constructor
  · intro documented version read sign
    obtain ⟨parts, dotted, numbers⟩ := documented.accepted.1 ⟨version, read⟩
    rw [dotted.joined] at sign
    rcases of_mem_join sign with dot | ⟨part, isPart, inside⟩
    · exact absurd dot (by decide)
    · exact absurd ((numbers part isPart).decimal '+' inside) (by decide)
  · intro unsigned_text
    have numbers (version : Version) (read : parse text = .ok version) :
        ∃ parts, Dotted (trim text.toList) parts
          ∧ (∀ part ∈ parts, Number part)
          ∧ version.Holds (parts.map (Nat.ofDigitChars 10 · 0)) := by
      obtain ⟨parts, dotted, numbers, holds⟩ := parse_eq_ok_iff.1 read
      have bare (part : List Char) (isPart : part ∈ parts) : unsigned part = part := by
        refine unsigned_of_not_mem fun sign => unsigned_text version read ?_
        rw [dotted.joined]
        exact mem_join isPart sign
      refine ⟨parts, dotted, fun part isPart => bare part isPart ▸ numbers part isPart, ?_⟩
      rwa [← List.map_congr_left fun part isPart =>
        congrArg (Nat.ofDigitChars 10 · 0) (bare part isPart)]
    refine ⟨⟨?_, ?_⟩, numbers, fun version _ => version.parse_display⟩
    · rintro ⟨version, read⟩
      obtain ⟨parts, dotted, areNumbers, -⟩ := numbers version read
      exact ⟨parts, dotted, areNumbers⟩
    · rintro ⟨parts, dotted, areNumbers⟩
      have unsigned_too (part : List Char) (isPart : part ∈ parts) : Number (unsigned part) := by
        rw [(areNumbers part isPart).unsigned_eq]
        exact areNumbers part isPart
      obtain ⟨version, read, -⟩ := exists_parse dotted unsigned_too
      exact ⟨version, read⟩

end Version

/-- Key tokens are read from the spellings of eight bytes, and versions from dotted numbers, both
with signs. A text is read as it is meant if and only if no sign is accepted in it. -/
theorem codes_documented_iff (text : String) :
    ((∀ token, KeyToken.parse text = .ok token
          ↔ KeyToken.Spells (trim text.toList) token.bytes.toList)
        ∧ (KeyToken.Documented text
          ↔ ∀ token, KeyToken.parse text = .ok token → '+' ∉ trim text.toList))
      ∧ (∀ version, Version.parse text = .ok version
          ↔ ∃ parts, Version.Dotted (trim text.toList) parts
            ∧ (∀ part ∈ parts, Version.Number (Version.unsigned part))
            ∧ version.Holds (parts.map fun part =>
              Nat.ofDigitChars 10 (Version.unsigned part) 0))
        ∧ (Version.Documented text
          ↔ ∀ version, Version.parse text = .ok version → '+' ∉ trim text.toList) :=
  ⟨⟨fun _ => KeyToken.parse_eq_ok_iff, KeyToken.documented_iff⟩,
    fun _ => Version.parse_eq_ok_iff, Version.documented_iff⟩

/-- A key token is read from eight digits with a sign before each, and a version from a number with
a sign, which is not meant. -/
theorem codes_documented_signSample :
    KeyToken.parse "+0+1+2+3+4+5+6+7" = .ok ⟨#v[0, 1, 2, 3, 4, 5, 6, 7]⟩
      ∧ ¬KeyToken.Documented "+0+1+2+3+4+5+6+7"
      ∧ Version.parse "+1" = .ok ⟨1, 0, 0, 0⟩
      ∧ ¬Version.Documented "+1" := by
  have token : KeyToken.parse "+0+1+2+3+4+5+6+7" = .ok ⟨#v[0, 1, 2, 3, 4, 5, 6, 7]⟩ := by
    decide +kernel
  have version : Version.parse "+1" = .ok ⟨1, 0, 0, 0⟩ := by
    decide +kernel
  exact ⟨token, fun documented => KeyToken.documented_iff.1 documented _ token (by decide),
    version, fun documented => Version.documented_iff.1 documented _ version (by decide)⟩

end Assembly
end AssemblyAtlas
