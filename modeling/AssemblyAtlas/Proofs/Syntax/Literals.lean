import AssemblyAtlas.Proofs.Text.Digits
import AssemblyAtlas.Syntax.Literal

/-!
# Literals that delimit themselves

The text of a string or a character stands between quotes, and nothing in it ends the literal too
early. A reader that knows the escapes finds the closing quote and the text again, whatever stands
behind the literal.

* `readQuoted?` is this reader; it refuses unknown escapes and control characters;
* `readQuoted?_flatMap_escapeChar` is the round trip, and `quoted_prefix_iff` follows from it;
* `literal_delimited` is about the literals of strings and characters.
-/

namespace AssemblyAtlas
namespace Syntax

open Assembly
open Text

/-! ## Reading between quotes -/

/-- What a single character stands for behind a backslash. -/
def escaped? (quote c : Char) : Option Char :=
  if c = '\\' ∨ c = quote then
    some c
  else if c = 'n' then
    some '\n'
  else if c = 'r' then
    some '\r'
  else if c = 't' then
    some '\t'
  else if c = '0' then
    some '\x00'
  else
    none

/-- The character whose code the hexadecimal digits give, if there is one. -/
def charOfCode? (digits : List Char) : Option Char :=
  ((digitsValue? 16 0 digits).filter fun code => code.isValidChar).map Char.ofNat

/-- Reads up to the first quote that is not escaped. Gives the text that the literal stands for, and
what is left behind the quote. A backslash has to start an escape, and a control character must not
stand for itself. -/
def readQuoted? (quote : Char) : List Char → Option (List Char × List Char)
  | [] => none
  | '\\' :: 'u' :: first :: second :: third :: fourth :: rest =>
      match charOfCode? [first, second, third, fourth] with
      | some c => (readQuoted? quote rest).map fun read => (c :: read.1, read.2)
      | none => none
  | '\\' :: letter :: rest =>
      match escaped? quote letter with
      | some c => (readQuoted? quote rest).map fun read => (c :: read.1, read.2)
      | none => none
  | c :: rest =>
      if c = quote then
        some ([], rest)
      else if c = '\\' ∨ isControl c then
        none
      else
        (readQuoted? quote rest).map fun read => (c :: read.1, read.2)

/-! ## What was escaped is read again -/

section Quoted

variable {quote : Char}

/-- A letter behind a backslash is read as what it stands for. -/
theorem readQuoted?_escaped
    {letter c : Char}
    (stands : escaped? quote letter = some c)
    (noCode : letter ≠ 'u')
    (rest : List Char) :
    readQuoted? quote ('\\' :: letter :: rest)
      = (readQuoted? quote rest).map fun read => (c :: read.1, read.2) := by
  rw [readQuoted?, stands]
  intro _ _ _ _ _ isCode
  exact absurd isCode noCode

/-- A control character is read from its code. -/
theorem charOfCode?_hexFixed
    {c : Char}
    (control : isControl c = true) :
    charOfCode? (hexFixed 4 c.toNat) = some c := by
  have small : c.toNat < 16 ^ 4 := by
    simp only [isControl, Bool.or_eq_true, Bool.and_eq_true, decide_eq_true_eq] at control
    omega
  have valid : c.toNat.isValidChar := c.valid
  rw [charOfCode?, digitsValue?_hexFixed, Nat.zero_mul, Nat.zero_add, Nat.mod_eq_of_lt small]
  simp [valid]

/-- An escaped character is read as the character. -/
theorem readQuoted?_escapeChar
    (isQuote : quote = '"' ∨ quote = '\'')
    (c : Char)
    (rest : List Char) :
    readQuoted? quote (escapeChar quote c ++ rest)
      = (readQuoted? quote rest).map fun read => (c :: read.1, read.2) := by
  have short (letter : Char) (stands : escaped? quote letter = some c) (noCode : letter ≠ 'u') :
      readQuoted? quote (['\\', letter] ++ rest)
        = (readQuoted? quote rest).map fun read => (c :: read.1, read.2) :=
    readQuoted?_escaped stands noCode rest
  rw [escapeChar]
  split_ifs with backslash newline carriage tab null isEnd control
  · exact short '\\' (by rw [backslash]; rfl) (by decide)
  · exact short 'n' (by rcases isQuote with rfl | rfl <;> rw [newline] <;> rfl) (by decide)
  · exact short 'r' (by rcases isQuote with rfl | rfl <;> rw [carriage] <;> rfl) (by decide)
  · exact short 't' (by rcases isQuote with rfl | rfl <;> rw [tab] <;> rfl) (by decide)
  · exact short '0' (by rcases isQuote with rfl | rfl <;> rw [null] <;> rfl) (by decide)
  · refine short c (if_pos (Or.inr isEnd)) ?_
    rcases isQuote with rfl | rfl <;> rw [isEnd] <;> decide
  · have code := charOfCode?_hexFixed control
    simp only [hexFixed] at code ⊢
    simp only [List.cons_append, List.nil_append, readQuoted?, code]
  · rw [List.singleton_append, readQuoted?, if_neg isEnd, if_neg (by simp [backslash, control])]
    · intro _ _ _ _ _ isEscape
      exact absurd isEscape backslash
    · intro _ _ isEscape
      exact absurd isEscape backslash

/-- The reader stops behind the text, at the quote that was put there, and finds the text again. -/
theorem readQuoted?_flatMap_escapeChar
    (isQuote : quote = '"' ∨ quote = '\'')
    (text rest : List Char) :
    readQuoted? quote (text.flatMap (escapeChar quote) ++ quote :: rest) = some (text, rest) := by
  induction text with
  | nil => rcases isQuote with rfl | rfl <;> rfl
  | cons c text ih =>
      rw [List.flatMap_cons, List.append_assoc, readQuoted?_escapeChar isQuote, ih]
      rfl

/-- A quoted text begins with another one only if it is the same. -/
theorem quoted_prefix_iff
    (isQuote : quote = '"' ∨ quote = '\'')
    (left right : List Char) :
    quoted quote left <+: quoted quote right ↔ left = right := by
  constructor
  · rintro ⟨rest, longer⟩
    simp only [quoted, List.cons_append, List.append_assoc, List.cons.injEq, true_and,
      List.nil_append] at longer
    have behindLeft := readQuoted?_flatMap_escapeChar isQuote left rest
    have behindRight := readQuoted?_flatMap_escapeChar isQuote right []
    rw [longer, behindRight] at behindLeft
    simpa using congrArg (Option.map Prod.fst) behindLeft.symm
  · rintro rfl
    exact List.prefix_rfl

end Quoted

/-! ## Literals -/

/-- The literal of a string is what stands between two double quotes, that of a character what
stands between two single ones, and the reader finds its text and its end. So different literals of
one kind are different texts, and neither begins with the other. -/
theorem literal_delimited :
    (∀ text : String, ∃ body, literal (.string text) = '"' :: body ++ ['"']
        ∧ ∀ rest, readQuoted? '"' (body ++ '"' :: rest) = some (text.toList, rest))
      ∧ (∀ c : Char, ∃ body, literal (.char c) = '\'' :: body ++ ['\'']
        ∧ ∀ rest, readQuoted? '\'' (body ++ '\'' :: rest) = some ([c], rest))
      ∧ Function.Injective (fun text : String => literal (.string text))
      ∧ Function.Injective (fun c : Char => literal (.char c))
      ∧ (∀ left right : String,
        literal (.string left) <+: literal (.string right) ↔ left = right)
      ∧ ∀ left right : Char, literal (.char left) <+: literal (.char right) ↔ left = right := by
  have strings (left right : String) :
      literal (.string left) <+: literal (.string right) ↔ left = right :=
    (quoted_prefix_iff (Or.inl rfl) left.toList right.toList).trans String.toList_inj
  have chars (left right : Char) : literal (.char left) <+: literal (.char right) ↔ left = right :=
    (quoted_prefix_iff (Or.inr rfl) [left] [right]).trans List.singleton_inj
  refine ⟨fun text => ⟨_, rfl, readQuoted?_flatMap_escapeChar (Or.inl rfl) text.toList⟩,
    fun c => ⟨_, rfl, readQuoted?_flatMap_escapeChar (Or.inr rfl) [c]⟩, ?_, ?_, strings, chars⟩
  · intro left right same
    dsimp only at same
    exact (strings left right).1 (same ▸ List.prefix_rfl)
  · intro left right same
    dsimp only at same
    exact (chars left right).1 (same ▸ List.prefix_rfl)

-- A digit behind a null does not belong to its escape, and data may look like an escape.
example : readQuoted? '"' (literal (.string "\x001\\u0041") ++ ['+']).tail
    = some ("\x001\\u0041".toList, ['+']) := by
  decide +kernel

end Syntax
end AssemblyAtlas
