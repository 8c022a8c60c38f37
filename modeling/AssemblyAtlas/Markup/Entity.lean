import AssemblyAtlas.Text.Numeral

/-!
# Entities

Characters that mean something in markup are written as entities.

* `escape` writes a text so that it is safe between tags and between quotes;
* `unescape?` reads such a text; it also knows characters that are given by their numbers.
-/

namespace AssemblyAtlas
namespace Markup

open Text

/-- A character as it is written in markup. -/
def escapeChar (c : Char) : List Char :=
  if c = '&' then
    "&amp;".toList
  else if c = '<' then
    "&lt;".toList
  else if c = '>' then
    "&gt;".toList
  else if c = '\'' then
    "&apos;".toList
  else if c = '"' then
    "&quot;".toList
  else
    [c]

/-- A text as it is written in markup. -/
def escape (text : List Char) : List Char :=
  text.flatMap escapeChar

/-- The character with a number, if that is one and not zero. -/
def numbered? (code : Nat) : Option Char :=
  if code ≠ 0 ∧ code.isValidChar then
    some (Char.ofNat code)
  else
    none

/-- The largest number that can be asked for. -/
def codeLimit : Nat :=
  0xffffffff

/-- The number after the number sign of an entity. A sign before the digits is refused. -/
def readCode? : List Char → Option Nat
  | 'x' :: digits => if digits.head? = some '+' then none else readNumeral? 16 codeLimit digits
  | digits => if digits.head? = some '+' then none else readNumeral? 10 codeLimit digits

/-- The character that an entity stands for, by what is between the ampersand and the semicolon. -/
def entity? (name : List Char) : Option Char :=
  match name with
  | '#' :: code => (readCode? code).bind numbered?
  | _ =>
      if name = "amp".toList then
        some '&'
      else if name = "lt".toList then
        some '<'
      else if name = "gt".toList then
        some '>'
      else if name = "apos".toList then
        some '\''
      else if name = "quot".toList then
        some '"'
      else
        none

/-- Reads on, inside of an entity of which some characters are known, or outside of any. -/
def decode : Option (List Char) → List Char → Option (List Char)
  | none, [] => some []
  | some _, [] => none
  | none, c :: rest =>
      if c = '&' then
        decode (some []) rest
      else
        (decode none rest).map (c :: ·)
  | some name, c :: rest =>
      if c = ';' then
        (entity? name).bind fun found => (decode none rest).map (found :: ·)
      else if c = '&' then
        none
      else
        decode (some (name ++ [c])) rest

/-- Reads a text as it is written in markup. An ampersand must start an entity that is known. -/
def unescape? (text : List Char) : Option (List Char) :=
  decode none text

end Markup
end AssemblyAtlas
