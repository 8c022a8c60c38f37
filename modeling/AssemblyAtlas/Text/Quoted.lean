import AssemblyAtlas.Text.Numeral
import AssemblyAtlas.Text.Visible

/-!
# Quoted texts

Texts between double quotes, as descriptions show them. Double quotes, backslashes and whatever
shows nothing of its own are escaped, so the text can be told from what stands around it.

* `inQuotes` is for any text;
* `optionInQuotes` is for a text that may be missing.
-/

namespace AssemblyAtlas
namespace Text

/-- The hexadecimal digits of a number without leading zeros. -/
def hexadecimal (n : Nat) : List Char :=
  Nat.toDigits 16 n

/-- A character of a quoted text. -/
def escaped (c : Char) : List Char :=
  if c = '"' ∨ c = '\\' then
    ['\\', c]
  else if c = '\n' then
    ['\\', 'n']
  else if c = '\r' then
    ['\\', 'r']
  else if c = '\t' then
    ['\\', 't']
  else if c = '\x00' then
    ['\\', '0']
  else if isVisible c then
    [c]
  else
    "\\u\x7b".toList ++ hexadecimal c.toNat ++ ['\x7d']

/-- A text between double quotes. -/
def inQuotes (text : String) : String :=
  String.ofList ('"' :: text.toList.flatMap escaped ++ ['"'])

/-- A text between double quotes, if there is one. -/
def optionInQuotes : Option String → String
  | some text => "Some(" ++ inQuotes text ++ ")"
  | none => "None"

end Text
end AssemblyAtlas
