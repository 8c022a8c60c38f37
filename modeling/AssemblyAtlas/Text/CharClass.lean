import AssemblyAtlas.Text.Alphabetic
import AssemblyAtlas.Text.Numeric

/-!
# Character classes

The classes of characters that names and texts are read with.

* `isAlphabetic`, `isNumeric` and `isAlphanumeric` follow the Unicode properties;
* `isControl` and `isBlank` are the control characters and the white space of Unicode;
* `trim` drops white space from both ends of a text.
-/

namespace AssemblyAtlas
namespace Text

/-- The character has the Unicode property `Alphabetic`. -/
def isAlphabetic (c : Char) : Bool :=
  alphabeticRanges.contains c.toNat

/-- The character is a decimal digit, a letter number or another numeric. -/
def isNumeric (c : Char) : Bool :=
  numericRanges.contains c.toNat

/-- The character is alphabetic or numeric. -/
def isAlphanumeric (c : Char) : Bool :=
  isAlphabetic c || isNumeric c

/-- The control characters are the two blocks below the blank and above the tilde. -/
def isControl (c : Char) : Bool :=
  c.toNat < 0x20 || (0x7f ≤ c.toNat && c.toNat < 0xa0)

/-- The code points of white space. -/
def blankRanges : CodeRanges := [
    (0x0009, 0x000d), (0x0020, 0x0020), (0x0085, 0x0085), (0x00a0, 0x00a0), (0x1680, 0x1680),
    (0x2000, 0x200a), (0x2028, 0x2029), (0x202f, 0x202f), (0x205f, 0x205f), (0x3000, 0x3000)]

/-- The character is white space. -/
def isBlank (c : Char) : Bool :=
  blankRanges.contains c.toNat

/-- The text without the white space at its end. -/
def trimEnd (text : List Char) : List Char :=
  (text.reverse.dropWhile isBlank).reverse

/-- The text without the white space at its two ends. -/
def trim (text : List Char) : List Char :=
  trimEnd (text.dropWhile isBlank)

/-- The same text with capital ASCII letters made small. -/
def foldCase (text : String) : List Char :=
  text.toList.map Char.toLower

/-- The two texts differ at most in the case of ASCII letters. -/
def sameIgnoringCase (left right : String) : Bool :=
  foldCase left == foldCase right

/-- Bytes that the text takes in UTF-8. -/
def utf8Length (text : List Char) : Nat :=
  text.foldl (fun total c => total + c.utf8Size) 0

end Text
end AssemblyAtlas
