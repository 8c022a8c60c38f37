import AssemblyAtlas.Text.CharClass
import AssemblyAtlas.Text.Split

/-!
# Names for generated files and directories

Namespaces and type names hold anything that metadata allows. They become names which every file
system takes: letters, decimal digits, hyphens, underscores and dots, with a limited number of
bytes in each path segment, and none of the names that some systems keep for devices.

* `FileName.clean` is the common scanner, with its choices in `FileName.Style`;
* `FileName.withExtension`, `FileName.sanitize`, `FileName.directory` and `FileName.path` are the
  four ways of using it.

Every function gives a non-empty name for every text.
-/

namespace AssemblyAtlas
namespace FileName

open Text

/-- The most bytes that one path segment may take. -/
def maxSegment : Nat :=
  255

/-- The names that are kept for devices. -/
def deviceNames : List String := [
    "CON", "PRN", "AUX", "NUL", "COM1", "COM2", "COM3", "COM4", "COM5", "COM6", "COM7", "COM8",
    "COM9", "LPT1", "LPT2", "LPT3", "LPT4", "LPT5", "LPT6", "LPT7", "LPT8", "LPT9"]

/-- The text is a device name, whatever the case of its letters. -/
def isDeviceName (name : List Char) : Bool :=
  deviceNames.any fun device => foldCase device == name.map Char.toLower

/-- The zeros of the runs of ten decimal digits in the basic plane. -/
def digitZeros : List Nat := [
    0x0030, 0x0660, 0x06f0, 0x07c0, 0x0966, 0x09e6, 0x0a66, 0x0ae6, 0x0b66, 0x0be6, 0x0c66,
    0x0ce6, 0x0d66, 0x0de6, 0x0e50, 0x0ed0, 0x0f20, 0x1040, 0x1090, 0x17e0, 0x1810, 0x1946,
    0x19d0, 0x1a80, 0x1a90, 0x1b50, 0x1bb0, 0x1c40, 0x1c50, 0xa620, 0xa8d0, 0xa900, 0xa9d0,
    0xa9f0, 0xaa50, 0xabf0, 0xff10]

/-- The character is one of the decimal digits of the basic plane. -/
def isDecimalDigit (c : Char) : Bool :=
  digitZeros.any fun start => start ≤ c.toNat && c.toNat < start + 10

/-- Letters and decimal digits; letter numbers and other numerics are neither. -/
def isLetterOrDigit (c : Char) : Bool :=
  (isAlphabetic c && !isNumeric c) || isDecimalDigit c

/-- The characters that a name keeps; all of them lie in the basic plane. -/
def isNameChar (c : Char) : Bool :=
  c.toNat ≤ 0xffff && (isLetterOrDigit c || c == '-' || c == '_')

/-- How a text is turned into a name. -/
structure Style where
  /-- Every dot starts a new segment. -/
  splitAtDots : Bool
  /-- The part after the last dot is an extension, if it can be one. -/
  hasExtension : Bool
  /-- Slashes separate segments. -/
  splitAtSlashes : Bool
deriving DecidableEq

/-- Separates the extension: the part from the last dot on, if it is short enough and has only
characters that a name keeps. -/
def splitExtension (text : List Char) : List Char × List Char :=
  match cutLast? '.' text with
  | none => (text, [])
  | some (base, tail) =>
      if utf8Length ('.' :: tail) < maxSegment ∧ tail.all isNameChar then
        (base, '.' :: tail)
      else
        (text, [])

/-- The part of a base name that is scanned: what stands before a colon and before a generic
arity, without the white space around it. -/
def relevantPart (text : List Char) : List Char :=
  trim (before '`' (trim (before ':' text)))

/-- The scanner's state: the characters kept so far, last one first, and the bytes that the
current segment has asked for. -/
structure Scan where
  kept : List Char
  asked : Nat
deriving DecidableEq

/-- One step of the scanner. A character beyond the segment's limit is dropped, but still counted;
a dot is kept only inside a name and never after another dot; all else becomes a hyphen. -/
def Scan.step (style : Style) (scan : Scan) (c : Char) : Scan :=
  if isNameChar c then
    let asked := scan.asked + c.utf8Size
    ⟨if asked ≤ maxSegment then c :: scan.kept else scan.kept, asked⟩
  else if c = '.' ∧ scan.kept ≠ [] ∧ scan.kept.head? ≠ some '.' then
    let asked := scan.asked + 1
    ⟨if style.splitAtDots ∨ asked ≤ maxSegment then '.' :: scan.kept else scan.kept,
      if style.splitAtDots then 0 else asked⟩
  else if style.splitAtSlashes ∧ (c = '/' ∨ c = '\\') ∧ 0 < scan.asked then
    ⟨'/' :: scan.kept, 0⟩
  else
    let asked := scan.asked + 1
    ⟨if asked ≤ maxSegment then '-' :: scan.kept else scan.kept, asked⟩

/-- The characters that the scanner keeps of a text. -/
def scanned (style : Style) (text : List Char) : List Char :=
  (text.foldl (Scan.step style) ⟨[], 0⟩).kept.reverse

/-- A name of at least one character that is no device name. -/
def usable (name : List Char) : List Char :=
  let name := if name.isEmpty then ['-'] else name
  if isDeviceName name then
    name ++ ['_']
  else
    name

/-- The longest beginning of a text that takes no more bytes than the budget. -/
def takeBytes : Nat → List Char → List Char
  | _, [] => []
  | budget, c :: rest =>
      if c.utf8Size ≤ budget then
        c :: takeBytes (budget - c.utf8Size) rest
      else
        []

/-- Puts an extension after a name, which is shortened to make room for it. -/
def attach (name extension : List Char) : List Char :=
  if extension.isEmpty then
    name
  else
    let short := takeBytes (maxSegment - utf8Length extension) name
    (if short.isEmpty then ['-'] else short) ++ extension

/-- Turns a text into a name of the given style. -/
def clean (style : Style) (text : List Char) : List Char :=
  let (base, extension) := if style.hasExtension then splitExtension text else (text, [])
  let name := attach (usable (scanned style (relevantPart base))) extension
  if name = ['.'] then
    ['_']
  else
    name

/-- A file name with the given extension, which may lack its dot. -/
def withExtension (text extension : String) : String :=
  let dot := if extension.toList.head? = some '.' then [] else ['.']
  String.ofList (clean ⟨false, true, false⟩ (text.toList ++ dot ++ extension.toList))

/-- A file name in which slashes may separate directories. -/
def sanitize (text : String) : String :=
  String.ofList (clean ⟨false, true, true⟩ text.toList)

/-- The name of one directory, which may contain dots. -/
def directory (text : String) : String :=
  String.ofList (clean ⟨false, false, false⟩ text.toList)

/-- A path with one directory for each part of a dotted name. -/
def path (text : String) : String :=
  String.ofList (replaceChar '.' '/' (clean ⟨true, false, true⟩ text.toList))

end FileName
end AssemblyAtlas
