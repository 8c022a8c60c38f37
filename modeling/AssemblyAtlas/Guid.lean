import AssemblyAtlas.Text.Numeral
import AssemblyAtlas.Text.Split

/-!
# Guids

A guid is sixteen raw bytes. Its text has five groups of digits; the first three are numbers whose
least significant byte is stored first, so their bytes appear in reverse.
-/

namespace AssemblyAtlas

open Text

/-- A globally unique identifier, by its raw bytes. -/
structure Guid where
  bytes : Vector UInt8 16
deriving DecidableEq

namespace Guid

/-- The guid of the first sixteen bytes; missing ones are zero. -/
def ofBytes (bytes : List UInt8) : Guid :=
  ⟨Vector.ofFn fun i => bytes.getD i 0⟩

/-- The all-zero guid. -/
def nil : Guid :=
  ofBytes []

/-- The raw positions of the bytes of each group, in the order of the text. -/
def groups : List (List Nat) :=
  [[3, 2, 1, 0], [5, 4], [7, 6], [8, 9], [10, 11, 12, 13, 14, 15]]

/-- The text in small digits. -/
def display (guid : Guid) : String :=
  let byteText (place : Nat) := hexByte (guid.bytes.toList.getD place 0)
  String.ofList (join ['-'] (groups.map (·.flatMap byteText)))

/-- The values of the pairs of digits in a text; other characters end the reading. -/
def pairs : List Char → List UInt8
  | high :: low :: rest =>
      match digitValue? 16 high, digitValue? 16 low with
      | some a, some b => UInt8.ofNat (a * 16 + b) :: pairs rest
      | _, _ => []
  | _ => []

/-- Reads a text of five groups with digits of either case. -/
def parse? (text : String) : Option Guid :=
  let shown := pairs (text.toList.filter (· != '-'))
  let guid := ofBytes ((List.range 16).map fun i => shown.getD (groups.flatten.idxOf i) 0)
  if guid.display.toList = text.toList.map Char.toLower then
    some guid
  else
    none

end Guid

end AssemblyAtlas
