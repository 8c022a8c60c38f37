import AssemblyAtlas.Failure
import AssemblyAtlas.Text.CharClass
import AssemblyAtlas.Text.Split

/-!
# Assembly identities

The name, version, culture and public key token by which assemblies refer to each other, and
their display texts.

* `Version.parse`, `KeyToken.parse` and `Identity.parse` read the texts;
* `Version.display`, `KeyToken.display` and `Identity.display` write them;
* versions are ordered by their four parts.
-/

namespace AssemblyAtlas
namespace Assembly

open Text

/-- The version of an assembly. -/
structure Version where
  major : UInt16
  minor : UInt16
  build : UInt16
  revision : UInt16
deriving DecidableEq

namespace Version

/-- The version that stands for no version. -/
def unspecified : Version :=
  ⟨0, 0, 0, 0⟩

/-- The four parts, most significant first. -/
def parts (version : Version) : List UInt16 :=
  [version.major, version.minor, version.build, version.revision]

/-- Versions are ordered by their parts, most significant first. -/
instance : LT Version :=
  ⟨fun left right => left.parts < right.parts⟩

instance : DecidableLT Version :=
  fun left right => inferInstanceAs (Decidable (left.parts < right.parts))

/-- The four parts with dots between them. -/
def display (version : Version) : String :=
  String.ofList (join ['.'] (version.parts.map fun part => decimal part.toNat))

/-- Reads one part of a version. -/
def parsePart (part : List Char) : Except Malformation UInt16 :=
  match readNumeral? 10 0xffff part with
  | some value => .ok (UInt16.ofNat value)
  | none => .error (.versionComponent (String.ofList part))

/-- Reads one to four parts with dots between them; the parts that are missing are zero. -/
def parse (text : String) : Except Malformation Version :=
  let fields := pieces '.' (trim text.toList)
  if 4 < fields.length then
    .error (.versionFormat text)
  else
    match fields.mapM parsePart with
    | .error cause => .error cause
    | .ok parts =>
        .ok ⟨parts.getD 0 0, parts.getD 1 0, parts.getD 2 0, parts.getD 3 0⟩

end Version

/-- The eight bytes that stand for a public key. -/
structure KeyToken where
  bytes : Vector UInt8 8
deriving DecidableEq

namespace KeyToken

/-- Sixteen hexadecimal digits. -/
def display (token : KeyToken) : String :=
  String.ofList (token.bytes.toList.flatMap hexByte)

/-- Reads bytes of two digits each. -/
def readBytes? : List Char → Option (List UInt8)
  | [] => some []
  | [_] => none
  | high :: low :: rest =>
      match readNumeral? 16 0xff [high, low], readBytes? rest with
      | some byte, some bytes => some (UInt8.ofNat byte :: bytes)
      | _, _ => none

/-- Reads sixteen hexadecimal digits with white space around them. -/
def parse (text : String) : Except Malformation KeyToken :=
  let digits := trim text.toList
  if utf8Length digits ≠ 16 ∨ digits.any (0x7f < ·.toNat) then
    .error (.keyTokenLength (String.ofList digits))
  else
    match readBytes? digits with
    | some bytes =>
        if length : bytes.toArray.size = 8 then
          .ok ⟨⟨bytes.toArray, length⟩⟩
        else
          .error (.keyTokenLength (String.ofList digits))
    | none => .error (.keyTokenDigits (String.ofList digits))

end KeyToken

/-- What tells one assembly from another. -/
structure Identity where
  name : String
  version : Version
  /-- Absent for the neutral culture. -/
  culture : Option String
  keyToken : Option KeyToken
deriving DecidableEq

namespace Identity

/-- A neutral identity without a key. -/
def ofName (name : String) (version : Version) : Identity :=
  ⟨name, version, none, none⟩

/-- The display name: the four parts with their labels. -/
def display (identity : Identity) : String :=
  identity.name ++ ", Version=" ++ identity.version.display
    ++ ", Culture=" ++ identity.culture.getD "neutral"
    ++ ", PublicKeyToken=" ++ (identity.keyToken.elim "null" KeyToken.display)

/-- Takes over one labelled part of a display name; parts with other labels are skipped. -/
def readPart (identity : Identity) (part : List Char) : Except Malformation Identity :=
  match afterLead? "Version=".toList part with
  | some value => do
      let version ← Version.parse (String.ofList value)
      return { identity with version := version }
  | none =>
      match afterLead? "Culture=".toList part with
      | some value =>
          if value = "neutral".toList ∨ value = [] then
            .ok identity
          else
            .ok { identity with culture := some (String.ofList value) }
      | none =>
          match afterLead? "PublicKeyToken=".toList part with
          | some value =>
              if value = "null".toList ∨ value = [] then
                .ok identity
              else do
                let token ← KeyToken.parse (String.ofList value)
                return { identity with keyToken := some token }
          | none => .ok identity

/-- Reads a display name; what it leaves out is zero, neutral and absent. -/
def parse (text : String) : Except Malformation Identity :=
  match (pieces ',' text.toList).map trim with
  | [] | [] :: _ => .error .assemblyName
  | name :: parts =>
      parts.foldlM readPart (ofName (String.ofList name) .unspecified)

end Identity

end Assembly
end AssemblyAtlas
