import AssemblyAtlas.Failure
import AssemblyAtlas.Text.Split

/-!
# Symbol keys

A symbol key names a type or a member without tokens, so that it can be found again in generated
sources. Its text follows the ids of documentation comments: a kind letter, a colon, the
namespace, the names of the nested types with plus signs, and the member, in which hash signs
stand for dots. Overloads share one key.

* `SymbolKey.display` writes a key and `SymbolKey.parse` reads it;
* keys are ordered by kind, namespace, type path and member.
-/

namespace AssemblyAtlas
namespace Assembly

open Text

/-- What a symbol key names, in the order of keys. -/
inductive SymbolKind where
  | type
  | method
  | field
  | property
  | event
deriving DecidableEq

namespace SymbolKind

/-- The letter of a kind. -/
def letter : SymbolKind → Char
  | type => 'T'
  | method => 'M'
  | field => 'F'
  | property => 'P'
  | event => 'E'

/-- The kind of a letter. -/
def ofLetter? : Char → Option SymbolKind
  | 'T' => some type
  | 'M' => some method
  | 'F' => some field
  | 'P' => some property
  | 'E' => some event
  | _ => none

/-- The place of a kind in the order of keys. -/
def rank : SymbolKind → Nat
  | type => 0
  | method => 1
  | field => 2
  | property => 3
  | event => 4

end SymbolKind

/-- The name of a type or a member. -/
structure SymbolKey where
  kind : SymbolKind
  /-- The namespace of the outermost type. -/
  space : String
  /-- The names of the types, outermost first. -/
  typePath : List String
  member : Option String
deriving DecidableEq

namespace SymbolKey

/-- The key of a type. -/
def ofTypePath (space : String) (typePath : List String) : SymbolKey :=
  ⟨.type, space, typePath, none⟩

/-- The key of a member of the key's type. -/
def memberKey (key : SymbolKey) (kind : SymbolKind) (name : String) : SymbolKey :=
  { key with kind := kind, member := some name }

/-- The key of the type that holds the member, or of the type itself. -/
def containingType (key : SymbolKey) : SymbolKey :=
  ofTypePath key.space key.typePath

/-- The key of the outermost type. -/
def topLevelType (key : SymbolKey) : SymbolKey :=
  ofTypePath key.space (key.typePath.take 1)

/-- The type names with plus signs between them. -/
def typeName (key : SymbolKey) : String :=
  String.ofList (join ['+'] (key.typePath.map String.toList))

/-- The text of a key. -/
def display (key : SymbolKey) : String :=
  let space := if key.space = "" then "" else key.space ++ "."
  let member :=
    match key.member with
    | some name => "." ++ String.ofList (replaceChar '.' '#' name.toList)
    | none => ""
  String.ofList [key.kind.letter, ':'] ++ space ++ key.typeName ++ member

/-- Separates the member from the type part; a type key has no member. -/
def splitMember?
    (kind : SymbolKind)
    (text : List Char) :
    Option (List Char × Option (List Char)) :=
  if kind = .type then
    some (text, none)
  else
    (cutLast? '.' text).map fun sides => (sides.1, some (replaceChar '#' '.' sides.2))

/-- Separates the namespace from the name of the outermost type. -/
def splitSpace (text : List Char) : List Char × List Char :=
  (cutLast? '.' text).getD ([], text)

/-- Reads the text of a key. -/
def parse (text : String) : Except Malformation SymbolKey :=
  match text.toList with
  | [] => .error (.symbolKind text)
  | letter :: afterLetter =>
      match SymbolKind.ofLetter? letter, afterLetter with
      | none, _ => .error (.symbolKind text)
      | some kind, ':' :: rest =>
          match splitMember? kind rest with
          | none => .error (.symbolMember text)
          | some (typePart, member) =>
              let names := pieces '+' typePart
              let (space, outer) := splitSpace (names.headD [])
              let path := outer :: names.tail
              if [] ∈ path ∨ member = some [] then
                .error (.symbolName text)
              else
                .ok ⟨kind, String.ofList space, path.map String.ofList, member.map String.ofList⟩
      | some _, _ => .error (.symbolSeparator text)

/-- A key's parts in the order in which they are compared: first the kind, then the namespace, the
type path and the member, where no member comes first. -/
def Precedes (left right : SymbolKey) : Prop :=
  left.kind.rank < right.kind.rank ∨ left.kind = right.kind ∧
    (left.space < right.space ∨ left.space = right.space ∧
      (left.typePath < right.typePath ∨ left.typePath = right.typePath ∧
        left.member.toList < right.member.toList))

instance : LT SymbolKey :=
  ⟨Precedes⟩

instance : DecidableLT SymbolKey :=
  fun _ _ => inferInstanceAs (Decidable (_ ∨ _ ∧ (_ ∨ _ ∧ (_ ∨ _ ∧ _))))

end SymbolKey

end Assembly
end AssemblyAtlas
