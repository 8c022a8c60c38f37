import AssemblyAtlas.Markup.Entity
import AssemblyAtlas.Text.CharClass
import AssemblyAtlas.Text.Split

/-!
# Elements

Finds an element in a marked-up text and reads its attributes.

* `firstElement?` gives what the first tag with a name says behind the name. Comments, instructions
  and literal data are passed over. What comes after a mistake is not read: a tag that is not
  closed, or the end of an element that was not started last;
* `attribute?` gives the value of an attribute.
-/

namespace AssemblyAtlas
namespace Markup

open Text

/-- The character separates words inside of a tag. -/
def isSpace (c : Char) : Bool :=
  c == ' ' || c == '\t' || c == '\n' || c == '\r'

/-- The text behind the first occurrence of a part. -/
def after? (part : List Char) : List Char → Option (List Char)
  | [] => if part.isEmpty then some [] else none
  | c :: rest =>
      match afterLead? part (c :: rest) with
      | some behind => some behind
      | none => after? part rest

/-- The content of a tag and the text behind its closing bracket, which may not stand between
quotes. -/
def untilClose? : (quote : Option Char) → List Char → Option (List Char × List Char)
  | _, [] => none
  | none, c :: rest =>
      if c = '>' then
        some ([], rest)
      else
        let quote := if c = '"' ∨ c = '\'' then some c else none
        (untilClose? quote rest).map fun sides => (c :: sides.1, sides.2)
  | some quote, c :: rest =>
      (untilClose? (if c = quote then none else some quote) rest).map fun sides =>
        (c :: sides.1, sides.2)

/-- The content of a document type and the text behind its closing bracket. Brackets inside come in
pairs. -/
def untilBalanced? : (depth : Nat) → List Char → Option (List Char × List Char)
  | _, [] => none
  | depth, c :: rest =>
      if c = '>' ∧ depth = 0 then
        some ([], rest)
      else
        let depth := if c = '<' then depth + 1 else if c = '>' then depth - 1 else depth
        (untilBalanced? depth rest).map fun sides => (c :: sides.1, sides.2)

/-- A part of a marked-up text. -/
inductive Part where
  /-- The start of an element, with its name and what the tag says behind the name. -/
  | start (name rest : List Char)
  /-- An element without content. -/
  | single (name rest : List Char)
  /-- The end of an element. -/
  | finish (name : List Char)
  /-- Whatever is passed over. -/
  | other

/-- The part that the content of a tag makes. -/
def Part.ofTag (content : List Char) : Part :=
  let named (content : List Char) := (content.span (!isSpace ·))
  if content.getLast? = some '/' then
    let sides := named content.dropLast
    .single sides.1 sides.2
  else
    let sides := named content
    .start sides.1 sides.2

/-- The name in the content of an end tag: white space behind it does not count, but white space
alone is a name of its own. -/
def finishName (content : List Char) : List Char :=
  let name := (content.reverse.dropWhile isSpace).reverse
  if name.isEmpty then content else name

/-- The part behind an opening bracket with an exclamation mark, and the text behind it. -/
def declaration? (text : List Char) : Option (Part × List Char) :=
  match text with
  | '-' :: '-' :: rest => (after? "-->".toList rest).map fun behind => (.other, behind)
  | '[' :: rest =>
      (afterLead? "CDATA[".toList rest).bind fun data =>
        (after? "]]>".toList data).map fun behind => (.other, behind)
  | _ =>
      (untilBalanced? 0 text).bind fun sides =>
        let isDocumentType := foldCase (String.ofList (sides.1.take 7)) == foldCase "DOCTYPE"
        if isDocumentType && (sides.1.drop 7).any (!isSpace ·) then
          some (.other, sides.2)
        else
          none

/-- The part behind an opening bracket, and the text behind the part. -/
def part? (text : List Char) : Option (Part × List Char) :=
  match text with
  | '!' :: rest => declaration? rest
  | '?' :: '>' :: _ => none
  | '?' :: rest => (after? "?>".toList rest).map fun behind => (.other, behind)
  | '/' :: rest =>
      (untilClose? none rest).map fun sides => (.finish (finishName sides.1), sides.2)
  | _ => (untilClose? none text).map fun sides => (.ofTag sides.1, sides.2)

/-- What the first tag with a name says behind the name, among a number of parts. The open elements
are known, the last one first. -/
def findElement? (name : List Char) : Nat → List (List Char) → List Char → Option (List Char)
  | 0, _, _ => none
  | count + 1, opened, text =>
      match (after? ['<'] text).bind part? with
      | none => none
      | some (.start found rest, behind) =>
          if found = name then
            some rest
          else
            findElement? name count (found :: opened) behind
      | some (.single found rest, behind) =>
          if found = name then some rest else findElement? name count opened behind
      | some (.finish found, behind) =>
          match opened with
          | [] => none
          | last :: others =>
              if last = found then findElement? name count others behind else none
      | some (.other, behind) => findElement? name count opened behind

/-- What the first tag with a name says behind the name. -/
def firstElement? (name text : List Char) : Option (List Char) :=
  findElement? name text.length [] text

/-- The value behind an equals sign and the text behind the value. A value must be quoted. -/
def value? (text : List Char) : Option (List Char) × List Char :=
  match text.dropWhile isSpace with
  | [] => (none, [])
  | quote :: rest =>
      if quote = '"' ∨ quote = '\'' then
        match cutFirst? quote rest with
        | some sides => (some sides.1, sides.2)
        | none => (none, [])
      else
        (none, rest.dropWhile (!isSpace ·))

/-- The attributes in a text, up to a number, and their values. A word without an equals sign is no
attribute. A value that is not well formed is none. The value of a key that is known already is
passed over up to the next white space. -/
def attributes :
    Nat → (known : List (List Char)) → List Char → List (List Char × Option (List Char))
  | 0, _, _ => []
  | count + 1, known, text =>
      match text.dropWhile isSpace with
      | [] => []
      | first :: rest =>
          let isInKey (c : Char) : Bool := c != '=' && !isSpace c
          let key := first :: rest.takeWhile isInKey
          match (rest.dropWhile isInKey).dropWhile isSpace with
          | '=' :: behind =>
              if key ∈ known then
                attributes count known (behind.dropWhile (!isSpace ·))
              else
                let found := value? behind
                (key, found.1) :: attributes count (key :: known) found.2
          | behind => attributes count known behind

/-- The value of the attribute with a name. -/
def attribute? (name text : List Char) : Option (List Char) :=
  (((attributes text.length [] text).find? (·.1 = name)).bind (·.2)).bind unescape?

end Markup
end AssemblyAtlas
