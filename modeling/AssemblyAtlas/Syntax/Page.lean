import AssemblyAtlas.Syntax.Piece

/-!
# Pages

A page takes pieces of source text one after the other, indents the lines, and notes at which line
and column each name stands. Lines and columns count from zero, columns in characters.

* `Page.add` takes one piece;
* `SourceUnit.render` and `renderNodes` put trees on an empty page;
* of several declarations with one key the first is noted.
-/

namespace AssemblyAtlas
namespace Syntax

open Assembly

/-- The texts by which lines are indented and ended. -/
structure Format where
  indentation : String
  newLine : String
deriving DecidableEq

namespace Format

/-- A tab for each level and a line feed for each line. -/
def default : Format :=
  ⟨"\t", "\n"⟩

/-- A number of blanks for each level. -/
def withSpaces (count : Nat) : Format :=
  { default with indentation := String.ofList (List.replicate count ' ') }

end Format

/-- A place in a text. -/
structure Location where
  line : Nat
  column : Nat
deriving DecidableEq

/-- The places of declared names, each with its key. -/
structure SymbolIndex where
  entries : List (SymbolKey × Location)
deriving DecidableEq

namespace SymbolIndex

/-- No name is noted. -/
def empty : SymbolIndex :=
  ⟨[]⟩

/-- The place of the name with a key. -/
def find? (index : SymbolIndex) (key : SymbolKey) : Option Location :=
  (index.entries.find? (·.1 = key)).map (·.2)

/-- Notes a place; a place that is noted already stays. -/
def note (index : SymbolIndex) (key : SymbolKey) (location : Location) : SymbolIndex :=
  if (index.find? key).isSome then
    index
  else
    ⟨index.entries ++ [(key, location)]⟩

/-- Notes places; of two with one key the later one stays. -/
def ofList (entries : List (SymbolKey × Location)) : SymbolIndex :=
  entries.reverse.foldl (fun index entry => index.note entry.1 entry.2) empty

/-- The noted places in the order of their keys. -/
def sorted (index : SymbolIndex) : List (SymbolKey × Location) :=
  index.entries.mergeSort fun left right => !decide (right.1 < left.1)

end SymbolIndex

/-- A page that is being written. -/
structure Page where
  text : String
  /-- The place behind the text. -/
  location : Location
  /-- The number of open blocks. -/
  indent : Nat
  symbols : SymbolIndex

namespace Page

/-- A page without text. -/
def empty : Page :=
  ⟨"", ⟨0, 0⟩, 0, .empty⟩

/-- Appends text within a line. -/
def append (page : Page) (text : String) : Page :=
  { page with
    text := page.text ++ text
    location := { page.location with column := page.location.column + text.length } }

/-- Indents a line that has no text yet. -/
def indented (page : Page) (format : Format) : Page :=
  if page.location.column = 0 then
    page.append (String.join (List.replicate page.indent format.indentation))
  else
    page

/-- Writes a word; an empty word does not even indent its line. -/
def write (page : Page) (format : Format) (text : String) : Page :=
  if text = "" then
    page
  else
    (page.indented format).append text

/-- Takes one piece. -/
def add (format : Format) (page : Page) : Piece → Page
  | .word text => page.write format text
  | .name key text =>
      let page := page.indented format
      { page with symbols := page.symbols.note key page.location }.write format text
  | .endLine =>
      { page with
        text := page.text ++ format.newLine
        location := ⟨page.location.line + 1, 0⟩ }
  | .deeper => { page with indent := page.indent + 1 }
  | .shallower => { page with indent := page.indent - 1 }

/-- Takes pieces one after the other. -/
def addAll (format : Format) (page : Page) (pieces : List Piece) : Page :=
  pieces.foldl (add format) page

end Page

/-- A finished text with the places of the names declared in it. -/
structure Rendered where
  text : String
  symbols : SymbolIndex
deriving DecidableEq

/-- The text of a source file. -/
def SourceUnit.render (unit : SourceUnit) (format : Format) : Rendered :=
  let page := Page.empty.addAll format unit.pieces
  ⟨page.text, page.symbols⟩

/-- The text of declarations one right after the other. -/
def renderNodes (nodes : List Node) (format : Format) : Rendered :=
  let page := Page.empty.addAll format (Node.stackedPieces nodes)
  ⟨page.text, page.symbols⟩

end Syntax
end AssemblyAtlas
