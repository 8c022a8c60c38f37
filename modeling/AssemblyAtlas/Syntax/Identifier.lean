import AssemblyAtlas.Text.CharClass
import AssemblyAtlas.Text.Split

/-!
# Identifiers

Names from metadata become identifiers of C#. A character that cannot stand in an identifier
becomes an underscore, and a keyword gets an at sign before it.
-/

namespace AssemblyAtlas
namespace Syntax

open Text

/-- The keywords of C#. -/
def keywords : List String := [
    "abstract", "as", "base", "bool", "break", "byte", "case", "catch", "char", "checked",
    "class", "const", "continue", "decimal", "default", "delegate", "do", "double", "else",
    "enum", "event", "explicit", "extern", "false", "finally", "fixed", "float", "for",
    "foreach", "goto", "if", "implicit", "in", "int", "interface", "internal", "is", "lock",
    "long", "namespace", "new", "null", "object", "operator", "out", "override", "params",
    "private", "protected", "public", "readonly", "ref", "return", "sbyte", "sealed", "short",
    "sizeof", "stackalloc", "static", "string", "struct", "switch", "this", "throw", "true",
    "try", "typeof", "uint", "ulong", "unchecked", "unsafe", "ushort", "using", "virtual",
    "void", "volatile", "while"]

/-- The character may stand in an identifier. -/
def isIdentifierChar (c : Char) : Bool :=
  isAlphanumeric c || c == '_'

/-- The characters of a name with the others replaced, and an underscore before a leading digit or
in place of nothing. -/
def identifierChars (name : List Char) : List Char :=
  let chars := name.map fun c => if isIdentifierChar c then c else '_'
  match chars with
  | [] => ['_']
  | c :: _ => if c.isDigit then '_' :: chars else chars

/-- The identifier that stands for a name. -/
def identifier (name : String) : String :=
  let plain := String.ofList (identifierChars name.toList)
  if plain ∈ keywords then
    String.ofList ('@' :: plain.toList)
  else
    plain

/-- The identifiers that stand for the parts of a dotted name. -/
def dottedIdentifier (name : String) : String :=
  String.ofList (join ['.']
    ((pieces '.' name.toList).map fun part => (identifier (String.ofList part)).toList))

end Syntax
end AssemblyAtlas
