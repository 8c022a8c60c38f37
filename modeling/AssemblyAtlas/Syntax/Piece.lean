import AssemblyAtlas.Syntax.Literal
import AssemblyAtlas.Syntax.Tree

/-!
# Pieces of source text

A syntax tree is laid out as a list of pieces: words, declared names with their keys, ends of
lines, and changes of the indentation. What the pieces look like on a page is not decided here.

* `TypeNode.spelling` and `Expression.spelling` are the texts that stand within one line;
* `Node.pieces` lays out a declaration and `SourceUnit.pieces` a whole file.
-/

namespace AssemblyAtlas
namespace Syntax

open Assembly
open Text

/-- A piece of source text. -/
inductive Piece where
  | word (text : String)
  /-- The name of a declaration, with the declaration's key. -/
  | name (key : SymbolKey) (text : String)
  | endLine
  | deeper
  | shallower
deriving DecidableEq

mutual

/-- The text of a type. -/
def TypeNode.spelling : TypeNode → String
  | .primitive keyword => keyword
  | .named name [] _ => name
  | .named name (first :: rest) _ =>
      name ++ "<" ++ first.spelling ++ TypeNode.furtherSpelling rest ++ ">"
  | .array element rank =>
      element.spelling ++ "[" ++ String.ofList (List.replicate (rank.toNat - 1) ',') ++ "]"
  | .pointer target => target.spelling ++ "*"
  | .byReference target => "ref " ++ target.spelling
  | .parameter name => name

/-- The texts of types, each after a comma. -/
def TypeNode.furtherSpelling : List TypeNode → String
  | [] => ""
  | type :: rest => ", " ++ type.spelling ++ TypeNode.furtherSpelling rest

end

mutual

/-- The text of an expression. -/
def Expression.spelling : Expression → String
  | .constant value => String.ofList (literal value)
  | .typeOf type => "typeof(" ++ type.spelling ++ ")"
  | .array [] => String.ofList (arrayStart ++ arrayEnd)
  | .array (first :: rest) =>
      String.ofList arrayStart ++ first.spelling ++ Expression.furtherSpelling rest
        ++ String.ofList arrayEnd

/-- The texts of expressions, each after a comma. -/
def Expression.furtherSpelling : List Expression → String
  | [] => ""
  | expression :: rest => ", " ++ expression.spelling ++ Expression.furtherSpelling rest

end

/-- The name by which source code refers to an attribute: the ending is left out, unless nothing
or a dot would be left at the end. -/
def attributeName (name : String) : String :=
  match afterLead? "Attribute".toList.reverse name.toList.reverse with
  | none | some [] | some ('.' :: _) => name
  | some short => String.ofList short.reverse

/-- The text of an attribute. -/
def Mark.spelling (mark : Mark) : String :=
  let target := mark.target.elim "" (· ++ ": ")
  let name :=
    match mark.type with
    | .named name _ _ => name
    | _ => mark.fullName
  let arguments :=
    mark.arguments.map (·.spelling) ++
      mark.named.map fun argument => argument.1 ++ " = " ++ argument.2.spelling
  let list := if arguments.isEmpty then "" else "(" ++ String.intercalate ", " arguments ++ ")"
  "[" ++ target ++ attributeName name ++ list ++ "]"

/-- Attributes, each on its own line. -/
def Mark.pieces (marks : List Mark) : List Piece :=
  marks.flatMap fun mark => [.word mark.spelling, .endLine]

/-- Modifiers, each before a blank. -/
def modifierPieces (modifiers : List String) : List Piece :=
  modifiers.map fun modifier => .word (modifier ++ " ")

/-- Type parameters between angle brackets. -/
def typeParameterPieces (names : List String) : List Piece :=
  if names.isEmpty then
    []
  else
    [.word ("<" ++ String.intercalate ", " names ++ ">")]

/-- Parameters between round brackets. -/
def parameterPieces (parameters : List ParameterNode) : List Piece :=
  let texts := parameters.map fun parameter => parameter.type.spelling ++ " " ++ parameter.name
  [.word ("(" ++ String.intercalate ", " texts ++ ")")]

/-- A line that opens a block. -/
def opening : List Piece :=
  [.word "\x7b", .endLine, .deeper]

/-- A line that closes a block. -/
def closing : List Piece :=
  [.shallower, .word "\x7d", .endLine]

/-- The end of a declaration without a block. -/
def semicolon : List Piece :=
  [.word ";", .endLine]

/-- A statement on its own line. -/
def Statement.pieces : Statement → List Piece
  | .declareLocal type name => .word (type.spelling ++ " " ++ name) :: semicolon
  | .throwNull => [.word "throw null;", .endLine]

/-- A body as a block, or the end of a declaration without a body. -/
def Body.pieces (body : Body) : List Piece :=
  match body with
  | none => semicolon
  | some statements => .endLine :: opening ++ statements.flatMap (·.pieces) ++ closing

/-- The value after a declared name. -/
def valuePieces (value : Option Expression) : List Piece :=
  value.elim [] fun expression => [.word (" = " ++ expression.spelling)]

/-- The accessors of a property: on one line if none has a body, otherwise as a block. -/
def accessorPieces (accessors : List (String × Accessor)) : List Piece :=
  if accessors.all (·.2.body.isNone) then
    .word " \x7b" :: accessors.map (fun accessor => .word (" " ++ accessor.1 ++ ";"))
      ++ [.word " \x7d", .endLine]
  else
    .endLine :: opening
      ++ accessors.flatMap (fun accessor => .word accessor.1 :: Body.pieces accessor.2.body)
      ++ closing

/-- A field on its own line. -/
def FieldNode.pieces (field : FieldNode) : List Piece :=
  Mark.pieces field.marks ++ modifierPieces field.modifiers
    ++ [.word (field.type.spelling ++ " "), .name field.symbol field.name]
    ++ valuePieces field.value ++ semicolon

/-- A member of an enum on its own line. -/
def EnumMemberNode.pieces (member : EnumMemberNode) : List Piece :=
  Mark.pieces member.marks ++ [.name member.symbol member.name] ++ valuePieces member.value
    ++ [.word ",", .endLine]

/-- A method with its body. -/
def MethodNode.pieces (method : MethodNode) : List Piece :=
  Mark.pieces method.marks ++ modifierPieces method.modifiers
    ++ method.returns.elim [] (fun type => [.word (type.spelling ++ " ")])
    ++ [.name method.symbol method.name] ++ typeParameterPieces method.typeParameters
    ++ parameterPieces method.parameters ++ Body.pieces method.body

/-- A property with its accessors. -/
def PropertyNode.pieces (property : PropertyNode) : List Piece :=
  let accessors :=
    property.getter.toList.map (("get", ·)) ++ property.setter.toList.map (("set", ·))
  Mark.pieces property.marks ++ modifierPieces property.modifiers
    ++ [.word (property.type.spelling ++ " "), .name property.symbol property.name]
    ++ accessorPieces accessors

/-- An event on its own line. -/
def EventNode.pieces (event : EventNode) : List Piece :=
  Mark.pieces event.marks ++ modifierPieces event.modifiers
    ++ [.word ("event " ++ event.type.spelling ++ " "), .name event.symbol event.name]
    ++ semicolon

/-- The attributes, modifiers and keyword of a type declaration. -/
def TypeHead.leadPieces (head : TypeHead) : List Piece :=
  Mark.pieces head.marks ++ modifierPieces head.modifiers
    ++ [.word (head.kind.keyword ++ " ")]

/-- The declared name of a type with its type parameters. -/
def TypeHead.namePieces (head : TypeHead) : List Piece :=
  .name head.symbol head.name :: typeParameterPieces head.typeParameters

/-- The base types after a colon. -/
def basePieces (bases : List TypeNode) : List Piece :=
  match bases with
  | [] => []
  | first :: rest => [.word (" : " ++ first.spelling ++ TypeNode.furtherSpelling rest)]

/-- A delegate on one line. -/
def TypeHead.delegatePieces (head : TypeHead) (delegate : DelegateNode) : List Piece :=
  head.leadPieces ++ [.word (delegate.returns.spelling ++ " ")] ++ head.namePieces
    ++ parameterPieces delegate.parameters ++ semicolon

/-- The lines of a type declaration before its members. -/
def TypeHead.blockPieces (head : TypeHead) : List Piece :=
  head.leadPieces ++ head.namePieces ++ basePieces head.bases ++ [.endLine] ++ opening

mutual

/-- A declaration with the declarations inside it. Those of a delegate are left out. -/
def Node.pieces : Node → List Piece
  | .space name members =>
      .word ("namespace " ++ name) :: .endLine :: opening ++ Node.spacedPieces members ++ closing
  | .type head members =>
      match head.delegate with
      | some delegate => head.delegatePieces delegate
      | none =>
          if head.kind = .enumType then
            head.blockPieces ++ Node.stackedPieces members ++ closing
          else
            head.blockPieces ++ Node.spacedPieces members ++ closing
  | .field declaration => declaration.pieces
  | .enumMember declaration => declaration.pieces
  | .method declaration => declaration.pieces
  | .property declaration => declaration.pieces
  | .event declaration => declaration.pieces

/-- Declarations with an empty line between each two neighbours. -/
def Node.spacedPieces : List Node → List Piece
  | [] => []
  | node :: rest => node.pieces ++ Node.furtherPieces rest

/-- Declarations with an empty line before each. -/
def Node.furtherPieces : List Node → List Piece
  | [] => []
  | node :: rest => .endLine :: node.pieces ++ Node.furtherPieces rest

/-- Declarations without empty lines between them. -/
def Node.stackedPieces : List Node → List Piece
  | [] => []
  | node :: rest => node.pieces ++ Node.stackedPieces rest

end

/-- A source file: its attributes, an empty line, and its declarations. -/
def SourceUnit.pieces (unit : SourceUnit) : List Piece :=
  Mark.pieces unit.marks
    ++ (if unit.marks.isEmpty ∨ unit.members.isEmpty then [] else [.endLine])
    ++ Node.spacedPieces unit.members

end Syntax
end AssemblyAtlas
