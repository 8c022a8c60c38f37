import AssemblyAtlas.Assembly.Attribute
import AssemblyAtlas.Assembly.Definition
import AssemblyAtlas.Assembly.SymbolKey
import AssemblyAtlas.Guid

/-!
# Syntax trees

The declarations of a source file as a tree. Every place that names a type holds a `TypeNode`, and
a named type carries what is known about the definition behind it.

A declaration is a `Node`. All of a declaration but the members inside it stands in a record of its
own, so the only recursion of a node is into its members.
-/

namespace AssemblyAtlas
namespace Syntax

open Assembly

/-- The definition behind a named type, as far as it is known. -/
structure ResolvedType where
  /-- The identifier of the module that defines the type. -/
  module : Option Guid
  token : Option Token
  fullName : String
deriving DecidableEq

namespace ResolvedType

/-- Nothing is known but the name. -/
def unknown (fullName : String) : ResolvedType :=
  ⟨none, none, fullName⟩

/-- The definition's token, if the module with the identifier defines the type. -/
def definitionIn? (resolved : ResolvedType) (mvid : Guid) : Option Token :=
  if resolved.module = some mvid then
    resolved.token
  else
    none

end ResolvedType

/-- A type as source code names it. -/
inductive TypeNode where
  | primitive (keyword : String)
  | named (name : String) (arguments : List TypeNode) (resolved : ResolvedType)
  | array (element : TypeNode) (rank : UInt32)
  | pointer (target : TypeNode)
  | byReference (target : TypeNode)
  | parameter (name : String)

/-- A value in source code. -/
inductive Expression where
  | constant (value : Constant)
  | typeOf (type : TypeNode)
  | array (elements : List Expression)

/-- An attribute in source code. -/
structure Mark where
  /-- What the attribute applies to, if that is not the declaration after it. -/
  target : Option String
  fullName : String
  type : TypeNode
  arguments : List Expression
  named : List (String × Expression)

/-- A statement of a body. -/
inductive Statement where
  | declareLocal (type : TypeNode) (name : String)
  | throwNull

/-- The statements of a body; absent where a declaration has no body. -/
abbrev Body :=
  Option (List Statement)

/-- A parameter of a method or a delegate. -/
structure ParameterNode where
  type : TypeNode
  name : String

/-- What makes a type declaration that of a delegate. -/
structure DelegateNode where
  returns : TypeNode
  parameters : List ParameterNode

/-- A type declaration without its members. -/
structure TypeHead where
  symbol : SymbolKey
  token : Token
  kind : TypeKind
  modifiers : List String
  name : String
  typeParameters : List String
  bases : List TypeNode
  marks : List Mark
  delegate : Option DelegateNode

/-- The declaration of a field. -/
structure FieldNode where
  symbol : SymbolKey
  modifiers : List String
  type : TypeNode
  name : String
  value : Option Expression
  marks : List Mark

/-- The declaration of a member of an enum. -/
structure EnumMemberNode where
  symbol : SymbolKey
  name : String
  value : Option Expression
  marks : List Mark

/-- The declaration of a method; a constructor has no result type. -/
structure MethodNode where
  symbol : SymbolKey
  modifiers : List String
  returns : Option TypeNode
  name : String
  typeParameters : List String
  parameters : List ParameterNode
  body : Body
  marks : List Mark

/-- An accessor of a property. -/
structure Accessor where
  body : Body

/-- The declaration of a property. -/
structure PropertyNode where
  symbol : SymbolKey
  modifiers : List String
  type : TypeNode
  name : String
  getter : Option Accessor
  setter : Option Accessor
  marks : List Mark

/-- The declaration of an event. -/
structure EventNode where
  symbol : SymbolKey
  modifiers : List String
  type : TypeNode
  name : String
  marks : List Mark

/-- A declaration. -/
inductive Node where
  | space (name : String) (members : List Node)
  | type (head : TypeHead) (members : List Node)
  | field (declaration : FieldNode)
  | enumMember (declaration : EnumMemberNode)
  | method (declaration : MethodNode)
  | property (declaration : PropertyNode)
  | event (declaration : EventNode)

/-- The key of a declaration; a namespace has none. -/
def Node.symbol? : Node → Option SymbolKey
  | space _ _ => none
  | type head _ => some head.symbol
  | field declaration => some declaration.symbol
  | enumMember declaration => some declaration.symbol
  | method declaration => some declaration.symbol
  | property declaration => some declaration.symbol
  | event declaration => some declaration.symbol

/-- The declarations of a source file, after the attributes of the assembly and the module. -/
structure SourceUnit where
  marks : List Mark
  members : List Node

end Syntax
end AssemblyAtlas
