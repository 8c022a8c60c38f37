import AssemblyAtlas.Assembly.Identity
import AssemblyAtlas.Assembly.SymbolKey
import AssemblyAtlas.Assembly.TypeTable
import AssemblyAtlas.Guid

/-!
# Modules

A module holds the type definitions of an assembly file and the assembly's identity, references
and forwarded types.

* `Module.typePath?` and `Module.outermost?` follow the enclosing types of a nested type;
* `Module.fullName?` names a type and `Module.findType?` finds it by its name;
* `Module.typeKey?`, `Module.memberKey?` and `Module.resolve?` go between tokens and symbol keys.
-/

namespace AssemblyAtlas
namespace Assembly

open Text

/-- The assembly that a module belongs to. -/
structure AssemblyDefinition where
  identity : Identity
  attributes : List CustomAttribute

/-- A type that has moved to another assembly. -/
structure ForwardedType where
  space : String
  name : String
  destination : Identity
deriving DecidableEq

/-- The metadata of an assembly file. -/
structure Module where
  name : String
  /-- The identifier of this version of the module. -/
  mvid : Guid
  assembly : Option AssemblyDefinition
  /-- The file that the module was read from. -/
  location : Option String
  types : TypeTable
  references : List Identity
  attributes : List CustomAttribute
  forwards : List ForwardedType

/-- A text without the leading parts that are copies of a given one, up to a number of copies. -/
def dropLeads (lead : List Char) : Nat → List Char → List Char
  | 0, text => text
  | count + 1, text =>
      match afterLead? lead text with
      | some rest => dropLeads lead count rest
      | none => text

/-- A text without the copies of an ending at its end. -/
def withoutEnding (ending text : String) : String :=
  String.ofList (dropLeads ending.toList.reverse text.length text.toList.reverse).reverse

namespace Module

/-- The assembly's identity; without an assembly the file name makes one. -/
def identity (module : Module) : Identity :=
  match module.assembly with
  | some assembly => assembly.identity
  | none =>
      .ofName (withoutEnding ".netmodule" (withoutEnding ".dll" module.name)) .unspecified

/-- The attributes of the assembly. -/
def assemblyAttributes (module : Module) : List CustomAttribute :=
  (module.assembly.map (·.attributes)).getD []

/-- The assembly has signatures only. -/
def isReferenceAssembly (module : Module) : Bool :=
  hasAttribute module.assemblyAttributes "System.Runtime.CompilerServices"
    "ReferenceAssemblyAttribute"

/-- The definition with a token. -/
def type? (module : Module) (token : Token) : Option TypeDefinition :=
  module.types.find? token

/-- The types that are not nested, in the order of their tokens. -/
def topLevelTypes (module : Module) : List TypeDefinition :=
  module.types.entries.filter (!·.isNested)

/-- Climbs from a type to the one without an enclosing type, with a limited number of steps. -/
def climb (module : Module) : Nat → TypeDefinition → Option Token
  | 0, _ => none
  | steps + 1, type =>
      match type.enclosing with
      | none => some type.token
      | some parent => (module.type? parent).bind (module.climb steps)

/-- The token of the type around all others that a type stands in. A chain of enclosing types that
breaks off or comes back to itself has none. -/
def outermost? (module : Module) (token : Token) : Option Token :=
  (module.type? token).bind (module.climb module.types.size)

/-- The types from the outermost one down to a type, with a limited number of steps. -/
def ascend (module : Module) : Nat → TypeDefinition → Option (List TypeDefinition)
  | 0, _ => none
  | steps + 1, type =>
      match type.enclosing with
      | none => some [type]
      | some parent =>
          ((module.type? parent).bind (module.ascend steps)).map (· ++ [type])

/-- The types from the outermost one down to a type. A chain of enclosing types that breaks off or
comes back to itself has none. -/
def typePath? (module : Module) (token : Token) : Option (List TypeDefinition) :=
  (module.type? token).bind (module.ascend module.types.size)

/-- The namespace of a type path, that of its outermost type. -/
def pathSpace (path : List TypeDefinition) : String :=
  (path.head?.map (·.space)).getD ""

/-- The names of the types around a type and its own, with plus signs between them and the
namespace before them. -/
def fullName? (module : Module) (token : Token) : Option String :=
  (module.typePath? token).map fun path =>
    qualified (pathSpace path) (String.ofList (join ['+'] (path.map (·.name.toList))))

/-- The first nested type of a type with a name. -/
def nestedNamed?
    (module : Module)
    (type : TypeDefinition)
    (name : String) :
    Option TypeDefinition :=
  (type.nested.filterMap module.type?).find? (·.name = name)

/-- Goes down from a type along names of nested types. -/
def descend? (module : Module) : TypeDefinition → List String → Option TypeDefinition
  | type, [] => some type
  | type, name :: names =>
      (module.nestedNamed? type name).bind (module.descend? · names)

/-- The first top-level type with a namespace and a name. -/
def topLevelNamed? (module : Module) (space name : String) : Option TypeDefinition :=
  module.types.entries.find? fun type =>
    !type.isNested && type.space == space && type.name == name

/-- Finds a type by its namespace and the names of the types around it and its own, with plus
signs between them. -/
def findType? (module : Module) (space name : String) : Option TypeDefinition :=
  match (pieces '+' name.toList).map String.ofList with
  | [] => none
  | outer :: names => (module.topLevelNamed? space outer).bind (module.descend? · names)

/-- The first forward for a type. -/
def forwarded? (module : Module) (space name : String) : Option ForwardedType :=
  module.forwards.find? fun forward => forward.space == space && forward.name == name

/-- The symbol key of a type. -/
def typeKey? (module : Module) (token : Token) : Option SymbolKey :=
  (module.typePath? token).map fun path =>
    .ofTypePath (pathSpace path) (path.map (·.name))

/-- The symbol key of a member of a type. -/
def memberKey?
    (module : Module)
    (declaring : Token)
    (kind : SymbolKind)
    (name : String) :
    Option SymbolKey :=
  (module.typeKey? declaring).map (·.memberKey kind name)

/-- The token of the type that a symbol key names, or of the type of its member. -/
def resolve? (module : Module) (key : SymbolKey) : Option Token :=
  (module.findType? key.space key.typeName).map (·.token)

end Module

end Assembly
end AssemblyAtlas
