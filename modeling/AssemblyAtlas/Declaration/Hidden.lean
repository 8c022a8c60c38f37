import AssemblyAtlas.Assembly.Module
import AssemblyAtlas.Declaration.Settings

/-!
# Hidden definitions

Which definitions of a module are left out of the sources because a compiler generated them. A
definition counts as generated if an attribute says so or if its name cannot be written in source
code; what it was generated for shows in its name.

* `typeHidden`, `fieldHidden` and `methodHidden` decide for a definition;
* `memberHidden` decides for a token of a module.
-/

namespace AssemblyAtlas
namespace Declaration

open Assembly

/-- The part occurs somewhere in the text. -/
def occursIn (part : List Char) : List Char → Bool
  | [] => part.isEmpty
  | c :: rest => part.isPrefixOf (c :: rest) || occursIn part rest

/-- The name starts with the text. -/
def startsWith (name part : String) : Bool :=
  part.toList.isPrefixOf name.toList

/-- The name contains the text. -/
def contains (name part : String) : Bool :=
  occursIn part.toList name.toList

/-- The name cannot be written in source code. -/
def hasGeneratedName (name : String) : Bool :=
  startsWith name "<" || contains name "<>"

/-- A compiler generated the definition with the attributes and the name. -/
def isGenerated (attributes : List CustomAttribute) (name : String) : Bool :=
  hasGeneratedName name || markedGenerated attributes

/-- One of the interfaces refers to the named type of another assembly. -/
def implements (type : TypeDefinition) (space name : String) : Bool :=
  type.interfaces.any fun interface =>
    interface.references.any fun reference =>
      match reference with
      | .external _ otherSpace otherName => otherSpace == space && otherName == name
      | .definition _ => false

/-- The type is the machine of an asynchronous method. -/
def isAsyncMachine (type : TypeDefinition) : Bool :=
  implements type "System.Runtime.CompilerServices" "IAsyncStateMachine"

/-- The type is left out. -/
def typeHidden (concealment : Concealment) (type : TypeDefinition) : Bool :=
  let name := type.name
  let closure :=
    name == "<>c" || contains name "DisplayClass" || contains name "AnonStorey"
  let anonymous := hasGeneratedName name && contains name "AnonymousType"
  let machine := startsWith name "<" && contains name ">d__"
  let buffer := startsWith name "<" && contains name "__FixedBuffer"
  let initializers := startsWith name "<PrivateImplementationDetails>"
  isGenerated type.attributes name &&
    (concealment .anonymousMethods && closure
      || concealment .anonymousTypes && anonymous
      || machine &&
        (if isAsyncMachine type then concealment .asyncMachines else concealment .iterators)
      || concealment .fixedBuffers && buffer
      || concealment .arrayInitializers && initializers)

/-- The field is left out. -/
def fieldHidden (concealment : Concealment) (field : FieldDefinition) : Bool :=
  let backing := ">k__BackingField".toList.isSuffixOf field.name.toList
  let cache := startsWith field.name "CS$<>" || startsWith field.name "<>9"
  isGenerated field.attributes field.name &&
    (concealment .automaticProperties && backing || concealment .anonymousMethods && cache)

/-- The method is left out. -/
def methodHidden (concealment : Concealment) (method : MethodDefinition) : Bool :=
  concealment .anonymousMethods && isGenerated method.attributes method.name
    && startsWith method.name "<" && contains method.name ">b__"

/-- The token is that of a definition that is left out. -/
def memberHidden (concealment : Concealment) (module : Module) (token : Token) : Bool :=
  if token.isIn .typeDefinition then
    (module.type? token).any (typeHidden concealment)
  else if token.isIn .field then
    module.types.entries.any fun type =>
      type.fields.any fun field => field.token = token && fieldHidden concealment field
  else if token.isIn .method then
    module.types.entries.any fun type =>
      (type.method? token).any (methodHidden concealment)
  else
    false

end Declaration
end AssemblyAtlas
