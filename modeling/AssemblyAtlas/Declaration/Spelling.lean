import AssemblyAtlas.Declaration.TypeSystem

/-!
# Spelling types

Signatures of metadata become types of source code.

* `sourceName` is the name of a type in source code: dots stand between nested types, and the marks
  of generic arity are left out;
* `TypeSystem.typeNode` spells a signature, `TypeSystem.expression` a constant and
  `TypeSystem.mark` an attribute.
-/

namespace AssemblyAtlas
namespace Declaration

open Assembly
open Syntax
open Text

/-- The name of a type in source code. -/
def sourceName (fullName : String) : String :=
  String.ofList (join ['.'] ((pieces '+' fullName.toList).map (before '`')))

/-- The type parameters that a signature may refer to. -/
structure Scope where
  ofType : List String
  ofMethod : List String

namespace Scope

/-- No type parameters. -/
def empty : Scope :=
  ⟨[], []⟩

/-- The type parameters of a type. -/
def type (definition : TypeDefinition) : Scope :=
  ⟨definition.typeParameters, []⟩

/-- The scope inside a method. -/
def method (scope : Scope) (definition : MethodDefinition) : Scope :=
  { scope with ofMethod := definition.typeParameters }

end Scope

/-- The name of a type parameter; one that is not in scope is named by its index. -/
def parameterName (names : List String) (letter : String) (index : UInt32) : String :=
  names.getD index.toNat (letter ++ String.ofList (decimal index.toNat))

namespace TypeSystem

variable (system : TypeSystem)

/-- The source name of the type behind a reference. -/
def referenceName : TypeReference → String
  | .external _ space name => qualified space (sourceName name)
  | .definition token => sourceName (system.resolve (.definition token)).fullName

/-- The named type behind a reference. -/
def named (reference : TypeReference) (arguments : List TypeNode) : TypeNode :=
  .named (system.referenceName reference) arguments (system.resolve reference)

mutual

/-- Spells a signature. Only named types take arguments. -/
def typeNode (scope : Scope) : Signature → TypeNode
  | .primitive kind => .primitive kind.keyword
  | .reference type => system.named type []
  | .value type => system.named type []
  | .generic (.reference type) arguments => system.named type (typeNodes scope arguments)
  | .generic (.value type) arguments => system.named type (typeNodes scope arguments)
  | .generic base _ => typeNode scope base
  | .vector element => .array (typeNode scope element) 1
  | .array element rank => .array (typeNode scope element) rank
  | .pointer target => .pointer (typeNode scope target)
  | .byReference target => .byReference (typeNode scope target)
  | .typeParameter index => .parameter (parameterName scope.ofType "T" index)
  | .methodParameter index => .parameter (parameterName scope.ofMethod "M" index)

/-- Spells signatures. -/
def typeNodes (scope : Scope) : List Signature → List TypeNode
  | [] => []
  | signature :: rest => typeNode scope signature :: typeNodes scope rest

end

mutual

/-- Spells a constant. -/
def expression (scope : Scope) : Constant → Expression
  | .type signature => .typeOf (system.typeNode scope signature)
  | .array elements => .array (expressions scope elements)
  | .bool value => .constant (.bool value)
  | .char value => .constant (.char value)
  | .int value => .constant (.int value)
  | .natural value => .constant (.natural value)
  | .float bits => .constant (.float bits)
  | .string value => .constant (.string value)
  | .null => .constant .null

/-- Spells constants. -/
def expressions (scope : Scope) : List Constant → List Expression
  | [] => []
  | value :: rest => expression scope value :: expressions scope rest

end

/-- Spells an attribute. -/
def mark (target : Option String) (custom : CustomAttribute) : Mark where
  target := target
  fullName := custom.fullName
  type := .named (sourceName custom.fullName) [] (system.resolve custom.type)
  arguments := custom.arguments.map (system.expression .empty)
  named := custom.named.map fun argument => (argument.1, system.expression .empty argument.2)

/-- Spells the attributes of a declaration. -/
def marks (customs : List CustomAttribute) : List Mark :=
  customs.map (system.mark none)

end TypeSystem

end Declaration
end AssemblyAtlas
