import AssemblyAtlas.Assembly.Module
import AssemblyAtlas.Syntax.Tree

/-!
# Type systems

The module that is decompiled together with the modules it refers to.

* `TypeSystem.resolve` finds the definition behind a type reference. A reference to another
  assembly is looked up in the first module with the assembly's name; if that module forwards the
  type, it is looked up once more, in the first module with the destination's name.
-/

namespace AssemblyAtlas
namespace Declaration

open Assembly
open Syntax
open Text

/-- A module and the modules it refers to. -/
structure TypeSystem where
  main : Module
  referenced : List Module

namespace TypeSystem

/-- The first referenced module of an assembly, whatever the case of the name. -/
def owner? (system : TypeSystem) (assembly : String) : Option Module :=
  system.referenced.find? fun module => sameIgnoringCase module.identity.name assembly

/-- The module that a module forwards a type to, if that module defines it. -/
def throughForward?
    (system : TypeSystem)
    (owner : Module)
    (space name : String) :
    Option (Module × TypeDefinition) := do
  let forward ← owner.forwarded? space name
  let destination ← system.referenced.find? (·.identity.name = forward.destination.name)
  let type ← destination.findType? space name
  return (destination, type)

/-- The module that defines a type of another assembly, with the definition. -/
def external?
    (system : TypeSystem)
    (assembly space name : String) :
    Option (Module × TypeDefinition) := do
  let owner ← system.owner? assembly
  match owner.findType? space name with
  | some type => return (owner, type)
  | none => system.throughForward? owner space name

/-- What is known about the definition behind a reference. -/
def resolve (system : TypeSystem) : TypeReference → ResolvedType
  | .definition token =>
      match system.main.fullName? token with
      | some fullName => ⟨some system.main.mvid, some token, fullName⟩
      | none => .unknown token.display
  | .external assembly space name =>
      let fullName := qualified space name
      match system.external? assembly space name with
      | some (module, type) => ⟨some module.mvid, some type.token, fullName⟩
      | none => .unknown fullName

end TypeSystem

end Declaration
end AssemblyAtlas
