import AssemblyAtlas.Proofs.Assembly.FullNames
import AssemblyAtlas.Proofs.Assembly.Tables
import AssemblyAtlas.Proofs.Declaration.References

/-!
# References that lead to definitions

What a type system says about the definition behind a reference is true: if it names a module and a
token, then a module with this identifier has a type with this token, and the type has the full name
that is told. This holds behind a forward too, since the module that a type has moved to is asked
for the same name.

* `TypeSystem.modules` are the modules of a type system, and `TypeSystem.Attributes` says that what
  is told of a definition holds in one of them;
* `TypeSystem.unknown_or_attributes` is about every reference;
* `naming_inverted_and_resolved` compares finding and naming in modules that are built.
-/

namespace AssemblyAtlas
namespace Declaration

open Assembly
open Syntax

namespace TypeSystem

variable {system : TypeSystem}

/-- The module that is decompiled and those it refers to. -/
def modules (system : TypeSystem) : List Module :=
  system.main :: system.referenced

/-- A module of the type system has the identifier, a type with the token, and for it the full name
that are told. -/
def Attributes (system : TypeSystem) (resolved : ResolvedType) : Prop :=
  ∃ module ∈ system.modules, ∃ type,
    resolved.module = some module.mvid
      ∧ resolved.token = some type.token
      ∧ module.type? type.token = some type
      ∧ module.fullName? type.token = some resolved.fullName

/-- What is told of a reference to a definition holds in the module itself. -/
theorem attributes_definition
    {token : Token}
    {fullName : String}
    (known : system.main.fullName? token = some fullName) :
    system.Attributes (system.resolve (.definition token)) := by
  obtain ⟨type, isType⟩ := Module.exists_type?_of_fullName? known
  obtain rfl := TypeTable.token_of_find? isType
  rw [resolve, known]
  exact ⟨system.main, List.mem_cons_self, type, rfl, rfl, isType, known⟩

/-- What is told of a reference by name holds in the module where the name was looked up last, be it
that of the assembly or the one that the type has moved to. -/
theorem attributes_external
    (own : ∀ module ∈ system.referenced, ListsOwn module.types.entries)
    {assembly space name : String}
    {module : Module}
    {type : TypeDefinition}
    (external : system.external? assembly space name = some (module, type)) :
    system.Attributes (system.resolve (.external assembly space name)) := by
  obtain ⟨isReferenced, found⟩ := of_external? external
  have lists := own module isReferenced
  obtain ⟨member, -⟩ := Module.ascends_of_findType? lists found
  simp only [resolve, external]
  exact ⟨module, List.mem_cons_of_mem _ isReferenced, type, rfl, rfl, Module.type?_token member,
    Module.fullName?_of_findType? lists found⟩

/-- Of a reference either neither module nor token is known, or what is known holds. -/
theorem unknown_or_attributes
    (own : ∀ module ∈ system.referenced, ListsOwn module.types.entries)
    (reference : TypeReference) :
    ((system.resolve reference).module = none ∧ (system.resolve reference).token = none)
      ∨ system.Attributes (system.resolve reference) := by
  cases reference with
  | definition token =>
      cases known : system.main.fullName? token with
      | some fullName => exact .inr (attributes_definition known)
      | none =>
          refine .inl ?_
          rw [resolve, known]
          exact ⟨rfl, rfl⟩
  | external assembly space name =>
      cases external : system.external? assembly space name with
      | some found => exact .inr (attributes_external own external)
      | none =>
          refine .inl ?_
          simp only [resolve, external]
          exact ⟨rfl, rfl⟩

end TypeSystem

/-- A module that comes about by steps, each with a parent that was made before. -/
def IsBuilt (module : Module) : Prop :=
  ∃ builder : Builder, builder.Made ∧ builder.build = module

theorem IsBuilt.nesting
    {module : Module}
    (built : IsBuilt module) :
    WellNested module.types.entries := by
  obtain ⟨builder, made, rfl⟩ := built
  exact made.sound.nesting_build

/-- What orderly operations make of a new builder is built. -/
theorem isBuilt_of_performAll
    {name : String}
    {identity : Identity}
    {operations : List Operation}
    (orderly : (Builder.new name identity).Orderly operations)
    (few : rowsTaken operations .typeDefinition < Token.rowLimit)
    {builder : Builder}
    (performed : (Builder.new name identity).performAll operations = .ok builder) :
    IsBuilt builder.build := by
  obtain ⟨other, same, made, -⟩ := (Builder.Made.new name identity).exists_performAll orderly few
  obtain rfl := Except.ok.inj (performed.symm.trans same)
  exact ⟨builder, made, rfl⟩

/-- In modules that are built a found type has the full name by which it was found; where names tell
types apart, the namespace of the outermost type and the names on a path lead to exactly the type at
its end. So a type system of such modules attributes no reference wrongly. -/
theorem naming_inverted_and_resolved :
    (∀ module, IsBuilt module →
      (∀ space name type, module.findType? space name = some type →
          module.fullName? type.token = some (qualified space name))
        ∧ (module.NamesDistinct →
            ∀ type ∈ module.types.entries, ∃ path,
              module.typePath? type.token = some path
                ∧ module.findType? (Module.pathSpace path) (Module.nestedName path) = some type))
      ∧ ∀ system : TypeSystem, (∀ module ∈ system.modules, IsBuilt module) → ∀ reference,
          ((system.resolve reference).module = none ∧ (system.resolve reference).token = none)
            ∨ system.Attributes (system.resolve reference) := by
  refine ⟨fun module built => ⟨fun space name type found => ?_, fun names type member => ?_⟩,
    fun system built reference => ?_⟩
  · exact Module.fullName?_of_findType? built.nesting.listsOwn found
  · obtain ⟨path, isPath⟩ := Module.exists_typePath? built.nesting member
    exact ⟨path, isPath, Module.findType?_of_typePath? built.nesting names member isPath⟩
  · exact TypeSystem.unknown_or_attributes
      (fun module isReferenced => (built module (List.mem_cons_of_mem _ isReferenced)).nesting.listsOwn)
      reference

/-- An assembly that forwards a type. -/
def movedSample : List Operation :=
  [.identify (.ofBytes [1]), .step (.forward "Shop" "Order" (.ofName "Store" .unspecified))]

/-- The assembly that the type has moved to, with another type inside it. -/
def storeSample : List Operation :=
  [.identify (.ofBytes [2]),
    .step (.addType "Shop" "Order" []),
    .step (.addNested (.ofRow .typeDefinition 2) "Line" [])]

/-- The type is found in the assembly that it has moved to, and has there the name by which it was
asked for; the type inside it is found by its path. -/
theorem naming_inverted_and_resolved_storeSample :
    ∃ moved store : Builder,
      (Builder.new "Shop.dll" (.ofName "Shop" .unspecified)).performAll movedSample = .ok moved
        ∧ (Builder.new "Store.dll" (.ofName "Store" .unspecified)).performAll storeSample = .ok store
        ∧ (∀ module ∈ (TypeSystem.mk moved.build [moved.build, store.build]).modules, IsBuilt module)
        ∧ store.build.NamesDistinct
        ∧ (TypeSystem.mk moved.build [moved.build, store.build]).resolve
            (.external "SHOP" "Shop" "Order")
          = ⟨some store.build.mvid, some (.ofRow .typeDefinition 2), "Shop.Order"⟩
        ∧ (TypeSystem.mk moved.build [moved.build, store.build]).Attributes
            ⟨some store.build.mvid, some (.ofRow .typeDefinition 2), "Shop.Order"⟩
        ∧ ∃ type path, store.build.type? (.ofRow .typeDefinition 3) = some type
          ∧ store.build.typePath? (.ofRow .typeDefinition 3) = some path
          ∧ Module.nestedName path = "Order+Line"
          ∧ store.build.findType? "Shop" "Order+Line" = some type
          ∧ store.build.fullName? type.token = some "Shop.Order+Line" := by
  have passes : ((Builder.new "Shop.dll" (.ofName "Shop" .unspecified)).performAll
      movedSample).toOption.any (fun moved =>
        ((Builder.new "Store.dll" (.ofName "Store" .unspecified)).performAll
          storeSample).toOption.any (fun store =>
            decide (∀ type ∈ store.build.types.entries, '+' ∉ type.name.toList)
              && decide (∀ left ∈ store.build.types.entries, ∀ right ∈ store.build.types.entries,
                left.enclosing = right.enclosing →
                  (left.enclosing = none → left.space = right.space) →
                    left.name = right.name → left.token = right.token)
              && decide ((TypeSystem.mk moved.build [moved.build, store.build]).resolve
                  (.external "SHOP" "Shop" "Order")
                = ⟨some store.build.mvid, some (.ofRow .typeDefinition 2), "Shop.Order"⟩)
              && (store.build.typePath? (.ofRow .typeDefinition 3)).any (fun path =>
                decide (Module.pathSpace path = "Shop"
                  ∧ Module.nestedName path = "Order+Line")))) = true := by
    decide +kernel
  obtain ⟨moved, isMoved, passes⟩ := Success.exists_ok_of_any passes
  obtain ⟨store, isStore, passes⟩ := Success.exists_ok_of_any passes
  simp only [Bool.and_eq_true, decide_eq_true_iff, Option.any_eq_true] at passes
  obtain ⟨⟨⟨plain, unique⟩, resolved⟩, path, isPath, space, names⟩ := passes
  have built : ∀ module ∈ (TypeSystem.mk moved.build [moved.build, store.build]).modules,
      IsBuilt module := by
    have isMovedBuilt := isBuilt_of_performAll (by decide +kernel) (by decide) isMoved
    have isStoreBuilt := isBuilt_of_performAll (by decide +kernel) (by decide) isStore
    intro module isModule
    simp only [TypeSystem.modules, List.mem_cons, List.not_mem_nil, or_false] at isModule
    rcases isModule with rfl | rfl | rfl
    · exact isMovedBuilt
    · exact isMovedBuilt
    · exact isStoreBuilt
  have isStoreBuilt := built store.build (by simp [TypeSystem.modules])
  obtain ⟨type, known, -⟩ := Module.typePath?_eq_some_iff.1 isPath
  have own := TypeTable.token_of_find? known
  obtain ⟨named, found⟩ := naming_inverted_and_resolved.1 store.build isStoreBuilt
  obtain ⟨other, isOther, leads⟩ := found ⟨plain, unique⟩ type (TypeTable.mem_of_find? known)
  rw [own, isPath] at isOther
  obtain rfl := Option.some.inj isOther
  rw [space, names] at leads
  have attributed := naming_inverted_and_resolved.2 _ built (.external "SHOP" "Shop" "Order")
  rw [resolved] at attributed
  refine ⟨moved, store, isMoved, isStore, built, ⟨plain, unique⟩, resolved,
    attributed.resolve_left (by simp), type, path, known, isPath, names, leads, ?_⟩
  exact named "Shop" "Order+Line" type leads

end Declaration
end AssemblyAtlas
