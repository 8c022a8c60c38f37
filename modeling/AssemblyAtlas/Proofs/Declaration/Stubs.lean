import AssemblyAtlas.Assembly.Builder
import AssemblyAtlas.Proofs.Declaration.SeveralTypes
import AssemblyAtlas.Proofs.Declaration.TypeNodes
import AssemblyAtlas.Proofs.Syntax.Bodies

/-!
# Stubs

Types are declared with or without bodies. Where they can be declared with them, leaving them out
gives the same tree without its bodies, and so the same keys.

* `Decompiler.typeNode?_stub` compares the declarations of a type and `Decompiler.declaration?_stub`
  those of a token;
* `Decompiler.types_stub` compares whole source files.
-/

namespace AssemblyAtlas
namespace Declaration

open Assembly
open Syntax

namespace Decompiler

variable {system : TypeSystem} {settings : Settings}

@[simp] theorem standard_settings (signaturesOnly : Bool) :
    (standard system settings signaturesOnly).settings = settings := rfl

@[simp] theorem standard_module (signaturesOnly : Bool) :
    (standard system settings signaturesOnly).module = system.main := rfl

/-! ## Members -/

theorem fieldNode?_withoutBodies
    (decompiler : Decompiler)
    (symbol : SymbolKey)
    (type : TypeDefinition)
    (field : FieldDefinition) :
    (decompiler.fieldNode? symbol type field).map Node.withoutBodies
      = decompiler.fieldNode? symbol type field := by
  unfold fieldNode?
  dsimp only
  split
  · rfl
  · split
    · split <;> rfl
    · rfl

theorem propertyNode?_stub
    (symbol : SymbolKey)
    (type : TypeDefinition)
    (property : PropertyDefinition) :
    (standard system settings true).propertyNode? symbol type property
      = ((standard system settings false).propertyNode? symbol type property).map
          Node.withoutBodies := by
  unfold propertyNode?
  cases property.getter.bind type.method? <;> cases property.setter.bind type.method? <;> rfl

theorem methodNode?_stub
    (symbol : SymbolKey)
    (type : TypeDefinition)
    (method : MethodDefinition) :
    (standard system settings true).methodNode? symbol type method
      = ((standard system settings false).methodNode? symbol type method).map
          Node.withoutBodies := by
  -- The test does not look at bodies, so both declarations take the same way.
  let Omitted (signaturesOnly : Bool) : Prop :=
    (type.isAccessor method.token
      || methodHidden (standard system settings signaturesOnly).settings.concealment method) = true
  have same : Omitted true = Omitted false := rfl
  unfold methodNode?
  by_cases h : Omitted false
  · rw [if_pos (same.mpr h), if_pos h]
    rfl
  · rw [if_neg (mt same.mp h), if_neg h]
    rfl

/-- The members that are not types are the same but for their bodies. -/
theorem memberNodes_stub
    (symbol : SymbolKey)
    (type : TypeDefinition) :
    (standard system settings true).memberNodes symbol type
      = ((standard system settings false).memberNodes symbol type).map Node.withoutBodies := by
  have fields (field : FieldDefinition) :
      (standard system settings true).fieldNode? symbol type field
        = ((standard system settings false).fieldNode? symbol type field).map
            Node.withoutBodies :=
    (fieldNode?_withoutBodies (standard system settings false) symbol type field).symm
  simp only [memberNodes, List.map_append, List.map_filterMap, List.map_map,
    funext (propertyNode?_stub symbol type), funext (methodNode?_stub symbol type), funext fields]
  rfl

/-! ## Types -/

/-- A nested type that is found is found without bodies too. -/
theorem nestedType?_stub
    {token : Token}
    {found : Option TypeDefinition}
    (isFound : (standard system settings false).nestedType? token = .ok found) :
    (standard system settings true).nestedType? token = .ok found := by
  unfold nestedType? at isFound ⊢
  simp only [standard_module, standard_settings] at isFound ⊢
  cases known : system.main.type? token with
  | none =>
      rw [known] at isFound
      cases isFound
  | some type =>
      rw [known] at isFound
      exact isFound

/-- Without bodies a type is declared by the same tree without its bodies. -/
theorem typeNode?_stub
    {depth : Nat}
    {type : TypeDefinition}
    {node : Node}
    (built : (standard system settings false).typeNode? depth type = .ok node) :
    (standard system settings true).typeNode? depth type = .ok node.withoutBodies := by
  induction depth generalizing type node with
  | zero => cases built
  | succ depth ih =>
      obtain ⟨symbol, known, h⟩ := typeNode?_succ_eq_ok_iff.1 built
      refine typeNode?_succ_eq_ok_iff.2 ⟨symbol, known, ?_⟩
      rcases h with ⟨isDelegate, rfl⟩ | ⟨notDelegate, nested, each, rfl⟩
      · exact Or.inl ⟨isDelegate, rfl⟩
      · refine Or.inr ⟨notDelegate, nested.map (Option.map Node.withoutBodies), ?_, ?_⟩
        · refine List.forall₂_map_right_iff.2 (each.imp fun token result became => ?_)
          cases became with
          | omitted isFound => exact .omitted (nestedType?_stub isFound)
          | shown isFound built => exact .shown (nestedType?_stub isFound) (ih built)
        · have shown : (nested.map (Option.map Node.withoutBodies)).filterMap id
              = (nested.filterMap id).map Node.withoutBodies := by
            rw [List.filterMap_map, List.map_filterMap]
            rfl
          rw [Node.withoutBodies_type, List.map_append, shown, memberNodes_stub]
          rfl

theorem declaration?_stub
    {token : Token}
    {declaration : String × Node}
    (built : (standard system settings false).declaration? token = .ok declaration) :
    (standard system settings true).declaration? token
      = .ok (declaration.1, declaration.2.withoutBodies) := by
  obtain ⟨path, type, isPath, isType, node, space⟩ := declaration?_eq_ok_iff.1 built
  exact declaration?_eq_ok_iff.2 ⟨path, type, isPath, isType, typeNode?_stub node, space⟩

/-! ## Source files -/

/-- Where types can be declared with bodies, leaving the bodies out gives the same source file
without them. Both files have the same keys, whatever their format. -/
theorem types_stub
    (system : TypeSystem)
    (settings : Settings)
    (tokens : List Token)
    (tree : SourceUnit)
    (built : (standard system settings false).types false tokens = .ok tree) :
    (standard system settings true).types false tokens = .ok tree.withoutBodies
      ∧ ∀ format key,
          key ∈ (tree.withoutBodies.render format).symbols.keys
            ↔ key ∈ (tree.render format).symbols.keys := by
  obtain ⟨declarations, each, rfl⟩ := (types_eq_ok_iff system settings false tokens tree).1 built
  constructor
  · refine (types_eq_ok_iff system settings true tokens _).2
      ⟨declarations.map fun declaration => (declaration.1, declaration.2.withoutBodies), ?_, ?_⟩
    · exact List.forall₂_map_right_iff.2 (each.imp fun _ _ => declaration?_stub)
    · rw [arranged_map Node.withoutBodies_space, List.map_map, SourceUnit.withoutBodies,
        Node.withoutBodiesOfAll_eq_map, List.map_map]
      exact congrArg (SourceUnit.mk []) (List.map_congr_left fun node _ =>
        node.polished_withoutBodies.symm)
  · intro format key
    rw [SourceUnit.mem_keys_render_iff, SourceUnit.mem_keys_render_iff, SourceUnit.Declares,
      SourceUnit.Declares, SourceUnit.declarations, SourceUnit.declarations,
      SourceUnit.withoutBodies, Node.declarationsOfAll_withoutBodies]

/-- A type with a property, whose accessor has a body, and a nested type with a method. -/
def orderSample : Module :=
  .ofTypes [
    { TypeDefinition.bare (.ofRow .typeDefinition 2) "Shop" "Order" with
      nested := [.ofRow .typeDefinition 3]
      methods := [(MethodDraft.named "get_Total").define (.ofRow .method 1)]
      properties :=
        [⟨.ofRow .property 1, "Total", .primitive .int32, some (.ofRow .method 1), none, []⟩] },
    { TypeDefinition.bare (.ofRow .typeDefinition 3) "" "Line" with
      enclosing := some (.ofRow .typeDefinition 2)
      methods :=
        [((MethodDraft.named "Clear").withLocal (.primitive .int32)).define (.ofRow .method 2)] }]

/-- The stub of this type differs from its declaration with bodies, but has the same keys. -/
theorem types_stub_orderSample :
    ∃ tree,
      (standard ⟨orderSample, []⟩ .default false).types false [.ofRow .typeDefinition 2] = .ok tree
        ∧ (tree.withoutBodies.render .default).text ≠ (tree.render .default).text
        ∧ (standard ⟨orderSample, []⟩ .default true).types false [.ofRow .typeDefinition 2]
            = .ok tree.withoutBodies
        ∧ ∀ key, key ∈ (tree.withoutBodies.render .default).symbols.keys
            ↔ key ∈ (tree.render .default).symbols.keys := by
  have passes : ((standard ⟨orderSample, []⟩ .default false).types false
      [.ofRow .typeDefinition 2]).toOption.any (fun tree =>
        decide ((tree.withoutBodies.render .default).text ≠ (tree.render .default).text))
      = true := by
    decide +kernel
  obtain ⟨tree, built, differ⟩ := Success.exists_ok_of_any passes
  obtain ⟨stub, keys⟩ := types_stub ⟨orderSample, []⟩ .default [.ofRow .typeDefinition 2] tree built
  exact ⟨tree, built, of_decide_eq_true differ, stub, keys .default⟩

end Decompiler

end Declaration
end AssemblyAtlas
