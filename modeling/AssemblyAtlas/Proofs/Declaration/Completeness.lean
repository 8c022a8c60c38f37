import AssemblyAtlas.Proofs.Declaration.Concealed
import AssemblyAtlas.Proofs.Declaration.Once

/-!
# Completeness of declarations

The source file of top-level types of a module that is built declares each of them completely, in
the place of its namespace, and no type twice. Where names tell types apart, each key of the file
leads back to a type that the file declares.

* `Decompiler.exists_declared` builds the declarations one by one;
* `Decompiler.types_complete` is about the file.
-/

namespace AssemblyAtlas
namespace Declaration

open Assembly
open Syntax

/-- Whether a definition of the built module is hidden can be asked of its token. For fields and
methods this needs tokens that tell them apart, so their rows must fit. -/
structure HiddenByToken (builder : Builder) (concealment : Concealment) : Prop where
  types : ∀ type ∈ builder.build.types.entries,
    memberHidden concealment builder.build type.token = typeHidden concealment type
  fields : builder.rows.field ≤ Token.rowLimit →
    ∀ type ∈ builder.build.types.entries, ∀ field ∈ type.fields,
      memberHidden concealment builder.build field.token = fieldHidden concealment field
  methods : builder.rows.method ≤ Token.rowLimit →
    ∀ type ∈ builder.build.types.entries, ∀ method ∈ type.methods,
      memberHidden concealment builder.build method.token = methodHidden concealment method

theorem hiddenByToken
    {builder : Builder}
    (sound : builder.Sound)
    (concealment : Concealment) :
    HiddenByToken builder concealment where
  types := fun _ member => memberHidden_built_type sound concealment member
  fields := fun fit _ member _ isField =>
    memberHidden_built_field sound fit concealment member isField
  methods := fun fit _ member _ isMethod =>
    memberHidden_built_method sound fit concealment member isMethod

namespace Decompiler

variable {decompiler : Decompiler}

/-- In a well-nested module every top-level type has a complete declaration, in its namespace. -/
theorem exists_declaration?
    (nesting : WellNested decompiler.module.types.entries)
    {type : TypeDefinition}
    (member : type ∈ decompiler.module.topLevelTypes) :
    ∃ node, decompiler.declaration? type.token = .ok (type.space, node)
      ∧ Complete decompiler.module decompiler.settings.concealment type node := by
  obtain ⟨i, at_i⟩ := List.mem_iff_getElem?.1 (List.mem_filter.1 member).1
  obtain ⟨node, built, complete⟩ :=
    exists_typeNode? nesting at_i (show _ ≤ decompiler.module.types.size + 1 + i by omega)
  refine ⟨node, declaration?_eq_ok_iff.2 ⟨[type], type, ?_, ?_, built, rfl⟩, complete⟩
  · exact Module.typePath?_of_topLevel member
  · exact Module.type?_of_topLevel member

/-- So have several of them. -/
theorem exists_declared
    (nesting : WellNested decompiler.module.types.entries)
    {tokens : List Token}
    (topLevel : ∀ token ∈ tokens, ∃ type ∈ decompiler.module.topLevelTypes, type.token = token) :
    ∃ declared : List (TypeDefinition × Node),
      declared.map (·.1.token) = tokens
        ∧ List.Forall₂ (fun token declaration => decompiler.declaration? token = .ok declaration)
            tokens (declared.map fun declaration => (declaration.1.space, declaration.2))
        ∧ ∀ declaration ∈ declared, declaration.1 ∈ decompiler.module.topLevelTypes
            ∧ Complete decompiler.module decompiler.settings.concealment declaration.1
                declaration.2 := by
  induction tokens with
  | nil => exact ⟨[], rfl, .nil, fun _ none => absurd none List.not_mem_nil⟩
  | cons token rest ih =>
      obtain ⟨declared, own, each, complete⟩ :=
        ih fun other isOther => topLevel other (List.mem_cons_of_mem token isOther)
      obtain ⟨type, member, rfl⟩ := topLevel token List.mem_cons_self
      obtain ⟨node, built, isComplete⟩ := exists_declaration? nesting member
      refine ⟨(type, node) :: declared, ?_, .cons built each, ?_⟩
      · rw [List.map_cons, own]
      · intro declaration isDeclaration
        rcases List.mem_cons.1 isDeclaration with rfl | later
        · exact ⟨member, isComplete⟩
        · exact complete declaration later

/-- The source file of top-level types of a built module has a complete declaration of each, placed
by its namespace, and declares no type twice. Hidden is what its token says is hidden. Where names
tell types apart, each key of the file leads to the type that it names or whose member it names, and
the file declares this type. -/
theorem types_complete
    (builder : Builder)
    (made : builder.Made)
    (referenced : List Module)
    (settings : Settings)
    (signaturesOnly : Bool)
    (tokens : List Token)
    (distinct : tokens.Nodup)
    (topLevel : ∀ token ∈ tokens, ∃ type ∈ builder.build.topLevelTypes, type.token = token) :
    ∃ (tree : SourceUnit) (declared : List (TypeDefinition × Node)),
      (standard ⟨builder.build, referenced⟩ settings signaturesOnly).types false tokens = .ok tree
        ∧ tree = ⟨[], placed declared⟩
        ∧ declared.map (·.1.token) = tokens
        ∧ (∀ declaration ∈ declared, declaration.1 ∈ builder.build.topLevelTypes
            ∧ Complete builder.build settings.concealment declaration.1 declaration.2)
        ∧ tree.typeTokens.Nodup
        ∧ HiddenByToken builder settings.concealment
        ∧ (builder.build.NamesDistinct →
            ∀ format, ∀ key ∈ (tree.render format).symbols.keys, ∃ token ∈ tree.typeTokens,
              builder.build.resolve? key = some token
                ∧ builder.build.typeKey? token = some key.containingType) := by
  have nesting := made.sound.nesting_build
  let decompiler := standard ⟨builder.build, referenced⟩ settings signaturesOnly
  have sameNesting : WellNested decompiler.module.types.entries := nesting
  obtain ⟨plain, own, each, complete⟩ := exists_declared sameNesting topLevel
  let declared := plain.map fun declaration => (declaration.1, declaration.2.polished)
  have polished : ∀ declaration ∈ declared, declaration.1 ∈ builder.build.topLevelTypes
      ∧ Complete builder.build settings.concealment declaration.1 declaration.2 := by
    intro declaration isDeclared
    obtain ⟨before, isPlain, rfl⟩ := List.mem_map.1 isDeclared
    obtain ⟨isTopLevel, isComplete⟩ := complete before isPlain
    exact ⟨isTopLevel, isComplete.polished⟩
  have tokens_eq : declared.map (·.1.token) = tokens := by
    rw [List.map_map]
    exact own
  have members : (arranged (plain.map fun declaration => (declaration.1.space, declaration.2))).map
      Node.polished = placed declared := by
    rw [placed_eq_arranged, ← arranged_map Node.polished_space, List.map_map, List.map_map]
    rfl
  refine ⟨⟨[], placed declared⟩, declared, ?_, rfl, tokens_eq, polished, ?_, ?_, ?_⟩
  · exact (types_eq_ok_iff _ _ _ tokens _).2 ⟨_, each, by rw [members]⟩
  · exact nodup_placed nesting (tokens_eq ▸ distinct) polished
  · exact hiddenByToken made.sound settings.concealment
  · intro names format key isKey
    have declares := (SourceUnit.mem_keys_render_iff _ format key).1 isKey
    obtain ⟨token, isToken, known⟩ := exists_token_of_declares_placed polished declares
    exact ⟨token, isToken, Module.resolve?_eq_some nesting names known, known⟩

/-- Makes a type with a hidden field and a property. -/
def orderStep : BuildStep :=
  .addType "Shop" "Order" [
    .field "<Name>k__BackingField" (.primitive .string) .ownType .none,
    .property "Name" (.primitive .string) true false]

/-- Makes a type inside it, with a method. -/
def lineStep : BuildStep :=
  .addNested (.ofRow .typeDefinition 2) "Line" [.method (.named "Print")]

/-- Of these types, the property and the method are declared, but neither the field nor the
accessor; and all four keys lead to the two types. -/
theorem types_complete_orderStep :
    ∃ (builder : Builder) (tree : SourceUnit),
      builder.Made
        ∧ (standard ⟨builder.build, []⟩ .default false).types false [.ofRow .typeDefinition 2]
            = .ok tree
        ∧ tree.declarations.length = 4
        ∧ tree.typeTokens.Nodup
        ∧ ∀ format, ∀ key ∈ (tree.render format).symbols.keys, ∃ token ∈ tree.typeTokens,
            builder.build.resolve? key = some token
              ∧ builder.build.typeKey? token = some key.containingType := by
  have passes : ((Builder.new "Shop.dll" (.ofName "Shop" .unspecified)).step orderStep).toOption.any
      (fun outer => (outer.place? (.ofRow .typeDefinition 2)).isSome
        && (outer.step lineStep).toOption.any (fun builder =>
          decide (Token.ofRow .typeDefinition 2 ∈ builder.build.topLevelTypes.map (·.token))
            && decide (∀ type ∈ builder.build.types.entries, '+' ∉ type.name.toList)
            && decide (∀ left ∈ builder.build.types.entries, ∀ right ∈ builder.build.types.entries,
              left.enclosing = right.enclosing →
                (left.enclosing = none → left.space = right.space) →
                  left.name = right.name → left.token = right.token)
            && ((standard ⟨builder.build, []⟩ .default false).types false
              [.ofRow .typeDefinition 2]).toOption.any (fun tree =>
                decide (tree.declarations.length = 4)))) = true := by
    decide +kernel
  obtain ⟨outer, isOuter, passes⟩ := Success.exists_ok_of_any passes
  obtain ⟨parentKnown, passes⟩ := Bool.and_eq_true_iff.1 passes
  obtain ⟨builder, isBuilder, passes⟩ := Success.exists_ok_of_any passes
  simp only [Bool.and_eq_true, decide_eq_true_iff] at passes
  obtain ⟨⟨⟨known, plain⟩, unique⟩, four⟩ := passes
  have outerMade : outer.Made := by
    refine .step (.new _ _) ?_ isOuter
    trivial
  have made : builder.Made := by
    refine outerMade.step ?_ isBuilder
    exact parentKnown
  obtain ⟨type, isType, own⟩ := List.mem_map.1 known
  obtain ⟨tree, declared, built, -, -, -, once, -, keys⟩ :=
    types_complete builder made [] .default false [.ofRow .typeDefinition 2]
      (List.nodup_singleton _) (fun token isToken => ⟨type, isType, by
        rw [own, List.mem_singleton.1 isToken]⟩)
  obtain ⟨other, same, length⟩ := Success.exists_ok_of_any four
  obtain rfl : tree = other := Except.ok.inj (built.symm.trans same)
  exact ⟨builder, tree, made, built, of_decide_eq_true length, once, keys ⟨plain, unique⟩⟩

end Decompiler

end Declaration
end AssemblyAtlas
