import AssemblyAtlas.Declaration.Build
import AssemblyAtlas.Proofs.Assembly.Lookup
import AssemblyAtlas.Proofs.Success

/-!
# What the declaration of a type is made of

When the declaration of a type is built, and what it then is: its head, the declarations of the
nested types that are shown, and those of its other members.

* `Decompiler.NestedNode` is what becomes of a nested type;
* `Decompiler.typeNode?_succ_eq_ok_iff` is about a type and `Decompiler.declaration?_eq_ok_iff`
  about a token;
* `Decompiler.arranged_map` changes the declarations of an arranged file one by one.
-/

namespace AssemblyAtlas
namespace Declaration

open Assembly
open Syntax

namespace Decompiler

variable (decompiler : Decompiler)

/-- What becomes of a nested type, if its own declaration has at most the given depth. -/
inductive NestedNode (depth : Nat) (token : Token) : Option Node → Prop
  | omitted :
      decompiler.nestedType? token = .ok none →
      NestedNode depth token none
  | shown {inner : TypeDefinition} {node : Node} :
      decompiler.nestedType? token = .ok (some inner) →
      decompiler.typeNode? depth inner = .ok node →
      NestedNode depth token (some node)

variable {decompiler}

/-- A delegate has no members. Any other type has those that become of its nested types, and behind
them all others. -/
theorem typeNode?_succ_eq_ok_iff
    {depth : Nat}
    {type : TypeDefinition}
    {node : Node} :
    decompiler.typeNode? (depth + 1) type = .ok node
      ↔
    ∃ symbol, decompiler.module.typeKey? type.token = some symbol
      ∧ (type.kind = .delegateType ∧ node = .type (decompiler.typeHead symbol type) []
        ∨ type.kind ≠ .delegateType ∧ ∃ nested,
            List.Forall₂ (decompiler.NestedNode depth) type.nested nested
              ∧ node = .type (decompiler.typeHead symbol type)
                  (nested.filterMap id ++ decompiler.memberNodes symbol type)) := by
  rw [typeNode?]
  cases key : decompiler.module.typeKey? type.token with
  | none => simp
  | some symbol =>
      by_cases isDelegate : type.kind = .delegateType
      · simp [isDelegate, pure, Except.pure, eq_comm]
      · simp only [↓reduceIte, Option.some.injEq, exists_eq_left', isDelegate, false_and,
          false_or, ne_eq, not_false_eq_true, true_and]
        rw [Success.bind_eq_ok_iff]
        refine exists_congr fun nested => and_congr ?_ ?_
        · -- One nested type is built if its definition is found and its own declaration is built.
          rw [Success.mapM_eq_ok_iff]
          constructor
          · refine fun each => each.imp fun token result built => ?_
            obtain ⟨found, isFound, built⟩ := Success.bind_eq_ok_iff.1 built
            cases found with
            | none =>
                obtain rfl : none = result := Except.ok.inj built
                exact .omitted isFound
            | some inner =>
                obtain ⟨node, isNode, built⟩ := Success.bind_eq_ok_iff.1 built
                obtain rfl : some node = result := Except.ok.inj built
                exact .shown isFound isNode
          · refine fun each => each.imp fun token result made => ?_
            cases made with
            | omitted isFound => exact Success.bind_eq_ok_iff.2 ⟨none, isFound, rfl⟩
            | shown isFound isNode =>
                exact Success.bind_eq_ok_iff.2
                  ⟨_, isFound, Success.bind_eq_ok_iff.2 ⟨_, isNode, rfl⟩⟩
        · exact ⟨fun h => (Except.ok.inj h).symm, fun h => congrArg Except.ok h.symm⟩

/-- The declaration of a token is that of the definition at the end of its type path. -/
theorem declaration?_eq_ok_iff
    {token : Token}
    {declaration : String × Node} :
    decompiler.declaration? token = .ok declaration
      ↔
    ∃ path type, decompiler.module.typePath? token = some path
      ∧ decompiler.module.type? token = some type
      ∧ decompiler.typeNode? (decompiler.module.types.size + 1) type = .ok declaration.2
      ∧ declaration.1 = Module.pathSpace path := by
  rw [declaration?]
  cases found : decompiler.module.typePath? token with
  | none => simp
  | some path =>
      obtain ⟨type, known, ascended⟩ := Option.bind_eq_some_iff.1 found
      have last := Module.getLast?_of_ascend ascended
      simp only [last, known, Success.bind_eq_ok_iff]
      constructor
      · rintro ⟨node, built, h⟩
        obtain rfl : (Module.pathSpace path, node) = declaration := Except.ok.inj h
        exact ⟨path, type, rfl, rfl, built, rfl⟩
      · rintro ⟨other, same, isPath, isType, built, space⟩
        obtain rfl := Option.some.inj isPath
        obtain rfl := Option.some.inj isType
        exact ⟨declaration.2, built, by rw [← space]; rfl⟩

/-- A change that reaches the members of a namespace one by one reaches the declarations of an
arranged file one by one. -/
theorem arranged_map
    {change : Node → Node}
    (inside : ∀ name members, change (.space name members) = .space name (members.map change))
    (declarations : List (String × Node)) :
    arranged (declarations.map fun declaration => (declaration.1, change declaration.2))
      = (arranged declarations).map change := by
  have chosen (space : String) :
      (declarations.map fun declaration => (declaration.1, change declaration.2)).filterMap
          (fun declaration => if declaration.1 = space then some declaration.2 else none)
        = (declarations.filterMap fun declaration =>
            if declaration.1 = space then some declaration.2 else none).map change := by
    rw [List.filterMap_map, List.map_filterMap]
    refine congrArg (List.filterMap · declarations) (funext fun declaration => ?_)
    by_cases here : declaration.1 = space <;> simp [here]
  have spaces (space : String) :
      spaceNode (declarations.map fun declaration => (declaration.1, change declaration.2)) space
        = change (spaceNode declarations space) := by
    rw [spaceNode, spaceNode, chosen, inside]
  simp only [arranged, chosen, List.map_map, List.map_append]
  refine congrArg _ (List.map_congr_left fun space _ => spaces space)

end Decompiler

end Declaration
end AssemblyAtlas
