import AssemblyAtlas.Declaration.Build
import AssemblyAtlas.Proofs.Success
import AssemblyAtlas.Proofs.Syntax.Editing
import AssemblyAtlas.Proofs.Syntax.NamedTypes

/-!
# Source files of several types

The tree of several types holds the declarations of each, some of them inside namespaces. It is
built if each of the declarations is, and it names the types that the trees of the single types
name.
-/

namespace AssemblyAtlas
namespace Declaration

open Assembly
open Syntax

namespace Decompiler

/-- Erasing later copies leaves each element once. -/
theorem nodup_eraseDups
    {α : Type}
    [DecidableEq α] :
    (elements : List α) → elements.eraseDups.Nodup
  | [] => by simp
  | element :: rest => by
      rw [List.eraseDups_cons, List.nodup_cons]
      constructor
      · simp [List.mem_eraseDups]
      · exact nodup_eraseDups _
termination_by elements => elements.length
decreasing_by
  exact Nat.lt_succ_of_le (List.length_filter_le _ _)

/-- A declaration stands in the arranged file, by itself or in the namespace it belongs to. -/
theorem mem_arranged
    {declarations : List (String × Node)}
    {declaration : String × Node}
    (member : declaration ∈ declarations) :
    declaration.2 ∈ arranged declarations
      ∨ ∃ name members,
          Node.space name members ∈ arranged declarations ∧ declaration.2 ∈ members := by
  by_cases outside : declaration.1 = ""
  · left
    refine List.mem_append_left _ (List.mem_filterMap.2 ⟨declaration, member, ?_⟩)
    simp [outside]
  · right
    refine ⟨declaration.1, _, List.mem_append_right _ (List.mem_map.2 ⟨declaration.1, ?_, rfl⟩),
      List.mem_filterMap.2 ⟨declaration, member, by simp⟩⟩
    rw [List.mem_eraseDups, List.mem_filter]
    exact ⟨List.mem_map_of_mem member, by simpa using outside⟩

/-- Nothing else stands in the arranged file. -/
theorem of_mem_arranged
    {declarations : List (String × Node)}
    {node : Node}
    (member : node ∈ arranged declarations) :
    (∃ declaration ∈ declarations, node = declaration.2)
      ∨ ∃ name members, node = .space name members
          ∧ ∀ inner ∈ members, ∃ declaration ∈ declarations, inner = declaration.2 := by
  rcases List.mem_append.1 member with outside | inside
  · obtain ⟨declaration, isDeclaration, h⟩ := List.mem_filterMap.1 outside
    refine Or.inl ⟨declaration, isDeclaration, ?_⟩
    split at h
    · simpa using h.symm
    · simp at h
  · obtain ⟨name, -, rfl⟩ := List.mem_map.1 inside
    refine Or.inr ⟨name, _, rfl, ?_⟩
    intro inner isInner
    obtain ⟨declaration, isDeclaration, h⟩ := List.mem_filterMap.1 isInner
    refine ⟨declaration, isDeclaration, ?_⟩
    split at h
    · simpa using h.symm
    · simp at h

/-- The arranged and polished file names what the polished declarations name. -/
theorem names_arranged_iff
    (resolved : ResolvedType)
    (declarations : List (String × Node)) :
    SourceUnit.Names resolved ⟨[], (arranged declarations).map Node.polished⟩
      ↔
    ∃ declaration ∈ declarations, declaration.2.polished.Names resolved := by
  constructor
  · rintro (⟨mark, none, -⟩ | ⟨polished, isMember, names⟩)
    · simp at none
    · obtain ⟨node, isNode, rfl⟩ := List.mem_map.1 isMember
      rcases of_mem_arranged isNode with ⟨declaration, isDeclaration, rfl⟩ | h
      · exact ⟨declaration, isDeclaration, names⟩
      · obtain ⟨name, members, rfl, from_declarations⟩ := h
        rw [Node.polished_space] at names
        cases names with
        | space isPolished names =>
            obtain ⟨inner, isInner, rfl⟩ := List.mem_map.1 isPolished
            obtain ⟨declaration, isDeclaration, rfl⟩ := from_declarations inner isInner
            exact ⟨declaration, isDeclaration, names⟩
  · rintro ⟨declaration, isDeclaration, names⟩
    right
    rcases mem_arranged isDeclaration with outside | ⟨name, members, isSpace, inside⟩
    · exact ⟨_, List.mem_map_of_mem outside, names⟩
    · refine ⟨_, List.mem_map_of_mem isSpace, ?_⟩
      rw [Node.polished_space]
      exact .space (List.mem_map_of_mem inside) names

/-- A decompiler with the standard transforms. -/
def standard (system : TypeSystem) (settings : Settings) (signaturesOnly : Bool) : Decompiler :=
  { new system settings with signaturesOnly := signaturesOnly }

variable (system : TypeSystem) (settings : Settings) (signaturesOnly : Bool)

/-- The standard tree of types consists of their declarations, each polished. -/
theorem types_eq_ok_iff
    (tokens : List Token)
    (tree : SourceUnit) :
    (standard system settings signaturesOnly).types false tokens = .ok tree
      ↔
    ∃ declarations,
      List.Forall₂
        (fun token declaration =>
          (standard system settings signaturesOnly).declaration? token = .ok declaration)
        tokens declarations
      ∧ tree = ⟨[], (arranged declarations).map Node.polished⟩ := by
  simp only [types, Bool.false_eq_true, ↓reduceIte]
  rw [Success.bind_eq_ok_iff]
  constructor
  · rintro ⟨declarations, each, h⟩
    refine ⟨declarations, (Success.mapM_eq_ok_iff _ _ _).1 each, ?_⟩
    rw [← Transform.runAll_standard]
    exact (Except.ok.inj h).symm
  · rintro ⟨declarations, each, rfl⟩
    refine ⟨declarations, (Success.mapM_eq_ok_iff _ _ _).2 each, ?_⟩
    rw [← Transform.runAll_standard]
    rfl

/-- A cancelled build gives nothing but the empty file. -/
theorem types_of_cancelled
    {decompiler : Decompiler}
    {cancelled : Bool}
    {tokens : List Token}
    {tree : SourceUnit}
    (built : decompiler.types cancelled tokens = .ok tree) :
    decompiler.types false tokens = .ok tree := by
  cases cancelled with
  | false => exact built
  | true =>
      cases tokens with
      | nil => exact built
      | cons token rest => simp [types, bind, Except.bind] at built

/-- What holds of an arranged file if it holds of a declaration in it, holds of the tree of several
types if it holds of the tree of one of them. -/
theorem exists_single_iff
    {whole : SourceUnit → Prop}
    {part : Node → Prop}
    (arranges : ∀ declarations,
      whole ⟨[], (arranged declarations).map Node.polished⟩
        ↔ ∃ declaration ∈ declarations, part declaration.2.polished)
    {tokens : List Token}
    {tree : SourceUnit}
    (built : (standard system settings signaturesOnly).types false tokens = .ok tree) :
    whole tree
      ↔
    ∃ token ∈ tokens, ∃ single,
      (standard system settings signaturesOnly).types false [token] = .ok single
        ∧ whole single := by
  obtain ⟨declarations, each, rfl⟩ := (types_eq_ok_iff _ _ _ tokens tree).1 built
  rw [arranges]
  have alone {token : Token} {declaration : String × Node}
      (h : (standard system settings signaturesOnly).declaration? token = .ok declaration) :
      (standard system settings signaturesOnly).types false [token]
        = .ok ⟨[], (arranged [declaration]).map Node.polished⟩ :=
    (types_eq_ok_iff _ _ _ _ _).2 ⟨[declaration], .cons h .nil, rfl⟩
  constructor
  · rintro ⟨declaration, isDeclaration, holds⟩
    obtain ⟨token, isToken, h⟩ := Success.exists_element each isDeclaration
    refine ⟨token, isToken, _, alone h, (arranges _).2 ⟨declaration, ?_, holds⟩⟩
    exact List.mem_singleton.2 rfl
  · rintro ⟨token, isToken, tree, built, holds⟩
    obtain ⟨declaration, isDeclaration, h⟩ := Success.exists_result each isToken
    obtain rfl : _ = tree := Except.ok.inj ((alone h).symm.trans built)
    obtain ⟨other, isOther, holds⟩ := (arranges _).1 holds
    rw [List.mem_singleton.1 isOther] at holds
    exact ⟨declaration, isDeclaration, holds⟩

/-- The tree of several types names what the trees of the single types name. -/
theorem names_of_types_iff
    {tokens : List Token}
    {tree : SourceUnit}
    (built : (standard system settings signaturesOnly).types false tokens = .ok tree)
    (resolved : ResolvedType) :
    tree.Names resolved
      ↔
    ∃ token ∈ tokens, ∃ single,
      (standard system settings signaturesOnly).types false [token] = .ok single
        ∧ single.Names resolved :=
  exists_single_iff system settings signaturesOnly (names_arranged_iff resolved) built

end Decompiler

end Declaration
end AssemblyAtlas
