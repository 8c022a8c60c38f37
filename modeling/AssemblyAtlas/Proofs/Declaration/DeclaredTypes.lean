import AssemblyAtlas.Proofs.Assembly.Lookup
import AssemblyAtlas.Proofs.Declaration.SeveralTypes
import AssemblyAtlas.Proofs.Syntax.Declared

/-!
# The types that a source file declares

The tree of types declares what the trees of the single types declare, and the tree of a type
declares the type.
-/

namespace AssemblyAtlas
namespace Declaration

open Assembly
open Syntax

namespace Decompiler

/-- The arranged and polished file declares what the polished declarations declare. -/
theorem declares_arranged_iff
    (key : SymbolKey)
    (declarations : List (String × Node)) :
    SourceUnit.Declares key ⟨[], (arranged declarations).map Node.polished⟩
      ↔
    ∃ declaration ∈ declarations, declaration.2.polished.Declares key := by
  rw [SourceUnit.Declares, SourceUnit.declarations, Node.mem_declarationsOfAll_iff]
  constructor
  · rintro ⟨polished, isMember, declares⟩
    obtain ⟨node, isNode, rfl⟩ := List.mem_map.1 isMember
    rcases of_mem_arranged isNode with ⟨declaration, isDeclaration, rfl⟩ | h
    · exact ⟨declaration, isDeclaration, declares⟩
    · obtain ⟨name, members, rfl, from_declarations⟩ := h
      rw [Node.polished_space, Node.Declares, Node.declarations,
        Node.mem_declarationsOfAll_iff] at declares
      obtain ⟨polished, isPolished, declares⟩ := declares
      obtain ⟨inner, isInner, rfl⟩ := List.mem_map.1 isPolished
      obtain ⟨declaration, isDeclaration, rfl⟩ := from_declarations inner isInner
      exact ⟨declaration, isDeclaration, declares⟩
  · rintro ⟨declaration, isDeclaration, declares⟩
    rcases mem_arranged isDeclaration with outside | ⟨name, members, isSpace, inside⟩
    · exact ⟨_, List.mem_map_of_mem outside, declares⟩
    · refine ⟨_, List.mem_map_of_mem isSpace, ?_⟩
      rw [Node.polished_space, Node.Declares, Node.declarations,
        Node.mem_declarationsOfAll_iff]
      exact ⟨_, List.mem_map_of_mem inside, declares⟩

section Trees

variable (system : TypeSystem) (settings : Settings) (signaturesOnly : Bool)

/-- The source file with one type declares the key. -/
def Declares (token : Token) (key : SymbolKey) : Prop :=
  ∃ single, (standard system settings signaturesOnly).types false [token] = .ok single
    ∧ single.Declares key

/-- The tree of several types declares what the trees of the single types declare. -/
theorem declares_of_types_iff
    {tokens : List Token}
    {tree : SourceUnit}
    (built : (standard system settings signaturesOnly).types false tokens = .ok tree)
    (key : SymbolKey) :
    tree.Declares key ↔ ∃ token ∈ tokens, Declares system settings signaturesOnly token key :=
  exists_single_iff system settings signaturesOnly (declares_arranged_iff key) built

/-- The declaration of a type has the key of the type. -/
theorem symbol_of_typeNode?
    {depth : Nat}
    {type : TypeDefinition}
    {node : Node}
    (built : (standard system settings signaturesOnly).typeNode? depth type = .ok node) :
    ∃ head members, node = .type head members
      ∧ system.main.typeKey? type.token = some head.symbol := by
  cases depth with
  | zero => simp [typeNode?] at built
  | succ depth =>
      rw [typeNode?] at built
      split at built
      · simp at built
      · next symbol found =>
          split at built
          · exact ⟨_, _, (Except.ok.inj built).symm, found⟩
          · obtain ⟨nested, -, built⟩ := Success.bind_eq_ok_iff.1 built
            exact ⟨_, _, (Except.ok.inj built).symm, found⟩

/-- The standard transforms keep the key of a type. -/
theorem declares_polished_type
    (head : TypeHead)
    (members : List Node) :
    (Node.type head members).polished.Declares head.symbol := by
  obtain ⟨changed, -, symbol, polished⟩ := Node.exists_polished_type head members
  rw [polished, Node.Declares, Node.declarations, List.map_cons, symbol]
  exact List.mem_cons_self

/-- The tree of types declares each of them. -/
theorem declares_own_types
    {tokens : List Token}
    {tree : SourceUnit}
    (built : (standard system settings signaturesOnly).types false tokens = .ok tree)
    {token : Token}
    (isToken : token ∈ tokens) :
    ∃ key, system.main.typeKey? token = some key ∧ tree.Declares key := by
  obtain ⟨declarations, each, rfl⟩ := (types_eq_ok_iff _ _ _ tokens tree).1 built
  obtain ⟨declaration, isDeclaration, made⟩ := Success.exists_result each isToken
  rw [declaration?] at made
  split at made
  · simp at made
  · next path found =>
      split at made
      · simp at made
      · next type last =>
          obtain ⟨node, built, made⟩ := Success.bind_eq_ok_iff.1 made
          obtain ⟨head, members, rfl, known⟩ := symbol_of_typeNode? _ _ _ built
          obtain rfl : _ = declaration := Except.ok.inj made
          rw [Module.getLast?_typePath found last] at known
          refine ⟨head.symbol, known, ?_⟩
          exact (declares_arranged_iff _ _).2
            ⟨_, isDeclaration, declares_polished_type head members⟩

end Trees

end Decompiler

end Declaration
end AssemblyAtlas
