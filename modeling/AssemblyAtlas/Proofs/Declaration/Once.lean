import AssemblyAtlas.Proofs.Declaration.Complete
import AssemblyAtlas.Proofs.Declaration.DeclaredTypes

/-!
# Types that are declared once

In a complete declaration of a type, each type inside is declared once, and every key belongs to one
of these types. A file that places several declarations, each in its namespace, keeps both.

* `Node.typeTokens` lists the types that a tree declares;
* `Complete.typeTokens` follows the paths of types, and `Complete.declares` the keys;
* `placed` is the file with some declarations, and `perm_placed` says that it holds each once.
-/

namespace AssemblyAtlas

namespace Syntax

open Assembly

mutual

/-- The tokens of the types that the declaration and those inside it declare. -/
def Node.typeTokens : Node → List Token
  | .space _ members => Node.typeTokensOfAll members
  | .type head members => head.token :: Node.typeTokensOfAll members
  | .field _ | .enumMember _ | .method _ | .property _ | .event _ => []

/-- The tokens of the types that declarations and those inside them declare. -/
def Node.typeTokensOfAll : List Node → List Token
  | [] => []
  | node :: rest => node.typeTokens ++ Node.typeTokensOfAll rest

end

/-- The tokens of the types that a source file declares. -/
def SourceUnit.typeTokens (unit : SourceUnit) : List Token :=
  Node.typeTokensOfAll unit.members

theorem Node.typeTokensOfAll_eq
    (nodes : List Node) :
    typeTokensOfAll nodes = nodes.flatMap typeTokens := by
  induction nodes with
  | nil => rfl
  | cons node rest ih => rw [typeTokensOfAll, List.flatMap_cons, ih]

end Syntax

namespace Declaration

open Assembly
open Syntax

variable {module : Module} {concealment : Concealment} {type : TypeDefinition} {node : Node}

/-! ## Types -/

/-- The declaration declares types whose paths start with the given one, each once. -/
def DeclaresBelow (module : Module) (path : List TypeDefinition) (node : Node) : Prop :=
  node.typeTokens.Nodup
    ∧ ∀ token ∈ node.typeTokens, ∃ more, module.typePath? token = some (path ++ more)

/-- Declarations of different types in one place declare different types. -/
theorem nodup_typeTokens
    {path types : List TypeDefinition}
    {nodes : List Node}
    (each : List.Forall₂ (fun inner => DeclaresBelow module (path ++ [inner])) types nodes)
    (distinct : types.Nodup) :
    (nodes.flatMap Node.typeTokens).Nodup
      ∧ ∀ token ∈ nodes.flatMap Node.typeTokens, ∃ inner ∈ types, ∃ more,
          module.typePath? token = some (path ++ inner :: more) := by
  induction each with
  | nil => exact ⟨List.nodup_nil, fun token isToken => absurd isToken List.not_mem_nil⟩
  | @cons inner node types nodes first rest ih =>
      obtain ⟨new, distinct⟩ := List.nodup_cons.1 distinct
      obtain ⟨once, below⟩ := first
      obtain ⟨others, elsewhere⟩ := ih distinct
      simp only [List.append_assoc, List.singleton_append] at below
      rw [List.flatMap_cons]
      constructor
      · rw [List.nodup_append']
        refine ⟨once, others, fun token isOwn isOther => ?_⟩
        obtain ⟨more, own⟩ := below token isOwn
        obtain ⟨other, isType, further, path'⟩ := elsewhere token isOther
        have same := List.append_cancel_left (Option.some.inj (own.symm.trans path'))
        obtain ⟨rfl, -⟩ := List.cons.inj same
        exact new isType
      · intro token isToken
        rcases List.mem_append.1 isToken with isOwn | isOther
        · obtain ⟨more, own⟩ := below token isOwn
          exact ⟨inner, List.mem_cons_self, more, own⟩
        · obtain ⟨other, isType, further, path'⟩ := elsewhere token isOther
          exact ⟨other, List.mem_cons_of_mem inner isType, further, path'⟩

/-- What a member declares that is not a type: no type, and one key of its kind and name. -/
theorem MembersOf.mem
    {nodes : List Node}
    (members : MembersOf module type concealment nodes)
    (member : node ∈ nodes) :
    node.typeTokens = [] ∧ ∃ kind name key text,
      node.declarations = [(key, text)] ∧ module.memberKey? type.token kind name = some key := by
  obtain ⟨fields, properties, events, methods⟩ := members
  simp only [List.mem_append] at member
  rcases member with ((isField | isProperty) | isEvent) | isMethod
  · obtain ⟨field, -, of⟩ := Success.exists_element fields isField
    cases of with
    | enumMember _ key => exact ⟨rfl, _, _, _, _, rfl, key⟩
    | field _ key => exact ⟨rfl, _, _, _, _, rfl, key⟩
  · obtain ⟨property, -, ⟨key⟩⟩ := Success.exists_element properties isProperty
    exact ⟨rfl, _, _, _, _, rfl, key⟩
  · obtain ⟨event, -, ⟨key⟩⟩ := Success.exists_element events isEvent
    exact ⟨rfl, _, _, _, _, rfl, key⟩
  · obtain ⟨method, -, ⟨key⟩⟩ := Success.exists_element methods isMethod
    exact ⟨rfl, _, _, _, _, rfl, key⟩

/-- No member but the types declares a type. -/
theorem MembersOf.typeTokensOfAll
    {nodes : List Node}
    (members : MembersOf module type concealment nodes) :
    nodes.flatMap Node.typeTokens = [] :=
  List.flatMap_eq_nil_iff.2 fun _ member => (members.mem member).1

/-- A complete declaration declares the type and types below it, each once. -/
theorem Complete.declaresBelow
    (nesting : WellNested module.types.entries)
    (complete : Complete module concealment type node)
    (path : List TypeDefinition)
    (found : module.typePath? type.token = some path) :
    DeclaresBelow module path node := by
  revert path
  refine complete.induct (motive := fun type node =>
    ∀ path, module.typePath? type.token = some path → DeclaresBelow module path node) ?_ ?_
  · intro type head _ isHead path found
    refine ⟨List.nodup_singleton _, fun token isToken => ⟨[], ?_⟩⟩
    rw [List.mem_singleton.1 isToken, isHead.token, found, List.append_nil]
  · intro type head nested others _ isHead inner isOthers path found
    have distinct : (shownTypes concealment type module).Nodup :=
      ((List.Nodup.of_map _ module.types.nodup_tokens).filter _).filter _
    have each : List.Forall₂ (fun inner => DeclaresBelow module (path ++ [inner]))
        (shownTypes concealment type module) nested := by
      have isInner : ∀ inner ∈ shownTypes concealment type module,
          inner ∈ standingIn module.types.entries type.token :=
        fun _ shown => (List.mem_filter.1 shown).1
      refine ((List.forall₂_and_left _ _).2 ⟨isInner, inner⟩).imp fun inner node both => ?_
      exact both.2 _ (Module.typePath?_of_standingIn nesting found both.1)
    obtain ⟨once, below⟩ := nodup_typeTokens each distinct
    have whole : (Node.type head (nested ++ others)).typeTokens
        = type.token :: nested.flatMap Node.typeTokens := by
      rw [Node.typeTokens, Node.typeTokensOfAll_eq, List.flatMap_append, isOthers.typeTokensOfAll,
        List.append_nil, isHead.token]
    rw [DeclaresBelow, whole]
    refine ⟨List.nodup_cons.2 ⟨fun isInside => ?_, once⟩, fun token isToken => ?_⟩
    · obtain ⟨inner, -, more, deeper⟩ := below type.token isInside
      have longer := congrArg List.length (Option.some.inj (found.symm.trans deeper))
      simp at longer
    · rcases List.mem_cons.1 isToken with rfl | isInside
      · exact ⟨[], by rw [found, List.append_nil]⟩
      · obtain ⟨inner, -, more, deeper⟩ := below token isInside
        exact ⟨inner :: more, deeper⟩

/-! ## Keys -/

/-- The key of a type contains itself. -/
theorem containingType_of_typeKey?
    {token : Token}
    {key : SymbolKey}
    (own : module.typeKey? token = some key) :
    key.containingType = key := by
  obtain ⟨path, -, rfl⟩ := Option.map_eq_some_iff.1 own
  rfl

/-- The key of a member belongs to the type of the member. -/
theorem typeKey?_of_memberKey?
    {token : Token}
    {kind : SymbolKind}
    {name : String}
    {key : SymbolKey}
    (own : module.memberKey? token kind name = some key) :
    module.typeKey? token = some key.containingType := by
  obtain ⟨outer, known, rfl⟩ := Option.map_eq_some_iff.1 own
  rw [known]
  exact congrArg some (containingType_of_typeKey? known).symm

/-- A key in the declaration of a type is that of the type, or it is in a member. -/
theorem of_declares_type
    {head : TypeHead}
    {members : List Node}
    {key : SymbolKey}
    (declares : (Node.type head members).Declares key) :
    key = head.symbol ∨ ∃ member ∈ members, member.Declares key := by
  rw [Node.Declares, Node.declarations, List.map_cons, List.mem_cons] at declares
  refine declares.imp_right fun inside => ?_
  split at inside
  · exact absurd inside List.not_mem_nil
  · exact Node.mem_declarationsOfAll_iff.1 inside

/-- Every key in a complete declaration belongs to a type that it declares. -/
theorem Complete.declares
    (complete : Complete module concealment type node)
    {key : SymbolKey}
    (declares : node.Declares key) :
    ∃ token ∈ node.typeTokens, module.typeKey? token = some key.containingType := by
  revert declares
  refine complete.induct (motive := fun _ node => node.Declares key →
    ∃ token ∈ node.typeTokens, module.typeKey? token = some key.containingType) ?_ ?_
  · intro type head _ isHead declares
    rcases of_declares_type declares with rfl | ⟨member, isMember, -⟩
    · refine ⟨head.token, List.mem_cons_self, ?_⟩
      rw [isHead.token, isHead.symbol, containingType_of_typeKey? isHead.symbol]
    · exact absurd isMember List.not_mem_nil
  · intro type head nested others _ isHead inner isOthers declares
    have own : head.token ∈ (Node.type head (nested ++ others)).typeTokens := List.mem_cons_self
    rcases of_declares_type declares with rfl | ⟨member, isMember, declares⟩
    · refine ⟨head.token, own, ?_⟩
      rw [isHead.token, isHead.symbol, containingType_of_typeKey? isHead.symbol]
    rcases List.mem_append.1 isMember with isNested | isOther
    · obtain ⟨_, -, holds⟩ := Success.exists_element inner isNested
      obtain ⟨token, isToken, key⟩ := holds declares
      refine ⟨token, List.mem_cons_of_mem _ ?_, key⟩
      rw [Node.typeTokensOfAll_eq]
      exact List.mem_flatMap.2 ⟨member, List.mem_append_left _ isNested, isToken⟩
    · obtain ⟨-, kind, name, other, text, declarations, isKey⟩ := isOthers.mem isOther
      rw [Node.Declares, declarations, List.map_singleton, List.mem_singleton] at declares
      refine ⟨head.token, own, ?_⟩
      rw [isHead.token, declares]
      exact typeKey?_of_memberKey? isKey

/-! ## Files -/

/-- The file with some declarations: first those outside all namespaces, then one node for each
namespace. Namespaces come in the order of their first types, and the types of each in theirs. -/
def placed (declared : List (TypeDefinition × Node)) : List Node :=
  let inside (space : String) := (declared.filter (·.1.space = space)).map (·.2)
  let spaces := (declared.map (·.1.space)).filter (· ≠ "")
  inside "" ++ spaces.eraseDups.map fun space => .space space (inside space)

/-- Elements that are put together by a key, key by key, are all elements. -/
theorem perm_flatMap_filter
    {α κ : Type}
    [DecidableEq κ]
    {key : α → κ}
    {keys : List κ}
    {elements : List α}
    (distinct : keys.Nodup)
    (known : ∀ element ∈ elements, key element ∈ keys) :
    (keys.flatMap fun own => elements.filter (key · = own)).Perm elements := by
  induction keys generalizing elements with
  | nil =>
      obtain rfl : elements = [] :=
        List.eq_nil_iff_forall_not_mem.2 fun element member =>
          absurd (known element member) List.not_mem_nil
      exact .nil
  | cons first rest ih =>
      obtain ⟨new, distinct⟩ := List.nodup_cons.1 distinct
      let further := elements.filter fun element => !decide (key element = first)
      have others (own : κ) (isOwn : own ∈ rest) :
          elements.filter (key · = own) = further.filter (key · = own) := by
        rw [List.filter_filter]
        refine List.filter_congr fun element _ => ?_
        by_cases here : key element = own
        · have elsewhere : own ≠ first := fun same => new (same ▸ isOwn)
          simp [here, elsewhere]
        · simp [here]
      have still : ∀ element ∈ further, key element ∈ rest := by
        intro element member
        obtain ⟨isElement, elsewhere⟩ := List.mem_filter.1 member
        exact (List.mem_cons.1 (known element isElement)).resolve_left (by simpa using elsewhere)
      rw [List.flatMap_cons, List.flatMap_congr others]
      exact ((ih distinct still).append_left _).trans (List.filter_append_perm _ _)

/-- The placed file is the arranged one. -/
theorem placed_eq_arranged
    (declared : List (TypeDefinition × Node)) :
    placed declared
      = Decompiler.arranged (declared.map fun declaration =>
          (declaration.1.space, declaration.2)) := by
  have inside (space : String) :
      (declared.map fun declaration => (declaration.1.space, declaration.2)).filterMap
          (fun declaration => if declaration.1 = space then some declaration.2 else none)
        = (declared.filter (·.1.space = space)).map (·.2) := by
    induction declared with
    | nil => rfl
    | cons declaration rest ih =>
        by_cases here : declaration.1.space = space <;> simp [here, ih]
  simp only [placed, Decompiler.arranged, inside, List.map_map]
  refine congrArg _ (List.map_congr_left fun space _ => ?_)
  rw [Decompiler.spaceNode, inside]

/-- The placed file declares the types that its declarations declare. -/
theorem perm_placed
    (declared : List (TypeDefinition × Node)) :
    (Node.typeTokensOfAll (placed declared)).Perm
      ((declared.map (·.2)).flatMap Node.typeTokens) := by
  let spaces := ((declared.map (·.1.space)).filter (· ≠ "")).eraseDups
  have distinct : ("" :: spaces).Nodup := by
    refine List.nodup_cons.2 ⟨fun isSpace => ?_, Decompiler.nodup_eraseDups _⟩
    simpa using (List.mem_filter.1 (List.mem_eraseDups.1 isSpace)).2
  have known : ∀ declaration ∈ declared, declaration.1.space ∈ "" :: spaces := by
    intro declaration member
    by_cases outside : declaration.1.space = ""
    · exact List.mem_cons.2 (Or.inl outside)
    · refine List.mem_cons_of_mem _ (List.mem_eraseDups.2 (List.mem_filter.2 ⟨?_, by simpa⟩))
      exact List.mem_map_of_mem member
  have whole : Node.typeTokensOfAll (placed declared)
      = ((("" :: spaces).flatMap fun space => declared.filter (·.1.space = space)).map
          (·.2)).flatMap Node.typeTokens := by
    rw [placed, Node.typeTokensOfAll_eq, List.flatMap_append, List.map_flatMap,
      List.flatMap_assoc, List.flatMap_cons]
    simp only [List.flatMap_map, Node.typeTokens, Node.typeTokensOfAll_eq]
    rfl
  rw [whole]
  exact ((perm_flatMap_filter distinct known).map _).flatMap_right _

/-- A key in the placed file is in one of its declarations. -/
theorem of_declares_placed
    {declared : List (TypeDefinition × Node)}
    {key : SymbolKey}
    (declares : key ∈ (Node.declarationsOfAll (placed declared)).map (·.1)) :
    ∃ declaration ∈ declared, declaration.2.Declares key := by
  have inside {space : String} {node : Node}
      (isInside : node ∈ (declared.filter (·.1.space = space)).map (·.2)) :
      ∃ declaration ∈ declared, declaration.2 = node := by
    obtain ⟨declaration, chosen, rfl⟩ := List.mem_map.1 isInside
    exact ⟨declaration, (List.mem_filter.1 chosen).1, rfl⟩
  obtain ⟨node, isNode, declares⟩ := Node.mem_declarationsOfAll_iff.1 declares
  rcases List.mem_append.1 isNode with outside | isSpace
  · obtain ⟨declaration, isDeclared, rfl⟩ := inside outside
    exact ⟨declaration, isDeclared, declares⟩
  · obtain ⟨space, -, rfl⟩ := List.mem_map.1 isSpace
    rw [Node.Declares, Node.declarations] at declares
    obtain ⟨member, isMember, declares⟩ := Node.mem_declarationsOfAll_iff.1 declares
    obtain ⟨declaration, isDeclared, rfl⟩ := inside isMember
    exact ⟨declaration, isDeclared, declares⟩

section Placed

variable {declared : List (TypeDefinition × Node)}

/-- The file of complete declarations of different top-level types declares no type twice. -/
theorem nodup_placed
    (nesting : WellNested module.types.entries)
    (distinct : (declared.map (·.1.token)).Nodup)
    (complete : ∀ declaration ∈ declared, declaration.1 ∈ module.topLevelTypes
      ∧ Complete module concealment declaration.1 declaration.2) :
    (Node.typeTokensOfAll (placed declared)).Nodup := by
  have each : List.Forall₂ (fun inner => DeclaresBelow module ([] ++ [inner]))
      (declared.map (·.1)) (declared.map (·.2)) := by
    rw [List.forall₂_map_left_iff, List.forall₂_map_right_iff, List.forall₂_same]
    intro declaration isDeclared
    obtain ⟨isTopLevel, isComplete⟩ := complete declaration isDeclared
    exact isComplete.declaresBelow nesting _ (Module.typePath?_of_topLevel isTopLevel)
  have types : (declared.map (·.1)).Nodup := by
    refine List.Nodup.of_map (·.token) ?_
    rw [List.map_map]
    exact distinct
  exact (perm_placed declared).nodup_iff.2 (nodup_typeTokens each types).1

/-- Each key in the file of complete declarations belongs to a type that the file declares. -/
theorem exists_token_of_declares_placed
    (complete : ∀ declaration ∈ declared, declaration.1 ∈ module.topLevelTypes
      ∧ Complete module concealment declaration.1 declaration.2)
    {key : SymbolKey}
    (declares : key ∈ (Node.declarationsOfAll (placed declared)).map (·.1)) :
    ∃ token ∈ Node.typeTokensOfAll (placed declared),
      module.typeKey? token = some key.containingType := by
  obtain ⟨declaration, isDeclared, declares⟩ := of_declares_placed declares
  obtain ⟨token, isToken, own⟩ := (complete declaration isDeclared).2.declares declares
  refine ⟨token, (perm_placed declared).mem_iff.2 ?_, own⟩
  exact List.mem_flatMap.2 ⟨declaration.2, List.mem_map_of_mem isDeclared, isToken⟩

end Placed

end Declaration
end AssemblyAtlas
