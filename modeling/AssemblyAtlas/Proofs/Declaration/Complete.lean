import AssemblyAtlas.Proofs.Assembly.Nesting
import AssemblyAtlas.Proofs.Declaration.SeveralTypes
import AssemblyAtlas.Proofs.Declaration.TypeNodes

/-!
# Complete declarations

A complete declaration of a type has one declaration for each nested type, field, property, event
and method that is shown, in this order, and no others. Each has the key of its definition, with the
name that stands in metadata. In a well-nested module every type has a complete declaration.

* `shownTypes`, `shownFields`, `shownProperties` and `shownMethods` say what is shown;
* `Complete` relates types and declarations, and `Complete.induct` is its induction;
* `Decompiler.exists_typeNode?` builds the declaration of a type.
-/

namespace AssemblyAtlas
namespace Declaration

open Assembly
open Syntax

/-! ## What is shown -/

section Shown

variable (concealment : Concealment) (type : TypeDefinition)

/-- The nested types that are not hidden. -/
def shownTypes (module : Module) : List TypeDefinition :=
  (standingIn module.types.entries type.token).filter (!typeHidden concealment ·)

/-- The fields that are not hidden; of an enum, the constants among them. -/
def shownFields : List FieldDefinition :=
  type.fields.filter fun field =>
    !fieldHidden concealment field
      && (type.kind ≠ .enumType || field.flags.has FieldFlag.literal)

/-- The properties of which the type has an accessor. -/
def shownProperties : List PropertyDefinition :=
  type.properties.filter fun property =>
    (property.getter.bind type.method?).isSome || (property.setter.bind type.method?).isSome

/-- The methods that are neither accessors nor hidden. -/
def shownMethods : List MethodDefinition :=
  type.methods.filter fun method =>
    !type.isAccessor method.token && !methodHidden concealment method

end Shown

section Relations

variable (module : Module) (type : TypeDefinition)

/-- The declaration stands for the type: it has its token and its key. -/
structure HeadOf (head : TypeHead) : Prop where
  token : head.token = type.token
  symbol : module.typeKey? type.token = some head.symbol

/-- The declaration is that of the field. -/
inductive FieldOf (field : FieldDefinition) : Node → Prop
  | enumMember {declaration : EnumMemberNode} :
      type.kind = .enumType →
      module.memberKey? type.token .field field.name = some declaration.symbol →
      FieldOf field (.enumMember declaration)
  | field {declaration : FieldNode} :
      type.kind ≠ .enumType →
      module.memberKey? type.token .field field.name = some declaration.symbol →
      FieldOf field (.field declaration)

/-- The declaration is that of the property. -/
inductive PropertyOf (property : PropertyDefinition) : Node → Prop
  | property {declaration : PropertyNode} :
      module.memberKey? type.token .property property.name = some declaration.symbol →
      PropertyOf property (.property declaration)

/-- The declaration is that of the event. -/
inductive EventOf (event : EventDefinition) : Node → Prop
  | event {declaration : EventNode} :
      module.memberKey? type.token .event event.name = some declaration.symbol →
      EventOf event (.event declaration)

/-- The declaration is that of the method. -/
inductive MethodOf (method : MethodDefinition) : Node → Prop
  | method {declaration : MethodNode} :
      module.memberKey? type.token .method method.name = some declaration.symbol →
      MethodOf method (.method declaration)

/-- The declarations are those of the shown members that are not types. -/
inductive MembersOf (concealment : Concealment) : List Node → Prop
  | intro {fields properties events methods : List Node} :
      List.Forall₂ (FieldOf module type) (shownFields concealment type) fields →
      List.Forall₂ (PropertyOf module type) (shownProperties type) properties →
      List.Forall₂ (EventOf module type) type.events events →
      List.Forall₂ (MethodOf module type) (shownMethods concealment type) methods →
      MembersOf concealment (fields ++ properties ++ events ++ methods)

end Relations

/-- The declaration is that of the type with all that is shown of it. Of a delegate no members are
shown. -/
inductive Complete (module : Module) (concealment : Concealment) :
    TypeDefinition → Node → Prop
  | delegate {type : TypeDefinition} {head : TypeHead} :
      type.kind = .delegateType →
      HeadOf module type head →
      Complete module concealment type (.type head [])
  | members {type : TypeDefinition} {head : TypeHead} {nested others : List Node} :
      type.kind ≠ .delegateType →
      HeadOf module type head →
      List.Forall₂ (Complete module concealment) (shownTypes concealment type module) nested →
      MembersOf module type concealment others →
      Complete module concealment type (.type head (nested ++ others))

/-- What holds of a type and its declaration if it holds of the nested ones, holds of all complete
declarations. -/
theorem Complete.induct
    {module : Module}
    {concealment : Concealment}
    {motive : TypeDefinition → Node → Prop}
    (delegate : ∀ {type head},
      type.kind = .delegateType → HeadOf module type head → motive type (.type head []))
    (members : ∀ {type head nested others},
      type.kind ≠ .delegateType → HeadOf module type head →
      List.Forall₂ motive (shownTypes concealment type module) nested →
      MembersOf module type concealment others → motive type (.type head (nested ++ others)))
    {type : TypeDefinition}
    {node : Node}
    (complete : Complete module concealment type node) :
    motive type node := by
  refine @Complete.rec module concealment (fun type node _ => motive type node)
    (fun types nodes _ => List.Forall₂ motive types nodes) ?_ ?_ ?_ ?_ type node complete
  · exact delegate
  · intro type head nested others notDelegate isHead _ isOthers inner
    exact members notDelegate isHead inner isOthers
  · exact .nil
  · intro type node types nodes _ _ first rest
    exact .cons first rest

section Polished

variable {module : Module} {concealment : Concealment} {type : TypeDefinition}

/-- The standard transforms leave each declaration that of its member. -/
theorem MembersOf.polished
    {nodes : List Node}
    (members : MembersOf module type concealment nodes) :
    MembersOf module type concealment (nodes.map Node.polished) := by
  obtain ⟨fields, properties, events, methods⟩ := members
  simp only [List.map_append]
  refine .intro ?_ ?_ ?_ ?_
  · refine List.forall₂_map_right_iff.2 (fields.imp fun field node isField => ?_)
    cases isField with
    | enumMember isEnum key => exact .enumMember isEnum key
    | field notEnum key => exact .field notEnum key
  · refine List.forall₂_map_right_iff.2 (properties.imp fun property node isProperty => ?_)
    obtain ⟨key⟩ := isProperty
    exact .property key
  · refine List.forall₂_map_right_iff.2 (events.imp fun event node isEvent => ?_)
    obtain ⟨key⟩ := isEvent
    exact .event key
  · refine List.forall₂_map_right_iff.2 (methods.imp fun method node isMethod => ?_)
    obtain ⟨key⟩ := isMethod
    exact .method key

/-- The standard transforms leave a declaration complete. -/
theorem Complete.polished
    {node : Node}
    (complete : Complete module concealment type node) :
    Complete module concealment type node.polished := by
  refine complete.induct (motive := fun type node => Complete module concealment type node.polished)
    ?_ ?_
  · intro type head isDelegate isHead
    obtain ⟨changed, token, symbol, polished⟩ := Node.exists_polished_type head []
    rw [polished]
    exact .delegate isDelegate ⟨token.trans isHead.token, symbol ▸ isHead.symbol⟩
  · intro type head nested others notDelegate isHead inner isOthers
    obtain ⟨changed, token, symbol, polished⟩ := Node.exists_polished_type head (nested ++ others)
    rw [polished, List.map_append]
    exact .members notDelegate ⟨token.trans isHead.token, symbol ▸ isHead.symbol⟩
      (List.forall₂_map_right_iff.2 inner) isOthers.polished

end Polished

/-! ## What is built -/

/-- A partial map makes something of each element that is kept, and nothing of the others. -/
theorem forall₂_filterMap
    {α β : Type}
    {elements : List α}
    {keep : α → Bool}
    {make : α → Option β}
    {related : α → β → Prop}
    (made : ∀ element, keep element = true → ∃ result, make element = some result
      ∧ related element result)
    (dropped : ∀ element, keep element = false → make element = none) :
    List.Forall₂ related (elements.filter keep) (elements.filterMap make) := by
  induction elements with
  | nil => exact .nil
  | cons first rest ih =>
      cases kept : keep first with
      | true =>
          obtain ⟨result, isMade, isRelated⟩ := made first kept
          rw [List.filter_cons_of_pos kept, List.filterMap_cons_some isMade]
          exact .cons isRelated ih
      | false =>
          rw [List.filter_cons_of_neg (Bool.eq_false_iff.1 kept),
            List.filterMap_cons_none (dropped first kept)]
          exact ih

namespace Decompiler

variable {decompiler : Decompiler} {symbol : SymbolKey} {type : TypeDefinition}

/-- The key of a member is that of its type with the kind and the name of the member. -/
theorem memberKey?_eq
    {module : Module}
    (own : module.typeKey? type.token = some symbol)
    (kind : SymbolKind)
    (name : String) :
    module.memberKey? type.token kind name = some (symbol.memberKey kind name) := by
  rw [Module.memberKey?, own, Option.map_some]

theorem forall₂_fieldNode?
    (own : decompiler.module.typeKey? type.token = some symbol) :
    List.Forall₂ (FieldOf decompiler.module type)
      (shownFields decompiler.settings.concealment type)
      (type.fields.filterMap (decompiler.fieldNode? symbol type)) := by
  refine forall₂_filterMap (fun field kept => ?_) (fun field dropped => ?_)
  · have key := memberKey?_eq own .field field.name
    obtain ⟨shown, literal⟩ : fieldHidden decompiler.settings.concealment field = false
        ∧ (type.kind ≠ .enumType ∨ field.flags.has FieldFlag.literal = true) := by
      simpa using kept
    by_cases isEnum : type.kind = .enumType
    · have constant := literal.resolve_left (not_not_intro isEnum)
      simp only [fieldNode?, shown, isEnum, constant, Bool.false_eq_true, ↓reduceIte]
      exact ⟨_, rfl, .enumMember isEnum key⟩
    · simp only [fieldNode?, shown, isEnum, Bool.false_eq_true, ↓reduceIte]
      exact ⟨_, rfl, .field isEnum key⟩
  · rw [Bool.and_eq_false_iff, Bool.not_eq_false', Bool.or_eq_false_iff] at dropped
    rcases dropped with hidden | ⟨isEnum, plain⟩
    · simp only [fieldNode?, hidden, ↓reduceIte]
    · have isEnum : type.kind = .enumType := by simpa using isEnum
      simp only [fieldNode?, isEnum, plain, Bool.false_eq_true, ↓reduceIte, ite_self]

theorem forall₂_propertyNode?
    (own : decompiler.module.typeKey? type.token = some symbol) :
    List.Forall₂ (PropertyOf decompiler.module type)
      (shownProperties type)
      (type.properties.filterMap (decompiler.propertyNode? symbol type)) := by
  refine forall₂_filterMap (fun property kept => ?_) (fun property dropped => ?_)
  · rw [← Option.isSome_or] at kept
    obtain ⟨primary, found⟩ := Option.isSome_iff_exists.1 kept
    simp only [propertyNode?, found, Option.map_some]
    exact ⟨_, rfl, .property (memberKey?_eq own .property property.name)⟩
  · rw [← Option.isSome_or, Option.isSome_eq_false_iff, Option.isNone_iff_eq_none] at dropped
    simp only [propertyNode?, dropped, Option.map_none]

theorem forall₂_eventNode
    (own : decompiler.module.typeKey? type.token = some symbol) :
    List.Forall₂ (EventOf decompiler.module type)
      type.events
      (type.events.map (decompiler.eventNode symbol type)) := by
  rw [List.forall₂_map_right_iff, List.forall₂_same]
  intro event _
  exact .event (memberKey?_eq own .event event.name)

theorem forall₂_methodNode?
    (own : decompiler.module.typeKey? type.token = some symbol) :
    List.Forall₂ (MethodOf decompiler.module type)
      (shownMethods decompiler.settings.concealment type)
      (type.methods.filterMap (decompiler.methodNode? symbol type)) := by
  refine forall₂_filterMap (fun method kept => ?_) (fun method dropped => ?_)
  · obtain ⟨plain, shown⟩ : type.isAccessor method.token = false
        ∧ methodHidden decompiler.settings.concealment method = false := by
      simpa using kept
    simp only [methodNode?, plain, shown, Bool.or_self, Bool.false_eq_true, ↓reduceIte]
    exact ⟨_, rfl, .method (memberKey?_eq own .method method.name)⟩
  · have omitted : (type.isAccessor method.token
        || methodHidden decompiler.settings.concealment method) = true := by
      rw [← Bool.not_or, Bool.not_eq_false'] at dropped
      exact dropped
    simp only [methodNode?, omitted, ↓reduceIte]

/-- The declarations of members are those of the shown ones. -/
theorem membersOf_memberNodes
    (own : decompiler.module.typeKey? type.token = some symbol) :
    MembersOf decompiler.module type decompiler.settings.concealment
      (decompiler.memberNodes symbol type) :=
  .intro (forall₂_fieldNode? own) (forall₂_propertyNode? own) (forall₂_eventNode own)
    (forall₂_methodNode? own)

/-- Nested types that have complete declarations become those of the shown ones. -/
theorem exists_nested
    {depth : Nat}
    {inners : List TypeDefinition}
    (built : ∀ inner ∈ inners, inner ∈ decompiler.module.types.entries
      ∧ ∃ node, decompiler.typeNode? depth inner = .ok node
        ∧ Complete decompiler.module decompiler.settings.concealment inner node) :
    ∃ nested,
      List.Forall₂ (decompiler.NestedNode depth) (inners.map (·.token)) nested
        ∧ List.Forall₂ (Complete decompiler.module decompiler.settings.concealment)
            (inners.filter (!typeHidden decompiler.settings.concealment ·))
            (nested.filterMap id) := by
  induction inners with
  | nil => exact ⟨[], .nil, .nil⟩
  | cons inner rest ih =>
      obtain ⟨nested, nodes, complete⟩ :=
        ih fun other isOther => built other (List.mem_cons_of_mem inner isOther)
      obtain ⟨member, node, isBuilt, isComplete⟩ := built inner List.mem_cons_self
      cases hidden : typeHidden decompiler.settings.concealment inner with
      | true =>
          have known : decompiler.nestedType? inner.token = .ok none := by
            simp only [nestedType?, Module.type?_token member, hidden, if_true]
          refine ⟨none :: nested, .cons (.omitted known) nodes, ?_⟩
          rw [List.filter_cons_of_neg (by simp [hidden])]
          exact complete
      | false =>
          have known : decompiler.nestedType? inner.token = .ok (some inner) := by
            simp only [nestedType?, Module.type?_token member, hidden, Bool.false_eq_true, if_false]
          refine ⟨some node :: nested, .cons (.shown known isBuilt) nodes, ?_⟩
          rw [List.filter_cons_of_pos (by simp [hidden])]
          exact .cons isComplete complete

/-- In a well-nested module the type at an index has a complete declaration, if the depth is enough
for the types behind it. -/
theorem exists_typeNode?
    (nesting : WellNested decompiler.module.types.entries)
    {depth i : Nat}
    {type : TypeDefinition}
    (at_i : decompiler.module.types.entries[i]? = some type)
    (enough : decompiler.module.types.size ≤ depth + i) :
    ∃ node, decompiler.typeNode? depth type = .ok node
      ∧ Complete decompiler.module decompiler.settings.concealment type node := by
  have inside : i < decompiler.module.types.size := (List.getElem?_eq_some_iff.1 at_i).1
  have member := List.mem_of_getElem? at_i
  induction depth generalizing i type with
  | zero => omega
  | succ depth ih =>
      obtain ⟨path, found⟩ := Module.exists_typePath? nesting member
      have own : decompiler.module.typeKey? type.token
          = some (.ofTypePath (Module.pathSpace path) (path.map (·.name))) := by
        rw [Module.typeKey?, found, Option.map_some]
      have isHead : HeadOf decompiler.module type (decompiler.typeHead _ type) := ⟨rfl, own⟩
      by_cases isDelegate : type.kind = .delegateType
      · refine ⟨_, typeNode?_succ_eq_ok_iff.2 ⟨_, own, Or.inl ⟨isDelegate, rfl⟩⟩, ?_⟩
        exact .delegate isDelegate isHead
      · have built : ∀ inner ∈ standingIn decompiler.module.types.entries type.token,
            inner ∈ decompiler.module.types.entries
              ∧ ∃ node, decompiler.typeNode? depth inner = .ok node
                ∧ Complete decompiler.module decompiler.settings.concealment inner node := by
          intro inner isInner
          obtain ⟨k, behind, at_k⟩ := Module.exists_index_of_standingIn nesting at_i isInner
          have isEntry := List.mem_of_getElem? at_k
          exact ⟨isEntry, ih at_k (by omega) (List.getElem?_eq_some_iff.1 at_k).1 isEntry⟩
        obtain ⟨nested, nodes, complete⟩ := exists_nested built
        rw [← nesting.inside type member] at nodes
        refine ⟨_, typeNode?_succ_eq_ok_iff.2 ⟨_, own, Or.inr ⟨isDelegate, nested, nodes, rfl⟩⟩, ?_⟩
        exact .members isDelegate isHead complete (membersOf_memberNodes own)

end Decompiler

end Declaration
end AssemblyAtlas
