import AssemblyAtlas.Proofs.Syntax.Editing
import Mathlib.Data.List.Forall2
import Mathlib.Data.Option.Basic

/-!
# What a tree may become

A tree is rewritten into another one of the same shape. Declared names, type parameters, the names
of parameters and locals, the names of named types and the lists of attributes may differ, in a way
that is given; all else has to be the same: namespace names, keys, tokens, kinds, modifiers,
keywords, ranks, what is known about named types, values, and the attributes that stay.

* `SourceUnit.RewritesTo` and its kin say so for each kind of part, field by field;
* `Rewriting.MadeBy.isGraph_unit` identifies the one tree that a source file may be rewritten into
  with the result of an edit.
-/

namespace AssemblyAtlas
namespace Syntax

open Assembly

/-- How the parts that may change are related to what they become. -/
structure Rewriting where
  /-- A declared name, a type parameter, or the name of a parameter or a local. -/
  identifier : String → String → Prop
  /-- The name of a named type, before its arguments. -/
  typeName : String → String → Prop
  /-- The attributes of a source file or of a declaration. -/
  marks : List Mark → List Mark → Prop

section Relation

variable (rewriting : Rewriting)

inductive TypeNode.RewritesTo : TypeNode → TypeNode → Prop
  | primitive (keyword : String) :
      RewritesTo (.primitive keyword) (.primitive keyword)
  | named
      {name newName : String} {arguments newArguments : List TypeNode}
      (resolved : ResolvedType) :
      rewriting.typeName name newName →
      List.Forall₂ RewritesTo arguments newArguments →
      RewritesTo (.named name arguments resolved) (.named newName newArguments resolved)
  | array {element newElement : TypeNode} (rank : UInt32) :
      RewritesTo element newElement →
      RewritesTo (.array element rank) (.array newElement rank)
  | pointer {target newTarget : TypeNode} :
      RewritesTo target newTarget →
      RewritesTo (.pointer target) (.pointer newTarget)
  | byReference {target newTarget : TypeNode} :
      RewritesTo target newTarget →
      RewritesTo (.byReference target) (.byReference newTarget)
  | parameter {name newName : String} :
      rewriting.identifier name newName →
      RewritesTo (.parameter name) (.parameter newName)

structure ParameterNode.RewritesTo (old new : ParameterNode) : Prop where
  type : old.type.RewritesTo rewriting new.type
  name : rewriting.identifier old.name new.name

inductive Statement.RewritesTo : Statement → Statement → Prop
  | declareLocal {type newType : TypeNode} {name newName : String} :
      type.RewritesTo rewriting newType →
      rewriting.identifier name newName →
      RewritesTo (.declareLocal type name) (.declareLocal newType newName)
  | throwNull :
      RewritesTo .throwNull .throwNull

/-- Both bodies are absent, or their statements correspond to each other. -/
def Body.RewritesTo (old new : Body) : Prop :=
  Option.Rel (List.Forall₂ (Statement.RewritesTo rewriting)) old new

structure DelegateNode.RewritesTo (old new : DelegateNode) : Prop where
  returns : old.returns.RewritesTo rewriting new.returns
  parameters : List.Forall₂ (ParameterNode.RewritesTo rewriting) old.parameters new.parameters

/-- The members of the type are not looked at. -/
structure TypeHead.RewritesTo (old new : TypeHead) : Prop where
  symbol : new.symbol = old.symbol
  token : new.token = old.token
  kind : new.kind = old.kind
  modifiers : new.modifiers = old.modifiers
  name : rewriting.identifier old.name new.name
  typeParameters : List.Forall₂ rewriting.identifier old.typeParameters new.typeParameters
  bases : List.Forall₂ (TypeNode.RewritesTo rewriting) old.bases new.bases
  marks : rewriting.marks old.marks new.marks
  delegate : Option.Rel (DelegateNode.RewritesTo rewriting) old.delegate new.delegate

structure FieldNode.RewritesTo (old new : FieldNode) : Prop where
  symbol : new.symbol = old.symbol
  modifiers : new.modifiers = old.modifiers
  type : old.type.RewritesTo rewriting new.type
  name : rewriting.identifier old.name new.name
  value : new.value = old.value
  marks : rewriting.marks old.marks new.marks

structure EnumMemberNode.RewritesTo (old new : EnumMemberNode) : Prop where
  symbol : new.symbol = old.symbol
  name : rewriting.identifier old.name new.name
  value : new.value = old.value
  marks : rewriting.marks old.marks new.marks

structure MethodNode.RewritesTo (old new : MethodNode) : Prop where
  symbol : new.symbol = old.symbol
  modifiers : new.modifiers = old.modifiers
  returns : Option.Rel (TypeNode.RewritesTo rewriting) old.returns new.returns
  name : rewriting.identifier old.name new.name
  typeParameters : List.Forall₂ rewriting.identifier old.typeParameters new.typeParameters
  parameters : List.Forall₂ (ParameterNode.RewritesTo rewriting) old.parameters new.parameters
  body : Body.RewritesTo rewriting old.body new.body
  marks : rewriting.marks old.marks new.marks

structure Accessor.RewritesTo (old new : Accessor) : Prop where
  body : Body.RewritesTo rewriting old.body new.body

structure PropertyNode.RewritesTo (old new : PropertyNode) : Prop where
  symbol : new.symbol = old.symbol
  modifiers : new.modifiers = old.modifiers
  type : old.type.RewritesTo rewriting new.type
  name : rewriting.identifier old.name new.name
  getter : Option.Rel (Accessor.RewritesTo rewriting) old.getter new.getter
  setter : Option.Rel (Accessor.RewritesTo rewriting) old.setter new.setter
  marks : rewriting.marks old.marks new.marks

structure EventNode.RewritesTo (old new : EventNode) : Prop where
  symbol : new.symbol = old.symbol
  modifiers : new.modifiers = old.modifiers
  type : old.type.RewritesTo rewriting new.type
  name : rewriting.identifier old.name new.name
  marks : rewriting.marks old.marks new.marks

/-- The declarations are of one kind and correspond to each other, and so do those inside them. -/
inductive Node.RewritesTo : Node → Node → Prop
  | space {members newMembers : List Node} (name : String) :
      List.Forall₂ RewritesTo members newMembers →
      RewritesTo (.space name members) (.space name newMembers)
  | type {head newHead : TypeHead} {members newMembers : List Node} :
      head.RewritesTo rewriting newHead →
      List.Forall₂ RewritesTo members newMembers →
      RewritesTo (.type head members) (.type newHead newMembers)
  | field {declaration newDeclaration : FieldNode} :
      declaration.RewritesTo rewriting newDeclaration →
      RewritesTo (.field declaration) (.field newDeclaration)
  | enumMember {declaration newDeclaration : EnumMemberNode} :
      declaration.RewritesTo rewriting newDeclaration →
      RewritesTo (.enumMember declaration) (.enumMember newDeclaration)
  | method {declaration newDeclaration : MethodNode} :
      declaration.RewritesTo rewriting newDeclaration →
      RewritesTo (.method declaration) (.method newDeclaration)
  | property {declaration newDeclaration : PropertyNode} :
      declaration.RewritesTo rewriting newDeclaration →
      RewritesTo (.property declaration) (.property newDeclaration)
  | event {declaration newDeclaration : EventNode} :
      declaration.RewritesTo rewriting newDeclaration →
      RewritesTo (.event declaration) (.event newDeclaration)

structure SourceUnit.RewritesTo (old new : SourceUnit) : Prop where
  marks : rewriting.marks old.marks new.marks
  members : List.Forall₂ (Node.RewritesTo rewriting) old.members new.members

end Relation

/-! ## Relations of just one image -/

/-- The relation holds between an element and its image only. -/
def IsGraph {α : Type} (Related : α → α → Prop) (change : α → α) : Prop :=
  ∀ old new, Related old new ↔ new = change old

section Graphs

variable {α : Type}
variable {Related : α → α → Prop}
variable {change : α → α}

/-- The images of a list are those of its first element and of the rest. -/
theorem forall₂_cons_iff_eq
    {element image : α}
    {rest images : List α}
    (first : ∀ new, Related element new ↔ new = image)
    (later : ∀ new, List.Forall₂ Related rest new ↔ new = images)
    (new : List α) :
    List.Forall₂ Related (element :: rest) new ↔ new = image :: images := by
  rw [List.forall₂_cons_left_iff]
  constructor
  · rintro ⟨newElement, newRest, isImage, areImages, rfl⟩
    rw [(first newElement).1 isImage, (later newRest).1 areImages]
  · rintro rfl
    exact ⟨_, _, (first _).2 rfl, (later _).2 rfl, rfl⟩

theorem IsGraph.forall₂
    (graph : IsGraph Related change) :
    IsGraph (List.Forall₂ Related) (List.map change) := by
  intro old
  induction old with
  | nil => exact fun new => List.forall₂_nil_left_iff
  | cons element rest ih => exact forall₂_cons_iff_eq (graph element) ih

theorem IsGraph.optionRel
    (graph : IsGraph Related change) :
    IsGraph (Option.Rel Related) (Option.map change) := by
  intro old new
  constructor
  · rintro (isImage | _)
    · exact congrArg some ((graph _ _).1 isImage)
    · rfl
  · rintro rfl
    cases old with
    | none => exact .none
    | some element => exact .some ((graph _ _).2 rfl)

end Graphs

/-- The edit makes of the parts that may change what they are related to. -/
structure Rewriting.MadeBy (rewriting : Rewriting) (edit : Edit Id) : Prop where
  identifier : IsGraph rewriting.identifier edit.identifier
  typeName : IsGraph rewriting.typeName edit.typeName
  marks : IsGraph rewriting.marks edit.marks

namespace Rewriting.MadeBy

variable {rewriting : Rewriting}
variable {edit : Edit Id}

mutual

theorem isGraph_type
    (made : rewriting.MadeBy edit) :
    (old new : TypeNode) → (old.RewritesTo rewriting new ↔ new = edit.type old)
  | .primitive keyword, new => by
      constructor
      · intro rewrites
        cases rewrites with
        | primitive => rfl
      · rintro rfl
        exact .primitive keyword
  | .named name arguments resolved, new => by
      have inside := made.isGraph_types arguments
      constructor
      · intro rewrites
        cases rewrites with
        | named _ isName areArguments =>
            rw [(made.typeName _ _).1 isName, (inside _).1 areArguments]
            rfl
      · rintro rfl
        exact .named resolved ((made.typeName _ _).2 rfl) ((inside _).2 rfl)
  | .array element rank, new => by
      have inside := made.isGraph_type element
      constructor
      · intro rewrites
        cases rewrites with
        | array _ isElement =>
            rw [(inside _).1 isElement]
            rfl
      · rintro rfl
        exact .array rank ((inside _).2 rfl)
  | .pointer target, new => by
      have inside := made.isGraph_type target
      constructor
      · intro rewrites
        cases rewrites with
        | pointer isTarget =>
            rw [(inside _).1 isTarget]
            rfl
      · rintro rfl
        exact .pointer ((inside _).2 rfl)
  | .byReference target, new => by
      have inside := made.isGraph_type target
      constructor
      · intro rewrites
        cases rewrites with
        | byReference isTarget =>
            rw [(inside _).1 isTarget]
            rfl
      · rintro rfl
        exact .byReference ((inside _).2 rfl)
  | .parameter name, new => by
      constructor
      · intro rewrites
        cases rewrites with
        | parameter isName =>
            rw [(made.identifier _ _).1 isName]
            rfl
      · rintro rfl
        exact .parameter ((made.identifier _ _).2 rfl)

theorem isGraph_types
    (made : rewriting.MadeBy edit) :
    (old new : List TypeNode) →
      (List.Forall₂ (TypeNode.RewritesTo rewriting) old new ↔ new = edit.types old)
  | [], _ => List.forall₂_nil_left_iff
  | type :: rest, new =>
      forall₂_cons_iff_eq (made.isGraph_type type) (made.isGraph_types rest) new

end

theorem isGraph_parameter
    (made : rewriting.MadeBy edit) :
    IsGraph (ParameterNode.RewritesTo rewriting) edit.parameter := by
  intro old new
  constructor
  · rintro ⟨type, name⟩
    calc new = ⟨new.type, new.name⟩ := rfl
      _ = edit.parameter old := by
        rw [(made.isGraph_type _ _).1 type, (made.identifier _ _).1 name]
        rfl
  · rintro rfl
    exact ⟨(made.isGraph_type _ _).2 rfl, (made.identifier _ _).2 rfl⟩

theorem isGraph_statement
    (made : rewriting.MadeBy edit) :
    IsGraph (Statement.RewritesTo rewriting) edit.statement := by
  intro old new
  constructor
  · intro rewrites
    cases rewrites with
    | declareLocal isType isName =>
        rw [(made.isGraph_type _ _).1 isType, (made.identifier _ _).1 isName]
        rfl
    | throwNull => rfl
  · rintro rfl
    cases old with
    | declareLocal type name =>
        exact .declareLocal ((made.isGraph_type _ _).2 rfl) ((made.identifier _ _).2 rfl)
    | throwNull => exact .throwNull

theorem isGraph_body
    (made : rewriting.MadeBy edit) :
    IsGraph (Body.RewritesTo rewriting) edit.body := by
  intro old new
  rw [edit.body_eq]
  exact made.isGraph_statement.forall₂.optionRel old new

theorem isGraph_delegate
    (made : rewriting.MadeBy edit) :
    IsGraph (DelegateNode.RewritesTo rewriting) edit.delegate := by
  intro old new
  rw [edit.delegate_eq]
  constructor
  · rintro ⟨returns, parameters⟩
    calc new = ⟨new.returns, new.parameters⟩ := rfl
      _ = _ := by
        rw [(made.isGraph_type _ _).1 returns, (made.isGraph_parameter.forall₂ _ _).1 parameters]
  · rintro rfl
    exact ⟨(made.isGraph_type _ _).2 rfl, (made.isGraph_parameter.forall₂ _ _).2 rfl⟩

theorem isGraph_bases
    (made : rewriting.MadeBy edit) :
    IsGraph (List.Forall₂ (TypeNode.RewritesTo rewriting)) (List.map edit.type) :=
  IsGraph.forall₂ made.isGraph_type

theorem isGraph_typeHead
    (made : rewriting.MadeBy edit) :
    IsGraph (TypeHead.RewritesTo rewriting) edit.typeHead := by
  intro old new
  rw [edit.typeHead_eq]
  constructor
  · rintro ⟨symbol, token, kind, modifiers, name, typeParameters, bases, marks, delegate⟩
    calc new
        = ⟨new.symbol, new.token, new.kind, new.modifiers, new.name, new.typeParameters, new.bases,
            new.marks, new.delegate⟩ := rfl
      _ = _ := by
        rw [symbol, token, kind, modifiers, (made.identifier _ _).1 name,
          (made.identifier.forall₂ _ _).1 typeParameters, (made.isGraph_bases _ _).1 bases,
          (made.marks _ _).1 marks, (made.isGraph_delegate.optionRel _ _).1 delegate]
  · rintro rfl
    exact ⟨rfl, rfl, rfl, rfl, (made.identifier _ _).2 rfl, (made.identifier.forall₂ _ _).2 rfl,
      (made.isGraph_bases _ _).2 rfl, (made.marks _ _).2 rfl, (made.isGraph_delegate.optionRel _ _).2 rfl⟩

theorem isGraph_field
    (made : rewriting.MadeBy edit) :
    IsGraph (FieldNode.RewritesTo rewriting) edit.field := by
  intro old new
  constructor
  · rintro ⟨symbol, modifiers, type, name, value, marks⟩
    calc new = ⟨new.symbol, new.modifiers, new.type, new.name, new.value, new.marks⟩ := rfl
      _ = edit.field old := by
        rw [symbol, modifiers, (made.isGraph_type _ _).1 type, (made.identifier _ _).1 name, value,
          (made.marks _ _).1 marks]
        rfl
  · rintro rfl
    exact ⟨rfl, rfl, (made.isGraph_type _ _).2 rfl, (made.identifier _ _).2 rfl, rfl,
      (made.marks _ _).2 rfl⟩

theorem isGraph_enumMember
    (made : rewriting.MadeBy edit) :
    IsGraph (EnumMemberNode.RewritesTo rewriting) edit.enumMember := by
  intro old new
  constructor
  · rintro ⟨symbol, name, value, marks⟩
    calc new = ⟨new.symbol, new.name, new.value, new.marks⟩ := rfl
      _ = edit.enumMember old := by
        rw [symbol, (made.identifier _ _).1 name, value, (made.marks _ _).1 marks]
        rfl
  · rintro rfl
    exact ⟨rfl, (made.identifier _ _).2 rfl, rfl, (made.marks _ _).2 rfl⟩

theorem isGraph_method
    (made : rewriting.MadeBy edit) :
    IsGraph (MethodNode.RewritesTo rewriting) edit.method := by
  have results : IsGraph (Option.Rel (TypeNode.RewritesTo rewriting)) (Option.map edit.type) :=
    IsGraph.optionRel made.isGraph_type
  intro old new
  rw [edit.method_eq]
  constructor
  · rintro ⟨symbol, modifiers, returns, name, typeParameters, parameters, body, marks⟩
    calc new
        = ⟨new.symbol, new.modifiers, new.returns, new.name, new.typeParameters, new.parameters,
            new.body, new.marks⟩ := rfl
      _ = _ := by
        rw [symbol, modifiers, (results _ _).1 returns, (made.identifier _ _).1 name,
          (made.identifier.forall₂ _ _).1 typeParameters,
          (made.isGraph_parameter.forall₂ _ _).1 parameters, (made.isGraph_body _ _).1 body,
          (made.marks _ _).1 marks]
  · rintro rfl
    exact ⟨rfl, rfl, (results _ _).2 rfl, (made.identifier _ _).2 rfl,
      (made.identifier.forall₂ _ _).2 rfl, (made.isGraph_parameter.forall₂ _ _).2 rfl,
      (made.isGraph_body _ _).2 rfl, (made.marks _ _).2 rfl⟩

theorem isGraph_accessor
    (made : rewriting.MadeBy edit) :
    IsGraph (Accessor.RewritesTo rewriting) edit.accessor := by
  intro old new
  constructor
  · rintro ⟨body⟩
    exact congrArg Accessor.mk ((made.isGraph_body _ _).1 body)
  · rintro rfl
    exact ⟨(made.isGraph_body _ _).2 rfl⟩

theorem isGraph_property
    (made : rewriting.MadeBy edit) :
    IsGraph (PropertyNode.RewritesTo rewriting) edit.property := by
  intro old new
  rw [edit.property_eq]
  constructor
  · rintro ⟨symbol, modifiers, type, name, getter, setter, marks⟩
    calc new
        = ⟨new.symbol, new.modifiers, new.type, new.name, new.getter, new.setter, new.marks⟩ := rfl
      _ = _ := by
        rw [symbol, modifiers, (made.isGraph_type _ _).1 type, (made.identifier _ _).1 name,
          (made.isGraph_accessor.optionRel _ _).1 getter, (made.isGraph_accessor.optionRel _ _).1 setter,
          (made.marks _ _).1 marks]
  · rintro rfl
    exact ⟨rfl, rfl, (made.isGraph_type _ _).2 rfl, (made.identifier _ _).2 rfl,
      (made.isGraph_accessor.optionRel _ _).2 rfl, (made.isGraph_accessor.optionRel _ _).2 rfl,
      (made.marks _ _).2 rfl⟩

theorem isGraph_event
    (made : rewriting.MadeBy edit) :
    IsGraph (EventNode.RewritesTo rewriting) edit.event := by
  intro old new
  constructor
  · rintro ⟨symbol, modifiers, type, name, marks⟩
    calc new = ⟨new.symbol, new.modifiers, new.type, new.name, new.marks⟩ := rfl
      _ = edit.event old := by
        rw [symbol, modifiers, (made.isGraph_type _ _).1 type, (made.identifier _ _).1 name,
          (made.marks _ _).1 marks]
        rfl
  · rintro rfl
    exact ⟨rfl, rfl, (made.isGraph_type _ _).2 rfl, (made.identifier _ _).2 rfl, (made.marks _ _).2 rfl⟩

mutual

theorem isGraph_node
    (made : rewriting.MadeBy edit) :
    (old new : Node) → (old.RewritesTo rewriting new ↔ new = edit.node old)
  | .space name members, new => by
      have inside := made.isGraph_nodes members
      constructor
      · intro rewrites
        cases rewrites with
        | space _ areMembers =>
            rw [(inside _).1 areMembers]
            rfl
      · rintro rfl
        exact .space name ((inside _).2 rfl)
  | .type head members, new => by
      have inside := made.isGraph_nodes members
      constructor
      · intro rewrites
        cases rewrites with
        | type isHead areMembers =>
            rw [(made.isGraph_typeHead _ _).1 isHead, (inside _).1 areMembers]
            rfl
      · rintro rfl
        exact .type ((made.isGraph_typeHead _ _).2 rfl) ((inside _).2 rfl)
  | .field declaration, new => by
      constructor
      · intro rewrites
        cases rewrites with
        | field isField => exact congrArg Node.field ((made.isGraph_field _ _).1 isField)
      · rintro rfl
        exact .field ((made.isGraph_field _ _).2 rfl)
  | .enumMember declaration, new => by
      constructor
      · intro rewrites
        cases rewrites with
        | enumMember isMember => exact congrArg Node.enumMember ((made.isGraph_enumMember _ _).1 isMember)
      · rintro rfl
        exact .enumMember ((made.isGraph_enumMember _ _).2 rfl)
  | .method declaration, new => by
      constructor
      · intro rewrites
        cases rewrites with
        | method isMethod => exact congrArg Node.method ((made.isGraph_method _ _).1 isMethod)
      · rintro rfl
        exact .method ((made.isGraph_method _ _).2 rfl)
  | .property declaration, new => by
      constructor
      · intro rewrites
        cases rewrites with
        | property isProperty => exact congrArg Node.property ((made.isGraph_property _ _).1 isProperty)
      · rintro rfl
        exact .property ((made.isGraph_property _ _).2 rfl)
  | .event declaration, new => by
      constructor
      · intro rewrites
        cases rewrites with
        | event isEvent => exact congrArg Node.event ((made.isGraph_event _ _).1 isEvent)
      · rintro rfl
        exact .event ((made.isGraph_event _ _).2 rfl)

theorem isGraph_nodes
    (made : rewriting.MadeBy edit) :
    (old new : List Node) →
      (List.Forall₂ (Node.RewritesTo rewriting) old new ↔ new = edit.nodes old)
  | [], _ => List.forall₂_nil_left_iff
  | node :: rest, new =>
      forall₂_cons_iff_eq (made.isGraph_node node) (made.isGraph_nodes rest) new

end

/-- A source file may be rewritten into just what the edit makes of it. -/
theorem isGraph_unit
    (made : rewriting.MadeBy edit) :
    IsGraph (SourceUnit.RewritesTo rewriting) edit.unit := by
  intro old new
  constructor
  · rintro ⟨marks, members⟩
    calc new = ⟨new.marks, new.members⟩ := rfl
      _ = edit.unit old := by
        rw [(made.marks _ _).1 marks, (made.isGraph_nodes _ _).1 members]
        rfl
  · rintro rfl
    exact ⟨(made.marks _ _).2 rfl, (made.isGraph_nodes _ _).2 rfl⟩

end Rewriting.MadeBy

end Syntax
end AssemblyAtlas
