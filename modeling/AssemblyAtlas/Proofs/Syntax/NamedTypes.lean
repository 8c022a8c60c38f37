import AssemblyAtlas.Syntax.Visit

/-!
# Where named types stand

The visits of a tree reach every named type, however deep it stands: in attributes and their
arguments, in base types, signatures, members, parameters and locals, behind `typeof`, in array
elements and in type arguments.

* `SourceUnit.Names` says, by the shape of the tree alone, that a named type with a definition
  stands somewhere in it;
* `SourceUnit.mem_namedTypes_iff` identifies it with the list that the visits give.
-/

namespace AssemblyAtlas
namespace Syntax

open Assembly

section Occurrence

variable (resolved : ResolvedType)

/-- A named type with the definition stands in the type. -/
inductive TypeNode.Names : TypeNode → Prop
  | here {name : String} {arguments : List TypeNode} :
      Names (.named name arguments resolved)
  | argument
      {name : String} {arguments : List TypeNode} {other : ResolvedType}
      {argument : TypeNode} :
      argument ∈ arguments →
      Names argument →
      Names (.named name arguments other)
  | element {element : TypeNode} {rank : UInt32} :
      Names element →
      Names (.array element rank)
  | pointed {target : TypeNode} :
      Names target →
      Names (.pointer target)
  | referred {target : TypeNode} :
      Names target →
      Names (.byReference target)

/-- A named type with the definition stands in the expression. -/
inductive Expression.Names : Expression → Prop
  | typeOf {type : TypeNode} :
      type.Names resolved →
      Names (.typeOf type)
  | element {elements : List Expression} {element : Expression} :
      element ∈ elements →
      Names element →
      Names (.array elements)

/-- A named type with the definition stands in the attribute: it is the attribute's own type or
stands in an argument. -/
def Mark.Names (mark : Mark) : Prop :=
  mark.type.Names resolved
    ∨ (∃ argument ∈ mark.arguments, argument.Names resolved)
    ∨ ∃ argument ∈ mark.named, argument.2.Names resolved

/-- A named type with the definition stands in the statement. -/
inductive Statement.Names : Statement → Prop
  | declareLocal {type : TypeNode} {name : String} :
      type.Names resolved →
      Names (.declareLocal type name)

/-- A named type with the definition stands in a statement of the body. -/
def Body.Names (body : Body) : Prop :=
  ∃ statements, body = some statements ∧ ∃ statement ∈ statements, statement.Names resolved

/-- A named type with the definition stands in an attribute of the list. -/
def Mark.NamesIn (marks : List Mark) : Prop :=
  ∃ mark ∈ marks, mark.Names resolved

/-- A named type with the definition stands in the type of a parameter of the list. -/
def ParameterNode.NamesIn (parameters : List ParameterNode) : Prop :=
  ∃ parameter ∈ parameters, parameter.type.Names resolved

/-- A named type with the definition stands in a type declaration outside its members. -/
def TypeHead.Names (head : TypeHead) : Prop :=
  Mark.NamesIn resolved head.marks
    ∨ (∃ base ∈ head.bases, base.Names resolved)
    ∨ ∃ delegate, head.delegate = some delegate ∧
        (delegate.returns.Names resolved ∨ ParameterNode.NamesIn resolved delegate.parameters)

/-- A named type with the definition stands in an optional value. -/
def Expression.NamesIn (value : Option Expression) : Prop :=
  ∃ expression, value = some expression ∧ expression.Names resolved

/-- A named type with the definition stands in the body of an optional accessor. -/
def Accessor.NamesIn (accessor : Option Accessor) : Prop :=
  ∃ present, accessor = some present ∧ Body.Names resolved present.body

def FieldNode.Names (field : FieldNode) : Prop :=
  Mark.NamesIn resolved field.marks
    ∨ field.type.Names resolved
    ∨ Expression.NamesIn resolved field.value

def EnumMemberNode.Names (member : EnumMemberNode) : Prop :=
  Mark.NamesIn resolved member.marks ∨ Expression.NamesIn resolved member.value

/-- A named type with the definition stands in the method. -/
def MethodNode.Names (method : MethodNode) : Prop :=
  Mark.NamesIn resolved method.marks
    ∨ (∃ returns, method.returns = some returns ∧ returns.Names resolved)
    ∨ ParameterNode.NamesIn resolved method.parameters
    ∨ Body.Names resolved method.body

def PropertyNode.Names (property : PropertyNode) : Prop :=
  Mark.NamesIn resolved property.marks
    ∨ property.type.Names resolved
    ∨ Accessor.NamesIn resolved property.getter
    ∨ Accessor.NamesIn resolved property.setter

def EventNode.Names (event : EventNode) : Prop :=
  Mark.NamesIn resolved event.marks ∨ event.type.Names resolved

/-- A named type with the definition stands in the declaration or in one inside it. -/
inductive Node.Names : Node → Prop
  | space {name : String} {members : List Node} {member : Node} :
      member ∈ members →
      Names member →
      Names (.space name members)
  | head {head : TypeHead} {members : List Node} :
      head.Names resolved →
      Names (.type head members)
  | member {head : TypeHead} {members : List Node} {member : Node} :
      member ∈ members →
      Names member →
      Names (.type head members)
  | field {declaration : FieldNode} :
      declaration.Names resolved →
      Names (.field declaration)
  | enumMember {declaration : EnumMemberNode} :
      declaration.Names resolved →
      Names (.enumMember declaration)
  | method {declaration : MethodNode} :
      declaration.Names resolved →
      Names (.method declaration)
  | property {declaration : PropertyNode} :
      declaration.Names resolved →
      Names (.property declaration)
  | event {declaration : EventNode} :
      declaration.Names resolved →
      Names (.event declaration)

/-- A named type with the definition stands in the source file. -/
def SourceUnit.Names (unit : SourceUnit) : Prop :=
  Mark.NamesIn resolved unit.marks ∨ ∃ member ∈ unit.members, member.Names resolved

/-- One of the visits is that of a named type with the definition. -/
def Visit.Meets (visits : List Visit) : Prop :=
  ∃ name arguments, Visit.type (.named name arguments resolved) ∈ visits

end Occurrence

/-! ## Visits, one kind of part at a time

Each lemma `meets_visits` says for one kind of part that its visits meet exactly the named types in
it. -/

section Visits

variable {resolved : ResolvedType}

@[simp] theorem Visit.meets_nil :
    Visit.Meets resolved [] ↔ False := by
  simp [Visit.Meets]

@[simp] theorem Visit.meets_append
    (left right : List Visit) :
    Visit.Meets resolved (left ++ right)
      ↔
    Visit.Meets resolved left ∨ Visit.Meets resolved right := by
  simp [Visit.Meets, exists_or]

@[simp] theorem Visit.meets_cons
    (visit : Visit)
    (rest : List Visit) :
    Visit.Meets resolved (visit :: rest)
      ↔
    (∃ name arguments, visit = .type (.named name arguments resolved))
      ∨ Visit.Meets resolved rest := by
  simp only [Visit.Meets, List.mem_cons, exists_or]
  constructor
  · rintro (⟨name, arguments, h⟩ | h)
    · exact Or.inl ⟨name, arguments, h.symm⟩
    · exact Or.inr h
  · rintro (⟨name, arguments, h⟩ | h)
    · exact Or.inl ⟨name, arguments, h.symm⟩
    · exact Or.inr h

/-- The visits of parts in a row meet what those of one of the parts meet. -/
theorem Visit.meets_flatMap
    {α : Type}
    (parts : List α)
    (visits : α → List Visit) :
    Visit.Meets resolved (parts.flatMap visits)
      ↔
    ∃ part ∈ parts, Visit.Meets resolved (visits part) := by
  induction parts with
  | nil => simp
  | cons part rest ih => simp [ih]

/-- The visits of an optional part are those of the part that is there. -/
theorem Visit.meets_elim
    {α : Type}
    (part : Option α)
    (visits : α → List Visit) :
    Visit.Meets resolved (part.elim [] visits)
      ↔
    ∃ present, part = some present ∧ Visit.Meets resolved (visits present) := by
  cases part with
  | none => simp
  | some present => simp

mutual

/-- The visits of a type meet the named types in it. -/
theorem TypeNode.meets_visits :
    (type : TypeNode) →
      (Visit.Meets resolved type.visits ↔ type.Names resolved)
  | .primitive keyword => by
      simp only [TypeNode.visits, Visit.meets_cons, Visit.meets_nil, or_false]
      constructor
      · rintro ⟨_, _, h⟩
        simp at h
      · rintro ⟨⟩
  | .named name arguments other => by
      have inside := TypeNode.meets_visitsOfAll arguments
      simp only [TypeNode.visits, Visit.meets_cons, inside]
      constructor
      · rintro (⟨_, _, h⟩ | ⟨argument, member, names⟩)
        · obtain ⟨rfl, rfl, rfl⟩ : name = _ ∧ arguments = _ ∧ other = resolved := by
            simpa using h
          exact .here
        · exact .argument member names
      · intro h
        cases h with
        | here => exact Or.inl ⟨name, arguments, rfl⟩
        | argument member names => exact Or.inr ⟨_, member, names⟩
  | .array element rank => by
      have inside := TypeNode.meets_visits element
      simp only [TypeNode.visits, Visit.meets_cons, inside]
      constructor
      · rintro (⟨_, _, h⟩ | names)
        · simp at h
        · exact .element names
      · rintro (_ | _ | names)
        exact Or.inr names
  | .pointer target => by
      have inside := TypeNode.meets_visits target
      simp only [TypeNode.visits, Visit.meets_cons, inside]
      constructor
      · rintro (⟨_, _, h⟩ | names)
        · simp at h
        · exact .pointed names
      · rintro (_ | _ | _ | names)
        exact Or.inr names
  | .byReference target => by
      have inside := TypeNode.meets_visits target
      simp only [TypeNode.visits, Visit.meets_cons, inside]
      constructor
      · rintro (⟨_, _, h⟩ | names)
        · simp at h
        · exact .referred names
      · rintro (_ | _ | _ | _ | names)
        exact Or.inr names
  | .parameter name => by
      simp only [TypeNode.visits, Visit.meets_cons, Visit.meets_nil, or_false]
      constructor
      · rintro ⟨_, _, h⟩
        simp at h
      · rintro ⟨⟩

theorem TypeNode.meets_visitsOfAll :
    (types : List TypeNode) →
      (Visit.Meets resolved (TypeNode.visitsOfAll types)
        ↔ ∃ type ∈ types, type.Names resolved)
  | [] => by simp [TypeNode.visitsOfAll]
  | type :: rest => by
      have first := TypeNode.meets_visits type
      have later := TypeNode.meets_visitsOfAll rest
      simp [TypeNode.visitsOfAll, first, later]

end

mutual

theorem Expression.meets_visits :
    (expression : Expression) →
      (Visit.Meets resolved expression.visits ↔ expression.Names resolved)
  | .constant value => by
      simp only [Expression.visits, Visit.meets_cons, Visit.meets_nil, or_false]
      constructor
      · rintro ⟨_, _, h⟩
        simp at h
      · rintro ⟨⟩
  | .typeOf type => by
      have inside : Visit.Meets resolved type.visits ↔ type.Names resolved :=
        TypeNode.meets_visits type
      simp only [Expression.visits, Visit.meets_cons, inside]
      constructor
      · rintro (⟨_, _, h⟩ | names)
        · simp at h
        · exact .typeOf names
      · rintro (names | _)
        exact Or.inr names
  | .array elements => by
      have inside := Expression.meets_visitsOfAll elements
      simp only [Expression.visits, Visit.meets_cons, inside]
      constructor
      · rintro (⟨_, _, h⟩ | ⟨element, member, names⟩)
        · simp at h
        · exact .element member names
      · intro h
        cases h with
        | element member names => exact Or.inr ⟨_, member, names⟩

theorem Expression.meets_visitsOfAll :
    (expressions : List Expression) →
      (Visit.Meets resolved (Expression.visitsOfAll expressions)
        ↔ ∃ expression ∈ expressions, expression.Names resolved)
  | [] => by simp [Expression.visitsOfAll]
  | expression :: rest => by
      have first := Expression.meets_visits expression
      have later := Expression.meets_visitsOfAll rest
      simp [Expression.visitsOfAll, first, later]

end

theorem Mark.meets_visits (mark : Mark) :
    Visit.Meets resolved mark.visits ↔ mark.Names resolved := by
  simp [Mark.visits, Mark.Names, Visit.meets_flatMap, TypeNode.meets_visits,
    Expression.meets_visits]

theorem Mark.meets_flatMap_visits (marks : List Mark) :
    Visit.Meets resolved (marks.flatMap (·.visits)) ↔ Mark.NamesIn resolved marks := by
  simp [Mark.NamesIn, Visit.meets_flatMap, Mark.meets_visits]

theorem Statement.meets_visits (statement : Statement) :
    Visit.Meets resolved statement.visits ↔ statement.Names resolved := by
  cases statement with
  | declareLocal type name =>
      simp only [Statement.visits, Visit.meets_cons, TypeNode.meets_visits, reduceCtorEq,
        exists_false, false_or]
      constructor
      · exact .declareLocal
      · rintro ⟨names⟩
        exact names
  | throwNull =>
      simp only [Statement.visits, Visit.meets_cons, Visit.meets_nil, reduceCtorEq, exists_false,
        or_false, false_iff]
      rintro ⟨⟩

theorem Body.meets_visits (body : Body) :
    Visit.Meets resolved (Body.visits body) ↔ Body.Names resolved body := by
  cases body with
  | none => simp [Body.visits, Body.Names]
  | some statements => simp [Body.visits, Body.Names, Visit.meets_flatMap, Statement.meets_visits]

theorem ParameterNode.meets_visitsOfAll (parameters : List ParameterNode) :
    Visit.Meets resolved (ParameterNode.visitsOfAll parameters)
      ↔
    ParameterNode.NamesIn resolved parameters := by
  simp [ParameterNode.visitsOfAll, ParameterNode.NamesIn, Visit.meets_flatMap,
    TypeNode.meets_visits]

theorem Expression.meets_elim_visits (value : Option Expression) :
    Visit.Meets resolved (value.elim [] (·.visits)) ↔ Expression.NamesIn resolved value := by
  simp [Visit.meets_elim, Expression.NamesIn, Expression.meets_visits]

theorem Accessor.meets_visits (accessor : Option Accessor) :
    Visit.Meets resolved (Accessor.visits accessor) ↔ Accessor.NamesIn resolved accessor := by
  simp [Accessor.visits, Visit.meets_elim, Accessor.NamesIn, Body.meets_visits]

theorem TypeHead.meets_visits (head : TypeHead) :
    Visit.Meets resolved head.visits ↔ head.Names resolved := by
  simp [TypeHead.visits, TypeHead.Names, Mark.meets_flatMap_visits, TypeNode.meets_visitsOfAll,
    Visit.meets_elim, TypeNode.meets_visits, ParameterNode.meets_visitsOfAll]

theorem FieldNode.meets_visits (field : FieldNode) :
    Visit.Meets resolved field.visits ↔ field.Names resolved := by
  simp [FieldNode.visits, FieldNode.Names, Mark.meets_flatMap_visits, TypeNode.meets_visits,
    Expression.meets_elim_visits]

theorem EnumMemberNode.meets_visits (member : EnumMemberNode) :
    Visit.Meets resolved member.visits ↔ member.Names resolved := by
  simp [EnumMemberNode.visits, EnumMemberNode.Names, Mark.meets_flatMap_visits,
    Expression.meets_elim_visits]

theorem MethodNode.meets_visits (method : MethodNode) :
    Visit.Meets resolved method.visits ↔ method.Names resolved := by
  simp [MethodNode.visits, MethodNode.Names, Mark.meets_flatMap_visits, Visit.meets_elim,
    TypeNode.meets_visits, ParameterNode.meets_visitsOfAll, Body.meets_visits]

theorem PropertyNode.meets_visits (property : PropertyNode) :
    Visit.Meets resolved property.visits ↔ property.Names resolved := by
  simp [PropertyNode.visits, PropertyNode.Names, Mark.meets_flatMap_visits,
    TypeNode.meets_visits, Accessor.meets_visits]

theorem EventNode.meets_visits (event : EventNode) :
    Visit.Meets resolved event.visits ↔ event.Names resolved := by
  simp [EventNode.visits, EventNode.Names, Mark.meets_flatMap_visits, TypeNode.meets_visits]

mutual

/-- The visits of a declaration meet the named types in it. -/
theorem Node.meets_visits :
    (node : Node) →
      (Visit.Meets resolved node.visits ↔ node.Names resolved)
  | .space name members => by
      have inside := Node.meets_visitsOfAll members
      simp only [Node.visits, Visit.meets_cons, reduceCtorEq, exists_false, false_or, inside]
      constructor
      · rintro ⟨member, isMember, names⟩
        exact .space isMember names
      · rintro (⟨isMember, names⟩ | _)
        exact ⟨_, isMember, names⟩
  | .type head members => by
      have inside := Node.meets_visitsOfAll members
      simp only [Node.visits, List.cons_append, Visit.meets_cons, reduceCtorEq, exists_false,
        false_or, Visit.meets_append, TypeHead.meets_visits, inside]
      constructor
      · rintro (names | ⟨member, isMember, names⟩)
        · exact .head names
        · exact .member isMember names
      · intro h
        cases h with
        | head names => exact Or.inl names
        | member isMember names => exact Or.inr ⟨_, isMember, names⟩
  | .field declaration => by
      simp only [Node.visits, Visit.meets_cons, reduceCtorEq, exists_false, false_or,
        FieldNode.meets_visits]
      exact ⟨.field, fun h => by cases h; assumption⟩
  | .enumMember declaration => by
      simp only [Node.visits, Visit.meets_cons, reduceCtorEq, exists_false, false_or,
        EnumMemberNode.meets_visits]
      exact ⟨.enumMember, fun h => by cases h; assumption⟩
  | .method declaration => by
      simp only [Node.visits, Visit.meets_cons, reduceCtorEq, exists_false, false_or,
        MethodNode.meets_visits]
      exact ⟨.method, fun h => by cases h; assumption⟩
  | .property declaration => by
      simp only [Node.visits, Visit.meets_cons, reduceCtorEq, exists_false, false_or,
        PropertyNode.meets_visits]
      exact ⟨.property, fun h => by cases h; assumption⟩
  | .event declaration => by
      simp only [Node.visits, Visit.meets_cons, reduceCtorEq, exists_false, false_or,
        EventNode.meets_visits]
      exact ⟨.event, fun h => by cases h; assumption⟩

theorem Node.meets_visitsOfAll :
    (nodes : List Node) →
      (Visit.Meets resolved (Node.visitsOfAll nodes) ↔ ∃ node ∈ nodes, node.Names resolved)
  | [] => by simp [Node.visitsOfAll]
  | node :: rest => by
      have first := Node.meets_visits node
      have later := Node.meets_visitsOfAll rest
      simp [Node.visitsOfAll, first, later]

end

/-- The visits of a source file meet the named types in it. -/
theorem SourceUnit.meets_visits (unit : SourceUnit) :
    Visit.Meets resolved unit.visits ↔ unit.Names resolved := by
  simp [SourceUnit.visits, SourceUnit.Names, Mark.meets_flatMap_visits, Node.meets_visitsOfAll]

/-- The listed definitions are exactly those of the named types that stand in the source file. -/
theorem SourceUnit.mem_namedTypes_iff (unit : SourceUnit) :
    resolved ∈ unit.namedTypes ↔ unit.Names resolved := by
  rw [← SourceUnit.meets_visits, SourceUnit.namedTypes, List.mem_filterMap]
  constructor
  · rintro ⟨visit, member, h⟩
    split at h
    · next name arguments other =>
        obtain rfl : other = resolved := by simpa using h
        exact ⟨name, arguments, member⟩
    · simp at h
  · rintro ⟨name, arguments, member⟩
    exact ⟨_, member, rfl⟩

end Visits

end Syntax
end AssemblyAtlas
