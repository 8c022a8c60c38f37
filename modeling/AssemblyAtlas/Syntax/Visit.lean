import AssemblyAtlas.Syntax.Tree

/-!
# Visits

The parts of a syntax tree in the order in which a reader meets them: a part comes before the parts
inside it.

* `SourceUnit.visits` lists the visits of a whole tree;
* `SourceUnit.namedTypes` lists the definitions behind the named types, wherever they stand.
-/

namespace AssemblyAtlas
namespace Syntax

open Assembly

/-- A part of a syntax tree. -/
inductive Visit where
  | node (node : Node)
  | type (type : TypeNode)
  | mark (mark : Mark)
  | expression (expression : Expression)
  | statement (statement : Statement)

mutual

/-- A type and the types inside it. -/
def TypeNode.visits : TypeNode → List Visit
  | .primitive keyword => [.type (.primitive keyword)]
  | .named name arguments resolved =>
      .type (.named name arguments resolved) :: TypeNode.visitsOfAll arguments
  | .array element rank => .type (.array element rank) :: element.visits
  | .pointer target => .type (.pointer target) :: target.visits
  | .byReference target => .type (.byReference target) :: target.visits
  | .parameter name => [.type (.parameter name)]

/-- Types and the types inside them. -/
def TypeNode.visitsOfAll : List TypeNode → List Visit
  | [] => []
  | type :: rest => type.visits ++ TypeNode.visitsOfAll rest

end

mutual

/-- An expression and the parts inside it. -/
def Expression.visits : Expression → List Visit
  | .constant value => [.expression (.constant value)]
  | .typeOf type => .expression (.typeOf type) :: type.visits
  | .array elements => .expression (.array elements) :: Expression.visitsOfAll elements

/-- Expressions and the parts inside them. -/
def Expression.visitsOfAll : List Expression → List Visit
  | [] => []
  | expression :: rest => expression.visits ++ Expression.visitsOfAll rest

end

/-- An attribute, its type and its arguments. -/
def Mark.visits (mark : Mark) : List Visit :=
  .mark mark :: mark.type.visits ++ mark.arguments.flatMap (·.visits)
    ++ mark.named.flatMap (·.2.visits)

/-- A statement and its type. -/
def Statement.visits : Statement → List Visit
  | .declareLocal type name => .statement (.declareLocal type name) :: type.visits
  | .throwNull => [.statement .throwNull]

/-- The statements of a body. -/
def Body.visits (body : Body) : List Visit :=
  (body.getD []).flatMap (·.visits)

/-- The types of parameters. -/
def ParameterNode.visitsOfAll (parameters : List ParameterNode) : List Visit :=
  parameters.flatMap (·.type.visits)

/-- The parts of a type declaration outside its members. -/
def TypeHead.visits (head : TypeHead) : List Visit :=
  head.marks.flatMap (·.visits) ++ TypeNode.visitsOfAll head.bases
    ++ head.delegate.elim [] fun delegate =>
      delegate.returns.visits ++ ParameterNode.visitsOfAll delegate.parameters

/-- The parts of a field. -/
def FieldNode.visits (field : FieldNode) : List Visit :=
  field.marks.flatMap (·.visits) ++ field.type.visits ++ field.value.elim [] (·.visits)

/-- The parts of a member of an enum. -/
def EnumMemberNode.visits (member : EnumMemberNode) : List Visit :=
  member.marks.flatMap (·.visits) ++ member.value.elim [] (·.visits)

/-- The parts of a method. -/
def MethodNode.visits (method : MethodNode) : List Visit :=
  method.marks.flatMap (·.visits) ++ method.returns.elim [] (·.visits)
    ++ ParameterNode.visitsOfAll method.parameters ++ Body.visits method.body

/-- The parts of an accessor. -/
def Accessor.visits (accessor : Option Accessor) : List Visit :=
  accessor.elim [] fun accessor => Body.visits accessor.body

/-- The parts of a property. -/
def PropertyNode.visits (property : PropertyNode) : List Visit :=
  property.marks.flatMap (·.visits) ++ property.type.visits ++ Accessor.visits property.getter
    ++ Accessor.visits property.setter

/-- The parts of an event. -/
def EventNode.visits (event : EventNode) : List Visit :=
  event.marks.flatMap (·.visits) ++ event.type.visits

mutual

/-- A declaration and the parts inside it. -/
def Node.visits : Node → List Visit
  | .space name members => .node (.space name members) :: Node.visitsOfAll members
  | .type head members => .node (.type head members) :: head.visits ++ Node.visitsOfAll members
  | .field declaration => .node (.field declaration) :: declaration.visits
  | .enumMember declaration => .node (.enumMember declaration) :: declaration.visits
  | .method declaration => .node (.method declaration) :: declaration.visits
  | .property declaration => .node (.property declaration) :: declaration.visits
  | .event declaration => .node (.event declaration) :: declaration.visits

/-- Declarations and the parts inside them. -/
def Node.visitsOfAll : List Node → List Visit
  | [] => []
  | node :: rest => node.visits ++ Node.visitsOfAll rest

end

namespace SourceUnit

/-- All parts of a source file. -/
def visits (unit : SourceUnit) : List Visit :=
  unit.marks.flatMap (·.visits) ++ Node.visitsOfAll unit.members

/-- What is known about the definitions behind the named types of a source file. -/
def namedTypes (unit : SourceUnit) : List ResolvedType :=
  unit.visits.filterMap fun visit =>
    match visit with
    | .type (.named _ _ resolved) => some resolved
    | _ => none

end SourceUnit

end Syntax
end AssemblyAtlas
