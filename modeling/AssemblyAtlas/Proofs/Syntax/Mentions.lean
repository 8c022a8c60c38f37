import AssemblyAtlas.Proofs.Syntax.Editing

/-!
# Names of types in a tree

A tree declares types and names types. A declared type has a dotted name, which is made of the
namespace and the names of the declarations around it; a named type has the name that is written
for it. The standard transforms change each part of these names by itself, except for namespaces,
which they leave alone.

* `SourceUnit.mentions` are the named types in base types, signatures, parameters and locals;
* `SourceUnit.headings` are the declared types, with what stands around them;
* `SourceUnit.mentions_polished` and `SourceUnit.headings_polished` say what the standard transforms
  make of both.
-/

namespace AssemblyAtlas
namespace Syntax

open Assembly
open Text

/-- The name that is written for a type, and what is known about its definition. -/
structure Mention where
  name : String
  resolved : ResolvedType

namespace Mention

/-- The same type under another name. -/
def rename (change : String → String) (mention : Mention) : Mention :=
  { mention with name := change mention.name }

end Mention

/-- Names with dots between them. -/
def joinedByDots (names : List String) : String :=
  String.ofList (join ['.'] (names.map String.toList))

/-- A declared type: the namespace that it stands in, and the names of the declarations around it
and its own. -/
structure Heading where
  token : Token
  space : String
  names : List String

namespace Heading

/-- The same type in the same namespace, with other names of declarations. -/
def rename (change : String → String) (heading : Heading) : Heading :=
  { heading with names := heading.names.map change }

/-- The namespace and the names, with dots between them. -/
def dotted (heading : Heading) : String :=
  qualified heading.space (joinedByDots heading.names)

end Heading

/-! ## Types that a tree names -/

mutual

/-- The named types in a type, itself included. -/
def TypeNode.mentions : TypeNode → List Mention
  | .primitive _ => []
  | .named name arguments resolved => ⟨name, resolved⟩ :: TypeNode.mentionsOfAll arguments
  | .array element _ => element.mentions
  | .pointer target => target.mentions
  | .byReference target => target.mentions
  | .parameter _ => []

/-- The named types in types. -/
def TypeNode.mentionsOfAll : List TypeNode → List Mention
  | [] => []
  | type :: rest => type.mentions ++ TypeNode.mentionsOfAll rest

end

/-- The type of a local. -/
def Statement.shownTypes : Statement → List TypeNode
  | .declareLocal type _ => [type]
  | .throwNull => []

/-- The types of the locals of a body. -/
def Body.shownTypes (body : Body) : List TypeNode :=
  (body.getD []).flatMap (·.shownTypes)

/-- The types of parameters. -/
def ParameterNode.shownTypes (parameters : List ParameterNode) : List TypeNode :=
  parameters.map (·.type)

/-- The types in the signature of a delegate. -/
def DelegateNode.shownTypes (delegate : DelegateNode) : List TypeNode :=
  delegate.returns :: ParameterNode.shownTypes delegate.parameters

/-- The base types, and the types in the signature of a delegate. -/
def TypeHead.shownTypes (head : TypeHead) : List TypeNode :=
  head.bases ++ head.delegate.elim [] (·.shownTypes)

/-- The types in the signature of a method, and those of its locals. -/
def MethodNode.shownTypes (method : MethodNode) : List TypeNode :=
  method.returns.toList ++ ParameterNode.shownTypes method.parameters ++ Body.shownTypes method.body

/-- The types of the locals of an optional accessor. -/
def Accessor.shownTypes (accessor : Option Accessor) : List TypeNode :=
  accessor.elim [] fun accessor => Body.shownTypes accessor.body

/-- The type of a property, and those of the locals of its accessors. -/
def PropertyNode.shownTypes (property : PropertyNode) : List TypeNode :=
  property.type :: Accessor.shownTypes property.getter ++ Accessor.shownTypes property.setter

mutual

/-- The base types and the types of signatures, parameters and locals in a declaration and in those
inside it. -/
def Node.shownTypes : Node → List TypeNode
  | .space _ members => Node.shownTypesOfAll members
  | .type head members => head.shownTypes ++ Node.shownTypesOfAll members
  | .field declaration => [declaration.type]
  | .enumMember _ => []
  | .method declaration => declaration.shownTypes
  | .property declaration => declaration.shownTypes
  | .event declaration => [declaration.type]

/-- The types that declarations show. -/
def Node.shownTypesOfAll : List Node → List TypeNode
  | [] => []
  | node :: rest => node.shownTypes ++ Node.shownTypesOfAll rest

end

/-- The types that a source file names outside attributes and values. -/
def SourceUnit.mentions (unit : SourceUnit) : List Mention :=
  TypeNode.mentionsOfAll (Node.shownTypesOfAll unit.members)

/-! ## Types that a tree declares -/

mutual

/-- The types that a declaration in a namespace and inside other declarations declares. -/
def Node.headings (space : String) (around : List String) : Node → List Heading
  | .space name members => Node.headingsOfAll (qualified space name) [] members
  | .type head members =>
      ⟨head.token, space, around ++ [head.name]⟩
        :: Node.headingsOfAll space (around ++ [head.name]) members
  | .field _ | .enumMember _ | .method _ | .property _ | .event _ => []

/-- The types that declarations side by side declare. -/
def Node.headingsOfAll (space : String) (around : List String) : List Node → List Heading
  | [] => []
  | node :: rest => node.headings space around ++ Node.headingsOfAll space around rest

end

/-- The types that a source file declares. -/
def SourceUnit.headings (unit : SourceUnit) : List Heading :=
  Node.headingsOfAll "" [] unit.members

/-! ## Lists -/

theorem TypeNode.mem_mentionsOfAll
    {mention : Mention}
    {types : List TypeNode} :
    mention ∈ TypeNode.mentionsOfAll types ↔ ∃ type ∈ types, mention ∈ type.mentions := by
  induction types with
  | nil => simp [TypeNode.mentionsOfAll]
  | cons type rest ih => simp [TypeNode.mentionsOfAll, ih]

theorem Node.mem_shownTypesOfAll
    {type : TypeNode}
    {nodes : List Node} :
    type ∈ Node.shownTypesOfAll nodes ↔ ∃ node ∈ nodes, type ∈ node.shownTypes := by
  induction nodes with
  | nil => simp [Node.shownTypesOfAll]
  | cons node rest ih => simp [Node.shownTypesOfAll, ih]

theorem Node.mem_headingsOfAll
    {heading : Heading}
    {space : String}
    {around : List String}
    {nodes : List Node} :
    heading ∈ Node.headingsOfAll space around nodes
      ↔ ∃ node ∈ nodes, heading ∈ node.headings space around := by
  induction nodes with
  | nil => simp [Node.headingsOfAll]
  | cons node rest ih => simp [Node.headingsOfAll, ih]

/-! ## Edits -/

namespace Edit

variable (edit : Edit Id)

mutual

/-- An edit changes the names of named types one by one. -/
theorem mentions_type :
    (type : TypeNode) →
      TypeNode.mentions (edit.type type) = type.mentions.map (Mention.rename edit.typeName)
  | .primitive _ => rfl
  | .named name _ resolved =>
      congrArg (Mention.mk (edit.typeName name) resolved :: ·) (mentions_types _)
  | .array element _ => mentions_type element
  | .pointer target => mentions_type target
  | .byReference target => mentions_type target
  | .parameter _ => rfl

theorem mentions_types :
    (types : List TypeNode) →
      TypeNode.mentionsOfAll (edit.types types)
        = (TypeNode.mentionsOfAll types).map (Mention.rename edit.typeName)
  | [] => rfl
  | type :: rest => by
      rw [TypeNode.mentionsOfAll, List.map_append, ← mentions_type type, ← mentions_types rest]
      rfl

end

theorem shownTypes_body (body : Body) :
    Body.shownTypes (edit.body body) = (Body.shownTypes body).map edit.type := by
  have each (statement : Statement) :
      Statement.shownTypes (edit.statement statement) = statement.shownTypes.map edit.type := by
    cases statement <;> rfl
  cases body with
  | none => rfl
  | some statements =>
      rw [body_eq]
      simp only [Body.shownTypes, Option.map_some, Option.getD_some, List.flatMap_map, each,
        List.map_flatMap]

theorem shownTypes_parameters (parameters : List ParameterNode) :
    ParameterNode.shownTypes (parameters.map edit.parameter)
      = (ParameterNode.shownTypes parameters).map edit.type := by
  rw [ParameterNode.shownTypes, ParameterNode.shownTypes, List.map_map, List.map_map]
  rfl

theorem shownTypes_typeHead (head : TypeHead) :
    TypeHead.shownTypes (edit.typeHead head) = head.shownTypes.map edit.type := by
  rw [typeHead_eq, TypeHead.shownTypes, TypeHead.shownTypes, List.map_append]
  cases head.delegate with
  | none => rfl
  | some delegate =>
      simp only [Option.map_some, Option.elim_some, delegate_eq, DelegateNode.shownTypes,
        shownTypes_parameters, List.map_cons]

theorem shownTypes_method (method : MethodNode) :
    MethodNode.shownTypes (edit.method method) = method.shownTypes.map edit.type := by
  rw [method_eq]
  simp only [MethodNode.shownTypes, Option.toList_map, shownTypes_parameters, shownTypes_body,
    List.map_append]

theorem shownTypes_accessor (accessor : Option Accessor) :
    Accessor.shownTypes (accessor.map edit.accessor)
      = (Accessor.shownTypes accessor).map edit.type := by
  cases accessor with
  | none => rfl
  | some accessor => exact shownTypes_body edit accessor.body

theorem shownTypes_property (property : PropertyNode) :
    PropertyNode.shownTypes (edit.property property) = property.shownTypes.map edit.type := by
  rw [property_eq]
  simp only [PropertyNode.shownTypes, shownTypes_accessor, List.map_cons, List.map_append]

mutual

/-- An edit changes the types that a declaration shows one by one. -/
theorem shownTypes_node :
    (node : Node) → Node.shownTypes (edit.node node) = node.shownTypes.map edit.type
  | .space _ members => shownTypes_nodes members
  | .type head members => by
      rw [Node.shownTypes, List.map_append, ← shownTypes_typeHead, ← shownTypes_nodes members]
      rfl
  | .field _ | .enumMember _ | .event _ => rfl
  | .method method => shownTypes_method edit method
  | .property property => shownTypes_property edit property

theorem shownTypes_nodes :
    (nodes : List Node) →
      Node.shownTypesOfAll (edit.nodes nodes) = (Node.shownTypesOfAll nodes).map edit.type
  | [] => rfl
  | node :: rest => by
      rw [Node.shownTypesOfAll, List.map_append, ← shownTypes_node node, ← shownTypes_nodes rest]
      rfl

end

/-- An edit of a source file changes the names of the named types one by one. -/
theorem mentions_unit (unit : SourceUnit) :
    SourceUnit.mentions (edit.unit unit) = unit.mentions.map (Mention.rename edit.typeName) := by
  rw [SourceUnit.mentions, SourceUnit.mentions, ← mentions_types, types_eq_map, ← shownTypes_nodes]
  rfl

mutual

/-- An edit changes the names of declared types one by one, and no namespace. -/
theorem headings_node (space : String) (around : List String) :
    (node : Node) →
      Node.headings space (around.map edit.identifier) (edit.node node)
        = (node.headings space around).map (Heading.rename edit.identifier)
  | .space name members => headings_nodes (qualified space name) [] members
  | .type head members => by
      have names : around.map edit.identifier ++ [edit.identifier head.name]
          = (around ++ [head.name]).map edit.identifier := by
        rw [List.map_append, List.map_singleton]
      rw [Node.headings, List.map_cons, ← headings_nodes space _ members, ← names]
      exact congrArg (· :: _) (congrArg (Heading.mk head.token space) names)
  | .field _ | .enumMember _ | .method _ | .property _ | .event _ => rfl

theorem headings_nodes (space : String) (around : List String) :
    (nodes : List Node) →
      Node.headingsOfAll space (around.map edit.identifier) (edit.nodes nodes)
        = (Node.headingsOfAll space around nodes).map (Heading.rename edit.identifier)
  | [] => rfl
  | node :: rest => by
      rw [Node.headingsOfAll, List.map_append, ← headings_node space around node,
        ← headings_nodes space around rest]
      rfl

end

/-- An edit of a source file changes the names of the declared types one by one. -/
theorem headings_unit (unit : SourceUnit) :
    SourceUnit.headings (edit.unit unit) = unit.headings.map (Heading.rename edit.identifier) :=
  headings_nodes edit "" [] unit.members

end Edit

/-! ## The standard transforms -/

/-- The standard transforms as one edit. -/
theorem Transform.runAll_standard_eq (unit : SourceUnit) :
    Transform.runAll [.dropCompliance, .escape] unit
      = (escapeEdit.after complianceEdit).unit unit :=
  Edit.unit_after escapeEdit complianceEdit unit

/-- The standard transforms make identifiers of the parts of the names that are written for types. -/
theorem SourceUnit.mentions_polished (unit : SourceUnit) :
    (Transform.runAll [.dropCompliance, .escape] unit).mentions
      = unit.mentions.map (Mention.rename dottedIdentifier) := by
  rw [Transform.runAll_standard_eq]
  exact Edit.mentions_unit _ unit

/-- The standard transforms make identifiers of the names of declared types, and leave their
namespaces alone. -/
theorem SourceUnit.headings_polished (unit : SourceUnit) :
    (Transform.runAll [.dropCompliance, .escape] unit).headings
      = unit.headings.map (Heading.rename identifier) := by
  rw [Transform.runAll_standard_eq]
  exact Edit.headings_unit _ unit

end Syntax
end AssemblyAtlas
