import AssemblyAtlas.Syntax.Transform
import Mathlib.Logic.Basic

/-!
# Edits without an effect

An edit that carries no effect changes each part of a tree by itself, so the records of declarations
are changed field by field and the elements of a list one by one. So the standard transforms, which
make names into identifiers and drop the claim of compliance, change a source file declaration by
declaration, also inside its namespaces.

* `Edit.types_eq_map`, `Edit.nodes_eq_map` and their kin say what an edit makes of a part;
* `Edit.unit_after` makes one edit of two;
* `Transform.runAll_standard` is about the standard transforms.
-/

namespace AssemblyAtlas
namespace Syntax

namespace Edit

section Parts

variable (edit : Edit Id)

/-- The elements of a list are changed one by one. -/
theorem mapM_eq_map
    {α : Type}
    (change : α → Id α)
    (elements : List α) :
    elements.mapM change = elements.map change := by
  induction elements with
  | nil => rfl
  | cons element rest ih =>
      rw [List.mapM_cons, ih]
      rfl

theorem optional_eq_map
    {α : Type}
    (change : α → Id α)
    (part : Option α) :
    optional change part = part.map change := by
  cases part <;> rfl

/-- Types are changed one by one. -/
theorem types_eq_map (types : List TypeNode) :
    edit.types types = types.map edit.type := by
  induction types with
  | nil => rfl
  | cons type rest ih =>
      rw [List.map_cons, ← ih]
      rfl

theorem body_eq (body : Body) :
    edit.body body = body.map (List.map edit.statement) := by
  cases body with
  | none => rfl
  | some statements => exact congrArg some (mapM_eq_map edit.statement statements)

theorem delegate_eq (delegate : DelegateNode) :
    edit.delegate delegate
      = ⟨edit.type delegate.returns, delegate.parameters.map edit.parameter⟩ := by
  rw [← mapM_eq_map]
  rfl

theorem typeHead_eq (head : TypeHead) :
    edit.typeHead head
      = { head with
          marks := edit.marks head.marks
          name := edit.identifier head.name
          typeParameters := head.typeParameters.map edit.identifier
          bases := head.bases.map edit.type
          delegate := head.delegate.map edit.delegate } := by
  rw [← mapM_eq_map, ← types_eq_map, ← optional_eq_map]
  rfl

theorem method_eq (method : MethodNode) :
    edit.method method
      = { method with
          marks := edit.marks method.marks
          returns := method.returns.map edit.type
          name := edit.identifier method.name
          typeParameters := method.typeParameters.map edit.identifier
          parameters := method.parameters.map edit.parameter
          body := edit.body method.body } := by
  rw [← mapM_eq_map, ← mapM_eq_map, ← optional_eq_map]
  rfl

theorem property_eq (property : PropertyNode) :
    edit.property property
      = { property with
          marks := edit.marks property.marks
          type := edit.type property.type
          name := edit.identifier property.name
          getter := property.getter.map edit.accessor
          setter := property.setter.map edit.accessor } := by
  rw [← optional_eq_map, ← optional_eq_map]
  rfl

/-- Declarations are changed one by one. -/
theorem nodes_eq_map (nodes : List Node) :
    edit.nodes nodes = nodes.map edit.node := by
  induction nodes with
  | nil => rfl
  | cons node rest ih =>
      rw [List.map_cons, ← ih]
      rfl

end Parts

/-! ## Edits one after the other -/

/-- Makes the first change of a part, and then the later one. -/
def after (later first : Edit Id) : Edit Id where
  identifier name := later.identifier (first.identifier name)
  typeName name := later.typeName (first.typeName name)
  marks marks := later.marks (first.marks marks)

section After

variable (later first : Edit Id)

mutual

theorem type_after :
    (type : TypeNode) → later.type (first.type type) = (later.after first).type type
  | .primitive _ => rfl
  | .named name arguments resolved =>
      congrArg (TypeNode.named (later.typeName (first.typeName name)) · resolved)
        (types_after arguments)
  | .array element rank => congrArg (TypeNode.array · rank) (type_after element)
  | .pointer target => congrArg TypeNode.pointer (type_after target)
  | .byReference target => congrArg TypeNode.byReference (type_after target)
  | .parameter _ => rfl

theorem types_after :
    (types : List TypeNode) → later.types (first.types types) = (later.after first).types types
  | [] => rfl
  | type :: rest => congrArg₂ List.cons (type_after type) (types_after rest)

end

/-- What holds of every element holds of a list. -/
theorem map_after
    {α : Type}
    {changeLater changeFirst change : α → α}
    (each : ∀ element, changeLater (changeFirst element) = change element)
    (elements : List α) :
    (elements.map changeFirst).map changeLater = elements.map change := by
  rw [List.map_map]
  exact List.map_congr_left fun element _ => each element

theorem optionMap_after
    {α : Type}
    {changeLater changeFirst change : α → α}
    (each : ∀ element, changeLater (changeFirst element) = change element)
    (part : Option α) :
    (part.map changeFirst).map changeLater = part.map change := by
  cases part with
  | none => rfl
  | some element => exact congrArg some (each element)

theorem parameter_after (parameter : ParameterNode) :
    later.parameter (first.parameter parameter) = (later.after first).parameter parameter :=
  congrArg (ParameterNode.mk · _) (type_after later first parameter.type)

theorem statement_after (statement : Statement) :
    later.statement (first.statement statement) = (later.after first).statement statement := by
  cases statement with
  | declareLocal type name =>
      exact congrArg (Statement.declareLocal · _) (type_after later first type)
  | throwNull => rfl

theorem body_after (body : Body) :
    later.body (first.body body) = (later.after first).body body := by
  rw [body_eq, body_eq, body_eq]
  exact optionMap_after (map_after (statement_after later first)) body

theorem delegate_after (delegate : DelegateNode) :
    later.delegate (first.delegate delegate) = (later.after first).delegate delegate := by
  rw [delegate_eq, delegate_eq, delegate_eq, type_after,
    map_after (parameter_after later first)]

theorem typeHead_after (head : TypeHead) :
    later.typeHead (first.typeHead head) = (later.after first).typeHead head := by
  simp only [typeHead_eq]
  rw [map_after (type_after later first), optionMap_after (delegate_after later first),
    List.map_map]
  rfl

theorem field_after (field : FieldNode) :
    later.field (first.field field) = (later.after first).field field :=
  congrArg (fun type => { later.field (first.field field) with type := type })
    (type_after later first field.type)

theorem method_after (method : MethodNode) :
    later.method (first.method method) = (later.after first).method method := by
  simp only [method_eq]
  rw [optionMap_after (type_after later first), map_after (parameter_after later first),
    body_after, List.map_map]
  rfl

theorem accessor_after (accessor : Accessor) :
    later.accessor (first.accessor accessor) = (later.after first).accessor accessor :=
  congrArg Accessor.mk (body_after later first accessor.body)

theorem property_after (property : PropertyNode) :
    later.property (first.property property) = (later.after first).property property := by
  simp only [property_eq]
  rw [optionMap_after (accessor_after later first), optionMap_after (accessor_after later first),
    type_after]
  rfl

theorem event_after (event : EventNode) :
    later.event (first.event event) = (later.after first).event event :=
  congrArg (fun type => { later.event (first.event event) with type := type })
    (type_after later first event.type)

mutual

theorem node_after :
    (node : Node) → later.node (first.node node) = (later.after first).node node
  | .space name members => congrArg (Node.space name) (nodes_after members)
  | .type head members =>
      congrArg₂ Node.type (typeHead_after later first head) (nodes_after members)
  | .field field => congrArg Node.field (field_after later first field)
  | .enumMember _ => rfl
  | .method method => congrArg Node.method (method_after later first method)
  | .property property => congrArg Node.property (property_after later first property)
  | .event event => congrArg Node.event (event_after later first event)

theorem nodes_after :
    (nodes : List Node) → later.nodes (first.nodes nodes) = (later.after first).nodes nodes
  | [] => rfl
  | node :: rest => congrArg₂ List.cons (node_after node) (nodes_after rest)

end

/-- Two edits of a source file are one edit of it. -/
theorem unit_after (unit : SourceUnit) :
    later.unit (first.unit unit) = (later.after first).unit unit :=
  congrArg (SourceUnit.mk _) (nodes_after later first unit.members)

end After

end Edit

/-- The declaration after the standard transforms. -/
def Node.polished (node : Node) : Node :=
  escapeEdit.node (complianceEdit.node node)

/-- The standard transforms change the members of a namespace one by one. -/
theorem Node.polished_space
    (name : String)
    (members : List Node) :
    (Node.space name members).polished = .space name (members.map Node.polished) := by
  have compliance : complianceEdit.node (.space name members)
      = .space name (members.map complianceEdit.node) := by
    rw [← Edit.nodes_eq_map]
    rfl
  have escape (nodes : List Node) : escapeEdit.node (.space name nodes)
      = .space name (nodes.map escapeEdit.node) := by
    rw [← Edit.nodes_eq_map]
    rfl
  rw [Node.polished, compliance, escape, List.map_map]
  rfl

/-- The standard transforms change the head of a type and its members one by one. -/
theorem Node.polished_type
    (head : TypeHead)
    (members : List Node) :
    (Node.type head members).polished
      = .type (escapeEdit.typeHead (complianceEdit.typeHead head)) (members.map Node.polished) := by
  have polished : members.map Node.polished = escapeEdit.nodes (complianceEdit.nodes members) := by
    rw [Edit.nodes_eq_map, Edit.nodes_eq_map, List.map_map]
    rfl
  rw [polished]
  rfl

/-- The standard transforms leave a type its token and its key. -/
theorem Node.exists_polished_type
    (head : TypeHead)
    (members : List Node) :
    ∃ changed : TypeHead, changed.token = head.token ∧ changed.symbol = head.symbol
      ∧ (Node.type head members).polished = .type changed (members.map Node.polished) :=
  ⟨escapeEdit.typeHead (complianceEdit.typeHead head), rfl, rfl, Node.polished_type head members⟩

/-- The standard transforms change the declarations of a source file one by one. -/
theorem Transform.runAll_standard
    (members : List Node) :
    Transform.runAll [.dropCompliance, .escape] ⟨[], members⟩
      = ⟨[], members.map Node.polished⟩ := by
  have compliance : complianceEdit.unit ⟨[], members⟩
      = ⟨[], members.map complianceEdit.node⟩ := by
    rw [← Edit.nodes_eq_map]
    rfl
  have escape (nodes : List Node) : escapeEdit.unit ⟨[], nodes⟩
      = ⟨[], nodes.map escapeEdit.node⟩ := by
    rw [← Edit.nodes_eq_map]
    rfl
  show escapeEdit.unit (complianceEdit.unit ⟨[], members⟩) = _
  rw [compliance, escape, List.map_map]
  rfl

end Syntax
end AssemblyAtlas
