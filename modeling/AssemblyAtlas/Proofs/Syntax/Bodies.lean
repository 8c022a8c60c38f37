import AssemblyAtlas.Proofs.Syntax.Declared
import AssemblyAtlas.Proofs.Syntax.Editing

/-!
# Trees without bodies

A tree loses the bodies of its methods and of the accessors of its properties, and nothing else. The
keys that a page notes are none of a body, and an edit without an effect changes what is left in the
same way as before.
-/

namespace AssemblyAtlas
namespace Syntax

/-- The method without its body. -/
def MethodNode.withoutBody (method : MethodNode) : MethodNode :=
  { method with body := none }

/-- The accessor without its body. -/
def Accessor.withoutBody (_ : Accessor) : Accessor :=
  ⟨none⟩

/-- The property, with accessors that have no bodies. -/
def PropertyNode.withoutBodies (property : PropertyNode) : PropertyNode :=
  { property with
    getter := property.getter.map Accessor.withoutBody
    setter := property.setter.map Accessor.withoutBody }

mutual

/-- The declaration and those inside it without their bodies. -/
def Node.withoutBodies : Node → Node
  | .space name members => .space name (Node.withoutBodiesOfAll members)
  | .type head members => .type head (Node.withoutBodiesOfAll members)
  | .field declaration => .field declaration
  | .enumMember declaration => .enumMember declaration
  | .method declaration => .method declaration.withoutBody
  | .property declaration => .property declaration.withoutBodies
  | .event declaration => .event declaration

/-- Declarations without their bodies, one declaration after the other. -/
def Node.withoutBodiesOfAll : List Node → List Node
  | [] => []
  | node :: rest => node.withoutBodies :: Node.withoutBodiesOfAll rest

end

/-- The source file without bodies. -/
def SourceUnit.withoutBodies (unit : SourceUnit) : SourceUnit :=
  { unit with members := Node.withoutBodiesOfAll unit.members }

namespace Node

theorem withoutBodiesOfAll_eq_map (nodes : List Node) :
    withoutBodiesOfAll nodes = nodes.map withoutBodies := by
  induction nodes with
  | nil => rfl
  | cons node rest ih => rw [withoutBodiesOfAll, ih, List.map_cons]

theorem withoutBodies_space
    (name : String)
    (members : List Node) :
    (Node.space name members).withoutBodies = .space name (members.map withoutBodies) := by
  rw [withoutBodies, withoutBodiesOfAll_eq_map]

theorem withoutBodies_type
    (head : TypeHead)
    (members : List Node) :
    (Node.type head members).withoutBodies = .type head (members.map withoutBodies) := by
  rw [withoutBodies, withoutBodiesOfAll_eq_map]

/-! ## Keys -/

mutual

/-- The declarations have the same keys and names without bodies. -/
theorem declarations_withoutBodies :
    (node : Node) → node.withoutBodies.declarations = node.declarations
  | .space _ members => by
      rw [withoutBodies, declarations, declarations, declarationsOfAll_withoutBodies members]
  | .type head members => by
      rw [withoutBodies, declarations, declarations, declarationsOfAll_withoutBodies members]
  | .field _ => rfl
  | .enumMember _ => rfl
  | .method _ => rfl
  | .property _ => rfl
  | .event _ => rfl

theorem declarationsOfAll_withoutBodies :
    (nodes : List Node) →
      declarationsOfAll (withoutBodiesOfAll nodes) = declarationsOfAll nodes
  | [] => rfl
  | node :: rest => by
      rw [withoutBodiesOfAll, declarationsOfAll, declarationsOfAll,
        declarations_withoutBodies node, declarationsOfAll_withoutBodies rest]

end

end Node

/-! ## Edits -/

namespace Edit

variable (edit : Edit Id)

/-- An edit without an effect changes a property without bodies in the same way. -/
theorem property_withoutBodies (property : PropertyNode) :
    edit.property property.withoutBodies
      = PropertyNode.withoutBodies (edit.property property) := by
  obtain ⟨symbol, modifiers, type, name, getter, setter, marks⟩ := property
  cases getter <;> cases setter <;> rfl

mutual

/-- An edit without an effect changes a declaration without bodies in the same way. -/
theorem node_withoutBodies :
    (node : Node) → edit.node node.withoutBodies = Node.withoutBodies (edit.node node)
  | .space name members => congrArg (Node.space name) (nodes_withoutBodies members)
  | .type head members => congrArg (Node.type (edit.typeHead head)) (nodes_withoutBodies members)
  | .field _ => rfl
  | .enumMember _ => rfl
  | .method _ => rfl
  | .property property => congrArg Node.property (property_withoutBodies edit property)
  | .event _ => rfl

theorem nodes_withoutBodies :
    (nodes : List Node) →
      edit.nodes (Node.withoutBodiesOfAll nodes) = Node.withoutBodiesOfAll (edit.nodes nodes)
  | [] => rfl
  | node :: rest => congrArg₂ List.cons (node_withoutBodies node) (nodes_withoutBodies rest)

end

end Edit

/-- The standard transforms change a declaration without bodies in the same way. -/
theorem Node.polished_withoutBodies (node : Node) :
    node.withoutBodies.polished = node.polished.withoutBodies := by
  rw [polished, polished, Edit.node_withoutBodies complianceEdit node,
    Edit.node_withoutBodies escapeEdit]

end Syntax
end AssemblyAtlas
