import AssemblyAtlas.Syntax.Tree

/-!
# Editing syntax trees

An edit changes identifiers, the names of named types and lists of attributes, and leaves the
rest of a tree as it is. It meets them in a fixed order and may carry an effect along.

Attributes themselves, values and namespace names are not entered.
-/

namespace AssemblyAtlas
namespace Syntax

/-- What is done at the places where a tree may change. -/
structure Edit (m : Type → Type) where
  /-- A declared name, a type parameter, or the name of a parameter or a local. -/
  identifier : String → m String
  /-- The name of a named type, before its arguments. -/
  typeName : String → m String
  /-- The attributes of a source file or of a declaration. -/
  marks : List Mark → m (List Mark)

namespace Edit

variable {m : Type → Type}
variable [Monad m]

/-- Changes nothing. -/
def keep : Edit m :=
  ⟨pure, pure, pure⟩

mutual

/-- Edits a type. -/
def type (edit : Edit m) : TypeNode → m TypeNode
  | .primitive keyword => pure (.primitive keyword)
  | .named name arguments resolved => do
      let name ← edit.typeName name
      let arguments ← edit.types arguments
      pure (.named name arguments resolved)
  | .array element rank => do
      let element ← edit.type element
      pure (.array element rank)
  | .pointer target => do
      let target ← edit.type target
      pure (.pointer target)
  | .byReference target => do
      let target ← edit.type target
      pure (.byReference target)
  | .parameter name => do
      let name ← edit.identifier name
      pure (.parameter name)

/-- Edits types from left to right. -/
def types (edit : Edit m) : List TypeNode → m (List TypeNode)
  | [] => pure []
  | type :: rest => do
      let type ← edit.type type
      let rest ← edit.types rest
      pure (type :: rest)

end

/-- Edits an optional part. -/
def optional {α : Type} (change : α → m α) : Option α → m (Option α)
  | none => pure none
  | some part => do
      let part ← change part
      pure (some part)

/-- Edits a parameter, its type first. -/
def parameter (edit : Edit m) (parameter : ParameterNode) : m ParameterNode := do
  let type ← edit.type parameter.type
  let name ← edit.identifier parameter.name
  pure ⟨type, name⟩

/-- Edits a statement, the type of a local first. -/
def statement (edit : Edit m) : Statement → m Statement
  | .declareLocal type name => do
      let type ← edit.type type
      let name ← edit.identifier name
      pure (.declareLocal type name)
  | .throwNull => pure .throwNull

/-- Edits the statements of a body. -/
def body (edit : Edit m) (body : Body) : m Body :=
  optional (·.mapM edit.statement) body

/-- Edits the signature of a delegate. -/
def delegate (edit : Edit m) (delegate : DelegateNode) : m DelegateNode := do
  let returns ← edit.type delegate.returns
  let parameters ← delegate.parameters.mapM edit.parameter
  pure ⟨returns, parameters⟩

/-- Edits a type declaration without its members. -/
def typeHead (edit : Edit m) (head : TypeHead) : m TypeHead := do
  let marks ← edit.marks head.marks
  let name ← edit.identifier head.name
  let typeParameters ← head.typeParameters.mapM edit.identifier
  let bases ← edit.types head.bases
  let delegate ← optional edit.delegate head.delegate
  pure
    { head with
      marks := marks
      name := name
      typeParameters := typeParameters
      bases := bases
      delegate := delegate }

/-- Edits a field. -/
def field (edit : Edit m) (field : FieldNode) : m FieldNode := do
  let marks ← edit.marks field.marks
  let type ← edit.type field.type
  let name ← edit.identifier field.name
  pure { field with marks := marks, type := type, name := name }

/-- Edits a member of an enum. -/
def enumMember (edit : Edit m) (member : EnumMemberNode) : m EnumMemberNode := do
  let marks ← edit.marks member.marks
  let name ← edit.identifier member.name
  pure { member with marks := marks, name := name }

/-- Edits a method. -/
def method (edit : Edit m) (method : MethodNode) : m MethodNode := do
  let marks ← edit.marks method.marks
  let returns ← optional edit.type method.returns
  let name ← edit.identifier method.name
  let typeParameters ← method.typeParameters.mapM edit.identifier
  let parameters ← method.parameters.mapM edit.parameter
  let body ← edit.body method.body
  pure
    { method with
      marks := marks
      returns := returns
      name := name
      typeParameters := typeParameters
      parameters := parameters
      body := body }

/-- Edits an accessor. -/
def accessor (edit : Edit m) (accessor : Accessor) : m Accessor := do
  let body ← edit.body accessor.body
  pure ⟨body⟩

/-- Edits a property. -/
def property (edit : Edit m) (property : PropertyNode) : m PropertyNode := do
  let marks ← edit.marks property.marks
  let type ← edit.type property.type
  let name ← edit.identifier property.name
  let getter ← optional edit.accessor property.getter
  let setter ← optional edit.accessor property.setter
  pure
    { property with
      marks := marks
      type := type
      name := name
      getter := getter
      setter := setter }

/-- Edits an event. -/
def event (edit : Edit m) (event : EventNode) : m EventNode := do
  let marks ← edit.marks event.marks
  let type ← edit.type event.type
  let name ← edit.identifier event.name
  pure { event with marks := marks, type := type, name := name }

mutual

/-- Edits a declaration, its own parts before its members. -/
def node (edit : Edit m) : Node → m Node
  | .space name members => do
      let members ← edit.nodes members
      pure (.space name members)
  | .type head members => do
      let head ← edit.typeHead head
      let members ← edit.nodes members
      pure (.type head members)
  | .field declaration => do
      let declaration ← edit.field declaration
      pure (.field declaration)
  | .enumMember declaration => do
      let declaration ← edit.enumMember declaration
      pure (.enumMember declaration)
  | .method declaration => do
      let declaration ← edit.method declaration
      pure (.method declaration)
  | .property declaration => do
      let declaration ← edit.property declaration
      pure (.property declaration)
  | .event declaration => do
      let declaration ← edit.event declaration
      pure (.event declaration)

/-- Edits declarations in their order. -/
def nodes (edit : Edit m) : List Node → m (List Node)
  | [] => pure []
  | node :: rest => do
      let node ← edit.node node
      let rest ← edit.nodes rest
      pure (node :: rest)

end

/-- Edits a source file, its own attributes first. -/
def unit (edit : Edit m) (unit : SourceUnit) : m SourceUnit := do
  let marks ← edit.marks unit.marks
  let members ← edit.nodes unit.members
  pure ⟨marks, members⟩

end Edit

end Syntax
end AssemblyAtlas
