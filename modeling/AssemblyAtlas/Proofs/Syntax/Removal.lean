import AssemblyAtlas.Proofs.Syntax.Rewriting
import AssemblyAtlas.Syntax.Visit

/-!
# Attributes that are removed

A removal drops the attributes of certain names and leaves the rest of a source file alone. The one
of the claim of compliance reaches the attributes of the source file and of every declaration in it,
the one of what a compiler adds by itself only those of the source file. What is removed does not
come back, and no removal looks at what another one, or the escaping of names, changes. So a removal
has its effect at the first time, and the order of these transforms does not matter.

* `Edit.attributes_unit` says which attributes of a source file are left by an edit that drops some;
* `Transform.run_run_of_removal` and `Transform.run_comm` are about transforms that follow each
  other;
* `Transform.removal_exact_and_order_free` puts them together.
-/

namespace AssemblyAtlas
namespace Syntax

/-! ## The attributes of a tree -/

/-- The attributes among the visits. -/
def Visit.attributes (visits : List Visit) : List Mark :=
  visits.filterMap fun visit =>
    match visit with
    | .mark attached => some attached
    | _ => none

/-- All attributes of a source file, those of declarations inside of others as well. -/
def SourceUnit.attributes (unit : SourceUnit) : List Mark :=
  Visit.attributes unit.visits

namespace Visit

@[simp] theorem attributes_mark (mark : Mark) (rest : List Visit) :
    attributes (.mark mark :: rest) = mark :: attributes rest := rfl

@[simp] theorem attributes_append (front behind : List Visit) :
    attributes (front ++ behind) = attributes front ++ attributes behind :=
  List.filterMap_append

/-- Parts without attributes have none in a row either. -/
theorem attributes_flatMap_eq_nil
    {α : Type}
    {visits : α → List Visit}
    (none_inside : ∀ part, attributes (visits part) = [])
    (parts : List α) :
    attributes (parts.flatMap visits) = [] := by
  induction parts with
  | nil => rfl
  | cons part rest ih => rw [List.flatMap_cons, attributes_append, none_inside, ih, List.append_nil]

theorem attributes_elim_eq_nil
    {α : Type}
    {visits : α → List Visit}
    (none_inside : ∀ part, attributes (visits part) = [])
    (part : Option α) :
    attributes (part.elim [] visits) = [] := by
  cases part with
  | none => rfl
  | some present => exact none_inside present

end Visit

mutual

@[simp] theorem TypeNode.attributes_visits :
    (type : TypeNode) → Visit.attributes type.visits = []
  | .primitive _ => rfl
  | .named _ arguments _ => TypeNode.attributes_visitsOfAll arguments
  | .array element _ => TypeNode.attributes_visits element
  | .pointer target => TypeNode.attributes_visits target
  | .byReference target => TypeNode.attributes_visits target
  | .parameter _ => rfl

@[simp] theorem TypeNode.attributes_visitsOfAll :
    (types : List TypeNode) → Visit.attributes (TypeNode.visitsOfAll types) = []
  | [] => rfl
  | type :: rest => by
      rw [TypeNode.visitsOfAll, Visit.attributes_append, TypeNode.attributes_visits type,
        TypeNode.attributes_visitsOfAll rest, List.append_nil]

end

mutual

@[simp] theorem Expression.attributes_visits :
    (expression : Expression) → Visit.attributes expression.visits = []
  | .constant _ => rfl
  | .typeOf type => TypeNode.attributes_visits type
  | .array elements => Expression.attributes_visitsOfAll elements

theorem Expression.attributes_visitsOfAll :
    (expressions : List Expression) → Visit.attributes (Expression.visitsOfAll expressions) = []
  | [] => rfl
  | expression :: rest => by
      rw [Expression.visitsOfAll, Visit.attributes_append, Expression.attributes_visits expression,
        Expression.attributes_visitsOfAll rest, List.append_nil]

end

/-- An attribute has no others inside. -/
theorem Mark.attributes_visits (mark : Mark) :
    Visit.attributes mark.visits = [mark] := by
  simp [Mark.visits, Visit.attributes_flatMap_eq_nil]

@[simp] theorem Mark.attributes_flatMap_visits (marks : List Mark) :
    Visit.attributes (marks.flatMap (·.visits)) = marks := by
  induction marks with
  | nil => rfl
  | cons mark rest ih =>
      rw [List.flatMap_cons, Visit.attributes_append, Mark.attributes_visits, ih,
        List.singleton_append]

@[simp] theorem Statement.attributes_visits (statement : Statement) :
    Visit.attributes statement.visits = [] := by
  cases statement with
  | declareLocal type name => exact TypeNode.attributes_visits type
  | throwNull => rfl

@[simp] theorem Body.attributes_visits (body : Body) :
    Visit.attributes (Body.visits body) = [] :=
  Visit.attributes_flatMap_eq_nil Statement.attributes_visits _

@[simp] theorem ParameterNode.attributes_visitsOfAll (parameters : List ParameterNode) :
    Visit.attributes (ParameterNode.visitsOfAll parameters) = [] :=
  Visit.attributes_flatMap_eq_nil (fun _ => TypeNode.attributes_visits _) parameters

@[simp] theorem Accessor.attributes_visits (accessor : Option Accessor) :
    Visit.attributes (Accessor.visits accessor) = [] :=
  Visit.attributes_elim_eq_nil (fun _ => Body.attributes_visits _) accessor

@[simp] theorem TypeHead.attributes_visits (head : TypeHead) :
    Visit.attributes head.visits = head.marks := by
  simp [TypeHead.visits, Visit.attributes_elim_eq_nil]

@[simp] theorem FieldNode.attributes_visits (field : FieldNode) :
    Visit.attributes field.visits = field.marks := by
  simp [FieldNode.visits, Visit.attributes_elim_eq_nil]

@[simp] theorem EnumMemberNode.attributes_visits (member : EnumMemberNode) :
    Visit.attributes member.visits = member.marks := by
  simp [EnumMemberNode.visits, Visit.attributes_elim_eq_nil]

@[simp] theorem MethodNode.attributes_visits (method : MethodNode) :
    Visit.attributes method.visits = method.marks := by
  simp [MethodNode.visits, Visit.attributes_elim_eq_nil]

@[simp] theorem PropertyNode.attributes_visits (property : PropertyNode) :
    Visit.attributes property.visits = property.marks := by
  simp [PropertyNode.visits]

@[simp] theorem EventNode.attributes_visits (event : EventNode) :
    Visit.attributes event.visits = event.marks := by
  simp [EventNode.visits]

/-! ## Edits that drop attributes -/

namespace Edit

section Dropping

variable {edit : Edit Id}
variable {keep : Mark → Bool}

mutual

/-- Of the attributes of a declaration and of those inside it, the kept ones are left. -/
theorem attributes_node
    (drops : ∀ marks, edit.marks marks = marks.filter keep) :
    (node : Node) →
      Visit.attributes (edit.node node).visits = (Visit.attributes node.visits).filter keep
  | .space _ members => attributes_nodes drops members
  | .type head members => by
      have own : (edit.typeHead head).marks = head.marks.filter keep := drops head.marks
      have inside := attributes_nodes drops members
      show Visit.attributes ((edit.typeHead head).visits ++ Node.visitsOfAll (edit.nodes members))
        = (Visit.attributes (head.visits ++ Node.visitsOfAll members)).filter keep
      rw [Visit.attributes_append, Visit.attributes_append, List.filter_append, inside,
        TypeHead.attributes_visits, TypeHead.attributes_visits, own]
  | .field declaration => by
      show Visit.attributes (edit.field declaration).visits
        = (Visit.attributes declaration.visits).filter keep
      rw [FieldNode.attributes_visits, FieldNode.attributes_visits]
      exact drops declaration.marks
  | .enumMember declaration => by
      show Visit.attributes (edit.enumMember declaration).visits
        = (Visit.attributes declaration.visits).filter keep
      rw [EnumMemberNode.attributes_visits, EnumMemberNode.attributes_visits]
      exact drops declaration.marks
  | .method declaration => by
      show Visit.attributes (edit.method declaration).visits
        = (Visit.attributes declaration.visits).filter keep
      rw [MethodNode.attributes_visits, MethodNode.attributes_visits]
      exact drops declaration.marks
  | .property declaration => by
      show Visit.attributes (edit.property declaration).visits
        = (Visit.attributes declaration.visits).filter keep
      rw [PropertyNode.attributes_visits, PropertyNode.attributes_visits]
      exact drops declaration.marks
  | .event declaration => by
      show Visit.attributes (edit.event declaration).visits
        = (Visit.attributes declaration.visits).filter keep
      rw [EventNode.attributes_visits, EventNode.attributes_visits]
      exact drops declaration.marks

theorem attributes_nodes
    (drops : ∀ marks, edit.marks marks = marks.filter keep) :
    (nodes : List Node) →
      Visit.attributes (Node.visitsOfAll (edit.nodes nodes))
        = (Visit.attributes (Node.visitsOfAll nodes)).filter keep
  | [] => rfl
  | node :: rest => by
      rw [Node.visitsOfAll, Visit.attributes_append, List.filter_append,
        ← attributes_node drops node, ← attributes_nodes drops rest, ← Visit.attributes_append]
      rfl

end

/-- Of the attributes of a source file, the kept ones are left in their order. -/
theorem attributes_unit
    (drops : ∀ marks, edit.marks marks = marks.filter keep)
    (unit : SourceUnit) :
    (edit.unit unit).attributes = unit.attributes.filter keep := by
  have own : (edit.unit unit).marks = unit.marks.filter keep := drops unit.marks
  have inside := attributes_nodes drops unit.members
  rw [SourceUnit.attributes, SourceUnit.visits, SourceUnit.attributes, SourceUnit.visits,
    Visit.attributes_append, Visit.attributes_append, List.filter_append,
    Mark.attributes_flatMap_visits, Mark.attributes_flatMap_visits, own, ← inside]
  rfl

end Dropping

end Edit

/-! ## The removals -/

/-- The attributes of the full name are gone from each list and the others stand in their order.
Names stay as they are. -/
def removing (fullName : String) : Rewriting where
  identifier old new := new = old
  typeName old new := new = old
  marks old new := new = old.filter (·.fullName != fullName)

theorem removing_madeBy_complianceEdit :
    (removing "System.CLSCompliantAttribute").MadeBy complianceEdit where
  identifier _ _ := Iff.rfl
  typeName _ _ := Iff.rfl
  marks _ _ := Iff.rfl

/-- No claim of compliance is left. -/
theorem complianceName_not_left
    {unit : SourceUnit}
    {mark : Mark}
    (left : mark ∈ (Transform.dropCompliance.run unit).attributes) :
    mark.fullName ≠ "System.CLSCompliantAttribute" := by
  have kept : (Transform.dropCompliance.run unit).attributes
      = unit.attributes.filter (·.fullName != complianceName) :=
    Edit.attributes_unit (fun _ => rfl) unit
  rw [kept] at left
  exact bne_iff_ne.1 (List.mem_filter.1 left).2

/-- Of a list that has been filtered, the filter keeps all. -/
theorem complianceEdit_after_self :
    complianceEdit.after complianceEdit = complianceEdit := by
  have again (marks : List Mark) :
      complianceEdit.marks (complianceEdit.marks marks) = complianceEdit.marks marks := by
    show List.filter _ (List.filter _ marks) = List.filter _ marks
    rw [List.filter_filter]
    simp only [Bool.and_self]
  exact congrArg (Edit.mk _ _) (funext again)

/-- An attribute that has been removed is not there to be removed again. -/
theorem Transform.run_run_of_removal
    {removal : Transform}
    (isRemoval : removal ∈ [Transform.dropCompliance, Transform.dropGenerated])
    (unit : SourceUnit) :
    removal.run (removal.run unit) = removal.run unit := by
  simp only [List.mem_cons, List.not_mem_nil, or_false] at isRemoval
  rcases isRemoval with rfl | rfl
  · calc complianceEdit.unit (complianceEdit.unit unit)
        = (complianceEdit.after complianceEdit).unit unit := Edit.unit_after _ _ _
      _ = complianceEdit.unit unit := by rw [complianceEdit_after_self]
  · show SourceUnit.mk (List.filter _ (List.filter _ unit.marks)) unit.members
      = SourceUnit.mk (List.filter _ unit.marks) unit.members
    rw [List.filter_filter]
    simp only [Bool.and_self]

theorem Transform.escape_dropCompliance (unit : SourceUnit) :
    Transform.escape.run (Transform.dropCompliance.run unit)
      = Transform.dropCompliance.run (Transform.escape.run unit) :=
  calc escapeEdit.unit (complianceEdit.unit unit)
      = (escapeEdit.after complianceEdit).unit unit := Edit.unit_after _ _ _
    _ = (complianceEdit.after escapeEdit).unit unit := rfl
    _ = complianceEdit.unit (escapeEdit.unit unit) := (Edit.unit_after _ _ _).symm

theorem Transform.escape_dropGenerated (unit : SourceUnit) :
    Transform.escape.run (Transform.dropGenerated.run unit)
      = Transform.dropGenerated.run (Transform.escape.run unit) :=
  rfl

theorem Transform.dropCompliance_dropGenerated (unit : SourceUnit) :
    Transform.dropCompliance.run (Transform.dropGenerated.run unit)
      = Transform.dropGenerated.run (Transform.dropCompliance.run unit) :=
  congrArg (SourceUnit.mk · (complianceEdit.nodes unit.members)) (List.filter_comm _ _ unit.marks)

/-- Escaping and the removals may change places. -/
theorem Transform.run_comm
    {first later : Transform}
    (isFirst : first ∈ [Transform.dropCompliance, Transform.dropGenerated, Transform.escape])
    (isLater : later ∈ [Transform.dropCompliance, Transform.dropGenerated, Transform.escape])
    (unit : SourceUnit) :
    later.run (first.run unit) = first.run (later.run unit) := by
  simp only [List.mem_cons, List.not_mem_nil, or_false] at isFirst isLater
  rcases isFirst with rfl | rfl | rfl
  · rcases isLater with rfl | rfl | rfl
    · rfl
    · exact (Transform.dropCompliance_dropGenerated unit).symm
    · exact Transform.escape_dropCompliance unit
  · rcases isLater with rfl | rfl | rfl
    · exact Transform.dropCompliance_dropGenerated unit
    · rfl
    · exact Transform.escape_dropGenerated unit
  · rcases isLater with rfl | rfl | rfl
    · exact (Transform.escape_dropCompliance unit).symm
    · exact (Transform.escape_dropGenerated unit).symm
    · rfl

/-- The claim of compliance is taken out of every list of attributes and nothing else is changed, so
that none is left. A removal once is a removal for good, and escaping and the removals may be run in
any order. -/
theorem Transform.removal_exact_and_order_free (unit : SourceUnit) :
    (∀ changed, unit.RewritesTo (removing "System.CLSCompliantAttribute") changed
      ↔ changed = Transform.dropCompliance.run unit)
    ∧ (∀ mark ∈ (Transform.dropCompliance.run unit).attributes,
      mark.fullName ≠ "System.CLSCompliantAttribute")
    ∧ (∀ removal ∈ [Transform.dropCompliance, Transform.dropGenerated],
      removal.run (removal.run unit) = removal.run unit)
    ∧ ∀ first ∈ [Transform.dropCompliance, Transform.dropGenerated, Transform.escape],
      ∀ later ∈ [Transform.dropCompliance, Transform.dropGenerated, Transform.escape],
        later.run (first.run unit) = first.run (later.run unit) :=
  ⟨removing_madeBy_complianceEdit.isGraph_unit unit,
    fun _ left => complianceName_not_left left,
    fun _ isRemoval => Transform.run_run_of_removal isRemoval unit,
    fun _ isFirst _ isLater => Transform.run_comm isFirst isLater unit⟩

end Syntax
end AssemblyAtlas
