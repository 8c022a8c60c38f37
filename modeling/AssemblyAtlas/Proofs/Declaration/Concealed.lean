import AssemblyAtlas.Declaration.Hidden
import AssemblyAtlas.Proofs.Assembly.Built

/-!
# Hidden definitions and their tokens

Whether a definition is left out can be asked of the definition and of its token. Where tokens tell
the members of a module apart, both answers agree; a module that is built has such tokens as long as
its rows fit into them.

* `memberHidden_type`, `memberHidden_field` and `memberHidden_method` compare the answers;
* `memberHidden_built_type`, `memberHidden_built_field` and `memberHidden_built_method` are about
  modules that are built.
-/

namespace AssemblyAtlas
namespace Declaration

open Assembly

variable {module : Module} {type : TypeDefinition}

/-- Where tokens tell members apart, two members of types with the same token are one. -/
theorem eq_of_same_token
    {α : Type}
    {types : List TypeDefinition}
    {members : TypeDefinition → List α}
    {token : α → Token}
    (distinct : (types.flatMap fun type => (members type).map token).Nodup)
    {one other : TypeDefinition}
    (isOne : one ∈ types)
    (isOther : other ∈ types)
    {left right : α}
    (isLeft : left ∈ members one)
    (isRight : right ∈ members other)
    (same : token left = token right) :
    left = right := by
  rw [← List.map_flatMap] at distinct
  exact List.inj_on_of_nodup_map distinct (List.mem_flatMap.2 ⟨one, isOne, isLeft⟩)
    (List.mem_flatMap.2 ⟨other, isOther, isRight⟩) same

/-- The token of a type is hidden if the type is. -/
theorem memberHidden_type
    (concealment : Concealment)
    (member : type ∈ module.types.entries)
    {row : Nat}
    (token : type.token = .ofRow .typeDefinition row) :
    memberHidden concealment module type.token = typeHidden concealment type := by
  have isType : type.token.isIn .typeDefinition = true := by
    simp [token]
  rw [memberHidden, if_pos isType, Module.type?_token member]
  rfl

/-- The token of a field is hidden if the field is, where no other field has the token. -/
theorem memberHidden_field
    (concealment : Concealment)
    (distinct : (module.types.entries.flatMap (·.fieldTokens)).Nodup)
    (member : type ∈ module.types.entries)
    {field : FieldDefinition}
    (isField : field ∈ type.fields)
    {row : Nat}
    (token : field.token = .ofRow .field row) :
    memberHidden concealment module field.token = fieldHidden concealment field := by
  have notType : field.token.isIn .typeDefinition = false := by
    simp [token]
  have inFields : field.token.isIn .field = true := by
    simp [token]
  rw [memberHidden, notType, if_neg Bool.false_ne_true, if_pos inFields, Bool.eq_iff_iff,
    List.any_eq_true]
  constructor
  · rintro ⟨other, isOther, hidden⟩
    obtain ⟨same, isSame, hidden⟩ := List.any_eq_true.1 hidden
    rw [Bool.and_eq_true, decide_eq_true_iff] at hidden
    rw [← eq_of_same_token distinct isOther member isSame isField hidden.1]
    exact hidden.2
  · intro hidden
    refine ⟨type, member, List.any_eq_true.2 ⟨field, isField, ?_⟩⟩
    rw [hidden, Bool.and_true, decide_eq_true_iff]

/-- The token of a method is hidden if the method is, where no other method has the token. -/
theorem memberHidden_method
    (concealment : Concealment)
    (distinct : (module.types.entries.flatMap (·.methodTokens)).Nodup)
    (member : type ∈ module.types.entries)
    {method : MethodDefinition}
    (isMethod : method ∈ type.methods)
    {row : Nat}
    (token : method.token = .ofRow .method row) :
    memberHidden concealment module method.token = methodHidden concealment method := by
  have notType : method.token.isIn .typeDefinition = false := by
    simp [token]
  have notField : method.token.isIn .field = false := by
    simp [token]
  have inMethods : method.token.isIn .method = true := by
    simp [token]
  rw [memberHidden, notType, notField, if_neg Bool.false_ne_true, if_neg Bool.false_ne_true,
    if_pos inMethods, Bool.eq_iff_iff, List.any_eq_true]
  constructor
  · rintro ⟨other, isOther, hidden⟩
    obtain ⟨same, found, hidden⟩ := (Option.any_eq_true _ _).1 hidden
    rw [TypeDefinition.method?] at found
    have equal : same.token = method.token := by
      simpa using List.find?_some found
    have isSame := List.mem_of_find?_eq_some found
    rwa [← eq_of_same_token distinct isOther member isSame isMethod equal]
  · intro hidden
    have found : type.method? method.token = some method :=
      find?_eq_some_of_unique isMethod (decide_eq_true rfl) fun same isSame equal =>
        eq_of_same_token distinct member member isSame isMethod (of_decide_eq_true equal)
    refine ⟨type, member, ?_⟩
    rw [found]
    exact hidden

section Built

variable {builder : Builder}

/-- In a module that is built, the token of a type is hidden if the type is. -/
theorem memberHidden_built_type
    (sound : builder.Sound)
    (concealment : Concealment)
    (member : type ∈ builder.build.types.entries) :
    memberHidden concealment builder.build type.token = typeHidden concealment type := by
  obtain ⟨place, at_place⟩ := List.mem_iff_getElem?.1 (sound.entries_build ▸ member)
  exact memberHidden_type concealment member (sound.token_at at_place)

/-- In a module that is built and whose fields fit into tokens, the token of a field is hidden if
the field is. -/
theorem memberHidden_built_field
    (sound : builder.Sound)
    (fit : builder.rows.field ≤ Token.rowLimit)
    (concealment : Concealment)
    (member : type ∈ builder.build.types.entries)
    {field : FieldDefinition}
    (isField : field ∈ type.fields) :
    memberHidden concealment builder.build field.token = fieldHidden concealment field := by
  have handedOut := sound.fields
  rw [← sound.entries_build] at handedOut
  obtain ⟨row, token⟩ := handedOut.exists_row
    (List.mem_flatMap.2 ⟨type, member, List.mem_map_of_mem isField⟩)
  exact memberHidden_field concealment (handedOut.nodup fit) member isField token

/-- In a module that is built and whose methods fit into tokens, the token of a method is hidden if
the method is. -/
theorem memberHidden_built_method
    (sound : builder.Sound)
    (fit : builder.rows.method ≤ Token.rowLimit)
    (concealment : Concealment)
    (member : type ∈ builder.build.types.entries)
    {method : MethodDefinition}
    (isMethod : method ∈ type.methods) :
    memberHidden concealment builder.build method.token = methodHidden concealment method := by
  have handedOut := sound.methods
  rw [← sound.entries_build] at handedOut
  obtain ⟨row, token⟩ := handedOut.exists_row
    (List.mem_flatMap.2 ⟨type, member, List.mem_map_of_mem isMethod⟩)
  exact memberHidden_method concealment (handedOut.nodup fit) member isMethod token

end Built

end Declaration
end AssemblyAtlas
