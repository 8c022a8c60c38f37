import AssemblyAtlas.Proofs.Assembly.Nesting
import Mathlib.Logic.Relation

/-!
# What is reached from the top-level types

In a well-nested module the lists of nested types and the enclosing types say the same. So every
type is reached along these lists from exactly one top-level type, the one that climbing ends at.

* `Module.Lists` relates a type to those that it lists, and `Module.lists_iff` says which these are;
* `Module.outermost?_eq` compares the two ways to climb;
* `Module.exists_topLevel` is about all types of a module.
-/

namespace AssemblyAtlas
namespace Assembly

namespace Module

/-- Both types are in the module, and the first one lists the second. -/
structure Lists (module : Module) (outer inner : TypeDefinition) : Prop where
  mem_outer : outer ∈ module.types.entries
  mem_inner : inner ∈ module.types.entries
  listed : inner.token ∈ outer.nested

variable {module : Module}

/-- A token is listed by a type exactly if it is that of a type standing in it. -/
theorem mem_nested_iff
    (nesting : WellNested module.types.entries)
    {outer : TypeDefinition}
    (isOuter : outer ∈ module.types.entries)
    {token : Token} :
    token ∈ outer.nested
      ↔
    ∃ inner, module.type? token = some inner ∧ inner.enclosing = some outer.token := by
  rw [nesting.inside outer isOuter, List.mem_map]
  constructor
  · rintro ⟨inner, isInner, rfl⟩
    obtain ⟨member, enclosing⟩ := List.mem_filter.1 isInner
    exact ⟨inner, type?_token member, of_decide_eq_true enclosing⟩
  · rintro ⟨inner, known, enclosing⟩
    exact ⟨inner, List.mem_filter.2 ⟨TypeTable.mem_of_find? known, decide_eq_true enclosing⟩,
      TypeTable.token_of_find? known⟩

/-- No token is listed twice. -/
theorem nodup_nested
    (nesting : WellNested module.types.entries)
    {outer : TypeDefinition}
    (isOuter : outer ∈ module.types.entries) :
    outer.nested.Nodup := by
  rw [nesting.inside outer isOuter]
  exact module.types.nodup_tokens.sublist (List.filter_sublist.map _)

/-- A type lists exactly the types that stand in it. -/
theorem lists_iff
    (nesting : WellNested module.types.entries)
    {outer inner : TypeDefinition}
    (isInner : inner ∈ module.types.entries) :
    module.Lists outer inner
      ↔ outer ∈ module.types.entries ∧ inner.enclosing = some outer.token := by
  constructor
  · rintro ⟨isOuter, -, listed⟩
    obtain ⟨other, known, enclosing⟩ := (mem_nested_iff nesting isOuter).1 listed
    obtain rfl := Option.some.inj ((type?_token isInner).symm.trans known)
    exact ⟨isOuter, enclosing⟩
  · rintro ⟨isOuter, enclosing⟩
    exact ⟨isOuter, isInner, (mem_nested_iff nesting isOuter).2
      ⟨inner, type?_token isInner, enclosing⟩⟩

/-- Climbing ends at the first type of the path. -/
theorem climb_eq
    (steps : Nat)
    (type : TypeDefinition) :
    module.climb steps type = (module.ascend steps type).bind (·.head?.map (·.token)) := by
  induction steps generalizing type with
  | zero => rfl
  | succ steps ih =>
      rw [climb, ascend]
      cases enclosing : type.enclosing with
      | none => rfl
      | some parent =>
          cases known : module.type? parent with
          | none => simp [known]
          | some outer =>
              simp only [known, Option.bind_some, ih outer]
              cases ascended : module.ascend steps outer with
              | none => rfl
              | some path =>
                  -- A path has a first type, so one more type behind it does not change that.
                  cases path with
                  | nil => exact absurd (getLast?_of_ascend ascended) (by simp)
                  | cons top rest => rfl

theorem outermost?_eq (token : Token) :
    module.outermost? token = (module.typePath? token).bind (·.head?.map (·.token)) := by
  rw [outermost?, typePath?, Option.bind_assoc]
  exact congrArg _ (funext (climb_eq _))

/-- A type has a path from a top-level type, and is reached from this one only. -/
theorem exists_topLevel
    (nesting : WellNested module.types.entries)
    {type : TypeDefinition}
    (member : type ∈ module.types.entries) :
    ∃ top rest, top ∈ module.topLevelTypes
      ∧ module.typePath? type.token = some (top :: rest)
      ∧ ∀ other ∈ module.topLevelTypes,
          Relation.ReflTransGen module.Lists other type ↔ other = top := by
  obtain ⟨i, at_i⟩ := List.mem_iff_getElem?.1 member
  induction i using Nat.strongRecOn generalizing type with
  | ind i ih =>
      cases enclosing : type.enclosing with
      | none =>
          have isTop : type ∈ module.topLevelTypes :=
            List.mem_filter.2 ⟨member, by simp [TypeDefinition.isNested, enclosing]⟩
          refine ⟨type, [], isTop, typePath?_of_topLevel isTop, fun other _ => ?_⟩
          constructor
          · intro reached
            rcases reached.cases_tail with same | ⟨last, -, lists⟩
            · exact same.symm
            · rw [((lists_iff nesting member).1 lists).2] at enclosing
              cases enclosing
          · rintro rfl
            exact .refl
      | some parent =>
          obtain ⟨j, outer, earlier, at_j, rfl⟩ := nesting.around i type parent at_i enclosing
          have isOuter := List.mem_of_getElem? at_j
          obtain ⟨top, rest, isTop, path, only⟩ := ih j earlier isOuter at_j
          refine ⟨top, rest ++ [type], isTop, ?_, fun other isOther => ?_⟩
          · exact typePath?_of_standingIn nesting path
              (List.mem_filter.2 ⟨member, decide_eq_true enclosing⟩)
          · rw [← only other isOther]
            constructor
            · intro reached
              rcases reached.cases_tail with rfl | ⟨last, before, lists⟩
              · have notNested := (List.mem_filter.1 isOther).2
                simp [TypeDefinition.isNested, enclosing] at notNested
              · obtain ⟨isLast, around⟩ := (lists_iff nesting member).1 lists
                have same := Option.some.inj (around.symm.trans enclosing)
                obtain rfl := eq_of_token_eq isLast isOuter same
                exact before
            · intro reached
              exact reached.tail ((lists_iff nesting member).2 ⟨isOuter, enclosing⟩)

end Module

end Assembly
end AssemblyAtlas
