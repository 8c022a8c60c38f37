import AssemblyAtlas.Proofs.Text.Case
import AssemblyAtlas.Sources.Layout
import Mathlib.Data.List.Induction
import Mathlib.Data.List.Nodup

/-!
# Grouping types by their paths

The units of types are the classes of the types under equality of paths without regard to case:
every unit holds exactly the types with its path, and different units have different paths.

* `filePath?` is the path of the file with a type;
* `Grouped` says when units are the classes of some types, and `grouped_group` says that `group`
  makes them.
-/

namespace AssemblyAtlas
namespace Sources

open Assembly
open Declaration
open Text

section Grouping

variable (settings : Settings) (module : Module)

/-- The path of the file with the type that has a token. -/
def filePath? (token : Token) : Option String :=
  (module.type? token).map fun type => relativePath settings type.space type.name

/-- The type with the token has the path, whatever the case of ASCII letters. -/
def hasPath (path : String) (token : Token) : Bool :=
  (filePath? settings module token).any (sameIgnoringCase path)

/-- The units are the classes of types with the same path. -/
structure Grouped (tokens : List Token) (units : List WorkUnit) : Prop where
  types : ∀ unit ∈ units, unit.types = tokens.filter (hasPath settings module unit.path)
  distinct : units.Pairwise fun left right => sameIgnoringCase left.path right.path = false
  /-- The path of a unit is that of its first type. -/
  named : ∀ unit ∈ units, ∃ token,
    unit.types.head? = some token ∧ filePath? settings module token = some unit.path
  covered : ∀ token ∈ tokens, ∀ path, filePath? settings module token = some path →
    ∃ unit ∈ units, sameIgnoringCase unit.path path = true

end Grouping

namespace WorkUnit

/-- The unit with a further type. -/
def extended (token : Token) (unit : WorkUnit) : WorkUnit :=
  { unit with types := unit.types ++ [token] }

/-- Among units with different paths, a type is added to the one with its path; only if there is
none, a further unit is made. -/
theorem place_eq
    (path : String)
    (token : Token)
    {units : List WorkUnit}
    (distinct : units.Pairwise fun left right => sameIgnoringCase left.path right.path = false) :
    place path token units =
      if units.any (fun unit => sameIgnoringCase unit.path path) then
        units.map fun unit =>
          if sameIgnoringCase unit.path path then unit.extended token else unit
      else
        units ++ [⟨path, [token]⟩] := by
  induction units with
  | nil => rfl
  | cons unit rest ih =>
      obtain ⟨others, later⟩ := List.pairwise_cons.1 distinct
      by_cases here : sameIgnoringCase unit.path path = true
      · -- The units behind this one have other paths, so they stay as they are.
        have unchanged : rest.map (fun unit =>
            if sameIgnoringCase unit.path path then unit.extended token else unit) = rest := by
          refine (List.map_congr_left fun other isOther => ?_).trans (List.map_id rest)
          have differs : sameIgnoringCase other.path path ≠ true := by
            intro same
            have equal := sameIgnoringCase_trans here (sameIgnoringCase_symm same)
            rw [others other isOther] at equal
            exact Bool.noConfusion equal
          rw [if_neg differs, id]
        rw [place, if_pos here, if_pos (by simp [here]), List.map_cons, if_pos here, unchanged]
        rfl
      · rw [place, if_neg here, ih later, List.any_cons, Bool.eq_false_iff.2 here,
          Bool.false_or]
        split
        · rw [List.map_cons, if_neg here]
        · rfl

/-- Among units with different paths, two with the same path are one. -/
theorem eq_of_same
    {units : List WorkUnit}
    (distinct : units.Pairwise fun left right => sameIgnoringCase left.path right.path = false)
    {left right : WorkUnit}
    (isLeft : left ∈ units)
    (isRight : right ∈ units)
    (same : sameIgnoringCase left.path right.path = true) :
    left = right := by
  have apart := List.pairwise_iff_getElem.1 distinct
  obtain ⟨i, below_i, rfl⟩ := List.mem_iff_getElem.1 isLeft
  obtain ⟨j, below_j, rfl⟩ := List.mem_iff_getElem.1 isRight
  rcases Nat.lt_trichotomy i j with less | equal | greater
  · exact absurd same (by simp [apart i j below_i below_j less])
  · subst equal
    rfl
  · have mirrored := sameIgnoringCase_symm same
    exact absurd mirrored (by simp [apart j i below_j below_i greater])

@[simp] theorem extended_path
    (token : Token)
    (unit : WorkUnit) :
    (unit.extended token).path = unit.path := rfl

end WorkUnit

section Classes

variable {settings : Settings} {module : Module}

/-- Whether a type with a known path has another path is a question of the two paths. -/
theorem hasPath_eq
    {token : Token}
    {path : String}
    (known : filePath? settings module token = some path)
    (other : String) :
    hasPath settings module other token = sameIgnoringCase other path := by
  rw [hasPath, known, Option.any_some]

/-- No types make no units. -/
theorem grouped_nil : Grouped settings module [] [] where
  types := by simp
  distinct := List.Pairwise.nil
  named := by simp
  covered := by simp

/-- A type without a definition makes no difference. -/
theorem Grouped.skip
    {tokens : List Token}
    {units : List WorkUnit}
    (grouped : Grouped settings module tokens units)
    {token : Token}
    (undefined : filePath? settings module token = none) :
    Grouped settings module (tokens ++ [token]) units where
  types := by
    intro unit isUnit
    have absent : hasPath settings module unit.path token = false := by
      rw [hasPath, undefined, Option.any_none]
    rw [List.filter_append, ← grouped.types unit isUnit, List.filter_cons_of_neg (by simp [absent])]
    simp
  distinct := grouped.distinct
  named := grouped.named
  covered := by
    intro other isOther path hpath
    rcases List.mem_append.1 isOther with old | new
    · exact grouped.covered other old path hpath
    · rw [List.mem_singleton.1 new, undefined] at hpath
      simp at hpath

/-- A type whose path has a unit is added to it. -/
theorem Grouped.extend
    {tokens : List Token}
    {units : List WorkUnit}
    (grouped : Grouped settings module tokens units)
    {token : Token}
    {path : String}
    (hpath : filePath? settings module token = some path)
    (present : ∃ unit ∈ units, sameIgnoringCase unit.path path = true) :
    Grouped settings module (tokens ++ [token]) (units.map fun unit =>
      if sameIgnoringCase unit.path path then unit.extended token else unit) := by
  have known := hasPath_eq hpath
  refine ⟨?_, ?_, ?_, ?_⟩
  · intro unit isUnit
    obtain ⟨old, isOld, rfl⟩ := List.mem_map.1 isUnit
    split
    · next same =>
        rw [List.filter_append, WorkUnit.extended_path, ← grouped.types old isOld,
          List.filter_cons_of_pos (by rw [known, same]), List.filter_nil]
        rfl
    · next differs =>
        rw [List.filter_append, ← grouped.types old isOld,
          List.filter_cons_of_neg (by rw [known]; exact differs), List.filter_nil,
          List.append_nil]
  · refine List.pairwise_map.2 (grouped.distinct.imp fun {left right} different => ?_)
    split <;> split <;> exact different
  · intro unit isUnit
    obtain ⟨old, isOld, rfl⟩ := List.mem_map.1 isUnit
    obtain ⟨first, isFirst, hfirst⟩ := grouped.named old isOld
    refine ⟨first, ?_, ?_⟩
    · split
      · rw [WorkUnit.extended, List.head?_append, isFirst, Option.some_or]
      · exact isFirst
    · split <;> exact hfirst
  · intro other isOther otherPath hother
    have some_unit : ∃ unit ∈ units, sameIgnoringCase unit.path otherPath = true := by
      rcases List.mem_append.1 isOther with old | new
      · exact grouped.covered other old otherPath hother
      · rw [List.mem_singleton.1 new, hpath] at hother
        rw [← Option.some.inj hother]
        exact present
    obtain ⟨unit, isUnit, same⟩ := some_unit
    refine ⟨_, List.mem_map_of_mem isUnit, ?_⟩
    split <;> exact same

/-- A type whose path has no unit gets one. -/
theorem Grouped.append
    {tokens : List Token}
    {units : List WorkUnit}
    (grouped : Grouped settings module tokens units)
    {token : Token}
    {path : String}
    (hpath : filePath? settings module token = some path)
    (differs : ∀ unit ∈ units, sameIgnoringCase unit.path path = false) :
    Grouped settings module (tokens ++ [token]) (units ++ [⟨path, [token]⟩]) := by
  have known := hasPath_eq hpath
  -- No type before has the path of the new unit: it would have a unit with this path.
  have none_before : tokens.filter (hasPath settings module path) = [] := by
    refine List.filter_eq_nil_iff.2 fun other isOther same => ?_
    obtain ⟨otherPath, hother, same⟩ := Option.any_eq_true _ _ |>.1 same
    obtain ⟨unit, isUnit, hunit⟩ := grouped.covered other isOther otherPath hother
    have equal := sameIgnoringCase_trans hunit (sameIgnoringCase_symm same)
    rw [differs unit isUnit] at equal
    exact Bool.noConfusion equal
  refine ⟨?_, ?_, ?_, ?_⟩
  · intro unit isUnit
    rcases List.mem_append.1 isUnit with old | new
    · rw [List.filter_append, ← grouped.types unit old,
        List.filter_cons_of_neg (by rw [known, differs unit old]; simp), List.filter_nil,
        List.append_nil]
    · rw [List.mem_singleton.1 new, List.filter_append, none_before, List.nil_append,
        List.filter_cons_of_pos (by rw [known, sameIgnoringCase_refl]), List.filter_nil]
  · rw [List.pairwise_append]
    refine ⟨grouped.distinct, List.pairwise_singleton _ _, ?_⟩
    intro unit isUnit other isNew
    rw [List.mem_singleton.1 isNew]
    exact differs unit isUnit
  · intro unit isUnit
    rcases List.mem_append.1 isUnit with old | new
    · exact grouped.named unit old
    · rw [List.mem_singleton.1 new]
      exact ⟨token, rfl, hpath⟩
  · intro other isOther otherPath hother
    rcases List.mem_append.1 isOther with old | new
    · obtain ⟨unit, isUnit, same⟩ := grouped.covered other old otherPath hother
      exact ⟨unit, List.mem_append_left _ isUnit, same⟩
    · rw [List.mem_singleton.1 new, hpath] at hother
      rw [← Option.some.inj hother]
      exact ⟨⟨path, [token]⟩, by simp, sameIgnoringCase_refl path⟩

/-- Placing a further type keeps the units the classes of the types. -/
theorem Grouped.place
    {tokens : List Token}
    {units : List WorkUnit}
    (grouped : Grouped settings module tokens units)
    {token : Token}
    {path : String}
    (hpath : filePath? settings module token = some path) :
    Grouped settings module (tokens ++ [token]) (WorkUnit.place path token units) := by
  rw [WorkUnit.place_eq path token grouped.distinct]
  split
  · next present => exact grouped.extend hpath (List.any_eq_true.1 present)
  · next absent => exact grouped.append hpath (by simpa using absent)

/-- Grouping places the types one after the other. -/
theorem group_concat
    (settings : Settings)
    (module : Module)
    (tokens : List Token)
    (token : Token) :
    group settings module (tokens ++ [token])
      = assign settings module (group settings module tokens) token := by
  rw [group, List.foldl_append]
  rfl

/-- Grouping makes the units the classes of the types. -/
theorem grouped_group
    (settings : Settings)
    (module : Module)
    (tokens : List Token) :
    Grouped settings module tokens (group settings module tokens) := by
  induction tokens using List.reverseRecOn with
  | nil => exact grouped_nil
  | append_singleton tokens token ih =>
      rw [group_concat, assign]
      cases found : module.type? token with
      | none => exact ih.skip (by rw [filePath?, found, Option.map_none])
      | some type => exact ih.place (by rw [filePath?, found, Option.map_some])

/-- Two units of a grouping with the same path are one. -/
theorem Grouped.eq_of_same
    {tokens : List Token}
    {units : List WorkUnit}
    (grouped : Grouped settings module tokens units)
    {left right : WorkUnit}
    (isLeft : left ∈ units)
    (isRight : right ∈ units)
    (same : sameIgnoringCase left.path right.path = true) :
    left = right :=
  WorkUnit.eq_of_same grouped.distinct isLeft isRight same

/-- The path of a unit is that of its types. -/
theorem Grouped.same_path
    {tokens : List Token}
    {units : List WorkUnit}
    (grouped : Grouped settings module tokens units)
    {unit : WorkUnit}
    (isUnit : unit ∈ units)
    {token : Token}
    (inUnit : token ∈ unit.types)
    {path : String}
    (known : filePath? settings module token = some path) :
    sameIgnoringCase unit.path path = true := by
  rw [grouped.types unit isUnit, List.mem_filter, hasPath_eq known] at inUnit
  exact inUnit.2

end Classes

section Tokens

variable (settings : Settings) (module : Module)

/-- The types in the units are those with a definition. -/
theorem mem_units_iff
    (tokens : List Token)
    (token : Token) :
    (∃ unit ∈ group settings module tokens, token ∈ unit.types)
      ↔
    token ∈ tokens ∧ (module.type? token).isSome := by
  have grouped := grouped_group settings module tokens
  constructor
  · rintro ⟨unit, isUnit, isType⟩
    rw [grouped.types unit isUnit, List.mem_filter] at isType
    refine ⟨isType.1, ?_⟩
    obtain ⟨path, hpath, -⟩ := Option.any_eq_true _ _ |>.1 isType.2
    exact (Option.map_eq_some_iff.1 hpath).elim fun type h => by rw [h.1, Option.isSome_some]
  · rintro ⟨isToken, defined⟩
    obtain ⟨type, found⟩ := Option.isSome_iff_exists.1 defined
    have hpath : filePath? settings module token
        = some (relativePath settings type.space type.name) := by
      rw [filePath?, found, Option.map_some]
    obtain ⟨unit, isUnit, same⟩ := grouped.covered token isToken _ hpath
    refine ⟨unit, isUnit, ?_⟩
    rw [grouped.types unit isUnit, List.mem_filter, hasPath_eq hpath]
    exact ⟨isToken, same⟩

/-- Grouping repeats no type. -/
theorem nodup_units
    {tokens : List Token}
    (nodup : tokens.Nodup) :
    ((group settings module tokens).flatMap (·.types)).Nodup := by
  have grouped := grouped_group settings module tokens
  rw [List.nodup_flatMap]
  constructor
  · intro unit isUnit
    rw [grouped.types unit isUnit]
    exact nodup.filter _
  · refine grouped.distinct.imp_of_mem fun {left right} isLeft isRight different => ?_
    intro token (inLeft : token ∈ left.types) (inRight : token ∈ right.types)
    rw [grouped.types left isLeft, List.mem_filter] at inLeft
    rw [grouped.types right isRight, List.mem_filter] at inRight
    obtain ⟨path, hpath, hleft⟩ := Option.any_eq_true _ _ |>.1 inLeft.2
    rw [hasPath_eq hpath] at inRight
    have equal := sameIgnoringCase_trans hleft (sameIgnoringCase_symm inRight.2)
    rw [different] at equal
    exact Bool.noConfusion equal

end Tokens

end Sources
end AssemblyAtlas
