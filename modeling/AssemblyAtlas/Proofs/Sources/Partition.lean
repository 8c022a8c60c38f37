import AssemblyAtlas.Proofs.Assembly.Lookup
import AssemblyAtlas.Proofs.Sources.Grouping
import Mathlib.Data.List.Perm.Subperm

/-!
# Units as a partition

Units take the types of a list apart by the paths of their files. What can be relied on is said
here without the way in which units are made: no type is lost or doubled, types share a unit if they
share a path, and the order of the list is kept, from unit to unit as well as inside a unit.

* `Partition` says this of some units;
* `Partition.grouped` leads from it to the classes of types with the same path, and
  `Partition.unique` says that a list without repetitions has one partition only;
* `group_eq_iff_partition` says that this one is what grouping gives.
-/

namespace AssemblyAtlas
namespace Sources

open Assembly
open Declaration
open Text

/-- The first types of units. -/
def WorkUnit.firsts (units : List WorkUnit) : List Token :=
  units.filterMap (·.types.head?)

section Partition

variable (settings : Settings) (module : Module)

/-- The units take the types apart by the paths of their files, whatever the case of ASCII
letters. -/
structure Partition (tokens : List Token) (units : List WorkUnit) : Prop where
  /-- Every type that has a definition is in one of the units, and nowhere else. -/
  types : (units.flatMap (·.types)).Perm
    (tokens.filter fun token => (module.type? token).isSome)
  nonempty : ∀ unit ∈ units, unit.types ≠ []
  distinct : units.Pairwise fun left right => sameIgnoringCase left.path right.path = false
  /-- Two types share a unit exactly if they have the same path. -/
  together : ∀ left ∈ tokens, ∀ right ∈ tokens, ∀ leftPath rightPath,
    filePath? settings module left = some leftPath →
    filePath? settings module right = some rightPath →
    ((∃ unit ∈ units, left ∈ unit.types ∧ right ∈ unit.types)
      ↔ sameIgnoringCase leftPath rightPath = true)
  /-- The units stand in the order of their first types. -/
  ordered : (WorkUnit.firsts units).Sublist tokens
  /-- The types of a unit stand in the order of the list. -/
  kept : ∀ unit ∈ units, unit.types.Sublist tokens
  /-- A unit has the path of its first type. -/
  named : ∀ unit ∈ units, ∀ token, unit.types.head? = some token →
    filePath? settings module token = some unit.path

/-- The unit of the types with the path of one of them. -/
def unitWith? (tokens : List Token) (token : Token) : Option WorkUnit :=
  (filePath? settings module token).map fun path =>
    ⟨path, tokens.filter (hasPath settings module path)⟩

end Partition

variable {settings : Settings} {module : Module} {tokens : List Token} {units : List WorkUnit}

/-- A type has a path exactly if it has a definition. -/
theorem isSome_filePath?
    (settings : Settings)
    (module : Module)
    (token : Token) :
    (filePath? settings module token).isSome = (module.type? token).isSome :=
  Option.isSome_map

/-- Paths that are the same are those of the same types. -/
theorem hasPath_congr
    {left right : String}
    (same : sameIgnoringCase left right = true) :
    hasPath settings module left = hasPath settings module right := by
  funext token
  rw [hasPath, hasPath]
  refine congrArg (Option.any · _) (funext fun path => Bool.eq_iff_iff.2 ⟨fun h => ?_, fun h => ?_⟩)
  · exact sameIgnoringCase_trans (sameIgnoringCase_symm same) h
  · exact sameIgnoringCase_trans same h

/-- Parts of a list without repetitions that keep its order are equal if they have the same
members. -/
theorem eq_of_sublists
    (nodup : tokens.Nodup)
    {left right : List Token}
    (isLeft : left.Sublist tokens)
    (isRight : right.Sublist tokens)
    (same : ∀ token, token ∈ left ↔ token ∈ right) :
    left = right :=
  (List.Nodup.perm_iff_eq_of_sublist nodup isLeft isRight).1
    ((List.perm_ext_iff_of_nodup (isLeft.nodup nodup) (isRight.nodup nodup)).2 same)

/-! ## Grouping makes a partition -/

namespace WorkUnit

/-- A type that is added to units that have types is the first one only of a unit of its own. -/
theorem firsts_place
    (path : String)
    (token : Token)
    {units : List WorkUnit}
    (nonempty : ∀ unit ∈ units, unit.types ≠ []) :
    (firsts (place path token units)).Sublist (firsts units ++ [token]) := by
  induction units with
  | nil => exact List.Sublist.refl _
  | cons unit rest ih =>
      obtain ⟨first, others, types⟩ :=
        List.exists_cons_of_ne_nil (nonempty unit List.mem_cons_self)
      have later := ih fun other isOther => nonempty other (List.mem_cons_of_mem _ isOther)
      rw [place]
      split
      · simp [firsts, types]
      · simpa [firsts, types] using later

end WorkUnit

theorem Grouped.nonempty
    (grouped : Grouped settings module tokens units) :
    ∀ unit ∈ units, unit.types ≠ [] := by
  intro unit isUnit none
  obtain ⟨first, isFirst, -⟩ := grouped.named unit isUnit
  rw [none] at isFirst
  cases isFirst

/-- The first types of the units stand in the order of the list: a type that becomes a first one
comes behind all those before it. -/
theorem firsts_group
    (settings : Settings)
    (module : Module)
    (tokens : List Token) :
    (WorkUnit.firsts (group settings module tokens)).Sublist tokens := by
  induction tokens using List.reverseRecOn with
  | nil => exact List.Sublist.refl _
  | append_singleton tokens token ih =>
      rw [group_concat, assign]
      cases module.type? token with
      | none => exact ih.trans (List.sublist_append_left _ _)
      | some type =>
          have nonempty := (grouped_group settings module tokens).nonempty
          exact (WorkUnit.firsts_place _ token nonempty).trans (ih.append_right [token])

/-- Types of a list share a unit exactly if they have the same path. -/
theorem Grouped.together
    (grouped : Grouped settings module tokens units)
    {left right : Token}
    (isLeft : left ∈ tokens)
    (isRight : right ∈ tokens)
    {leftPath rightPath : String}
    (hleft : filePath? settings module left = some leftPath)
    (hright : filePath? settings module right = some rightPath) :
    (∃ unit ∈ units, left ∈ unit.types ∧ right ∈ unit.types)
      ↔ sameIgnoringCase leftPath rightPath = true := by
  constructor
  · rintro ⟨unit, isUnit, inLeft, inRight⟩
    exact sameIgnoringCase_trans (sameIgnoringCase_symm (grouped.same_path isUnit inLeft hleft))
      (grouped.same_path isUnit inRight hright)
  · intro same
    obtain ⟨unit, isUnit, samePath⟩ := grouped.covered left isLeft leftPath hleft
    refine ⟨unit, isUnit, ?_⟩
    simp only [grouped.types unit isUnit, List.mem_filter, hasPath_eq hleft, hasPath_eq hright]
    exact ⟨⟨isLeft, samePath⟩, isRight, sameIgnoringCase_trans samePath same⟩

/-- Grouping takes a list without repetitions apart by paths. -/
theorem partition_group
    (settings : Settings)
    (module : Module)
    (nodup : tokens.Nodup) :
    Partition settings module tokens (group settings module tokens) := by
  have grouped := grouped_group settings module tokens
  refine ⟨?_, grouped.nonempty, grouped.distinct, ?_, firsts_group settings module tokens, ?_, ?_⟩
  · refine (List.perm_ext_iff_of_nodup (nodup_units settings module nodup) (nodup.filter _)).2 ?_
    intro token
    rw [List.mem_flatMap, List.mem_filter]
    exact mem_units_iff settings module tokens token
  · intro left isLeft right isRight leftPath rightPath
    exact grouped.together isLeft isRight
  · intro unit isUnit
    rw [grouped.types unit isUnit]
    exact List.filter_sublist
  · intro unit isUnit token isFirst
    obtain ⟨first, alsoFirst, hpath⟩ := grouped.named unit isUnit
    rwa [Option.some.inj (isFirst.symm.trans alsoFirst)]

/-! ## There is no other -/

namespace Partition

variable (partition : Partition settings module tokens units)

include partition

/-- The types in the units are types of the list, and have paths. -/
theorem of_mem
    {unit : WorkUnit}
    (isUnit : unit ∈ units)
    {token : Token}
    (inUnit : token ∈ unit.types) :
    token ∈ tokens ∧ ∃ path, filePath? settings module token = some path := by
  have member := partition.types.mem_iff.1 (List.mem_flatMap.2 ⟨unit, isUnit, inUnit⟩)
  rw [List.mem_filter, ← isSome_filePath? settings, Option.isSome_iff_exists] at member
  exact member

/-- The first type of a unit, which has its path. -/
theorem exists_first
    {unit : WorkUnit}
    (isUnit : unit ∈ units) :
    ∃ first, unit.types.head? = some first ∧ first ∈ unit.types ∧ first ∈ tokens
      ∧ filePath? settings module first = some unit.path := by
  obtain ⟨first, others, types⟩ := List.exists_cons_of_ne_nil (partition.nonempty unit isUnit)
  have isFirst : unit.types.head? = some first := by rw [types, List.head?_cons]
  have inUnit := List.mem_of_head? isFirst
  exact ⟨first, isFirst, inUnit, (partition.of_mem isUnit inUnit).1,
    partition.named unit isUnit first isFirst⟩

/-- The path of a unit is that of its types. -/
theorem same_path
    {unit : WorkUnit}
    (isUnit : unit ∈ units)
    {token : Token}
    (inUnit : token ∈ unit.types)
    {path : String}
    (known : filePath? settings module token = some path) :
    sameIgnoringCase unit.path path = true := by
  obtain ⟨first, -, inFirst, isToken, hfirst⟩ := partition.exists_first isUnit
  exact (partition.together first isToken token (partition.of_mem isUnit inUnit).1 _ _ hfirst
    known).1 ⟨unit, isUnit, inFirst, inUnit⟩

/-- The types with the path of a unit are in it. -/
theorem mem_types_iff
    {unit : WorkUnit}
    (isUnit : unit ∈ units)
    (token : Token) :
    token ∈ unit.types ↔ token ∈ tokens ∧ hasPath settings module unit.path token = true := by
  constructor
  · intro inUnit
    obtain ⟨isToken, path, known⟩ := partition.of_mem isUnit inUnit
    rw [hasPath_eq known]
    exact ⟨isToken, partition.same_path isUnit inUnit known⟩
  · rintro ⟨isToken, same⟩
    obtain ⟨path, known, same⟩ := Option.any_eq_true _ _ |>.1 same
    obtain ⟨first, -, -, isFirst, hfirst⟩ := partition.exists_first isUnit
    -- The unit that holds the type together with the first type of this one has the same path.
    obtain ⟨other, isOther, inOther, inUnit⟩ :=
      (partition.together first isFirst token isToken _ _ hfirst known).2 same
    have samePath := partition.same_path isOther inOther hfirst
    rwa [← WorkUnit.eq_of_same partition.distinct isOther isUnit samePath]

/-- The units of a partition are the classes of types with the same path. -/
theorem grouped
    (nodup : tokens.Nodup) :
    Grouped settings module tokens units where
  types := by
    intro unit isUnit
    refine eq_of_sublists nodup (partition.kept unit isUnit) List.filter_sublist fun token => ?_
    rw [partition.mem_types_iff isUnit, List.mem_filter]
  distinct := partition.distinct
  named := by
    intro unit isUnit
    obtain ⟨first, isFirst, -, -, hfirst⟩ := partition.exists_first isUnit
    exact ⟨first, isFirst, hfirst⟩
  covered := by
    intro token isToken path known
    obtain ⟨unit, isUnit, inUnit, -⟩ :=
      (partition.together token isToken token isToken path path known known).2
        (sameIgnoringCase_refl path)
    exact ⟨unit, isUnit, partition.same_path isUnit inUnit known⟩

end Partition

/-- The first types of classes tell what the classes are. -/
theorem Grouped.eq_filterMap_firsts
    (grouped : Grouped settings module tokens units) :
    units = (WorkUnit.firsts units).filterMap (unitWith? settings module tokens) := by
  have own (unit : WorkUnit) (isUnit : unit ∈ units) :
      unit.types.head?.bind (unitWith? settings module tokens) = some unit := by
    obtain ⟨first, isFirst, hfirst⟩ := grouped.named unit isUnit
    rw [isFirst, Option.bind_some, unitWith?, hfirst, Option.map_some, ← grouped.types unit isUnit]
  rw [WorkUnit.firsts, List.filterMap_filterMap, List.filterMap_congr own, List.filterMap_some]

/-- Classes of the same types have the same first types. -/
theorem Grouped.mem_firsts
    {others : List WorkUnit}
    (grouped : Grouped settings module tokens units)
    (also : Grouped settings module tokens others)
    {token : Token}
    (isFirst : token ∈ WorkUnit.firsts units) :
    token ∈ WorkUnit.firsts others := by
  obtain ⟨unit, isUnit, isHead⟩ := List.mem_filterMap.1 isFirst
  obtain ⟨first, alsoHead, known⟩ := grouped.named unit isUnit
  obtain rfl := Option.some.inj (isHead.symm.trans alsoHead)
  have isToken : token ∈ tokens := by
    have inUnit := List.mem_of_head? isHead
    rw [grouped.types unit isUnit] at inUnit
    exact List.mem_of_mem_filter inUnit
  obtain ⟨other, isOther, same⟩ := also.covered token isToken unit.path known
  refine List.mem_filterMap.2 ⟨other, isOther, ?_⟩
  rw [also.types other isOther, hasPath_congr same, ← grouped.types unit isUnit, isHead]

/-- A list without repetitions has one partition. -/
theorem Partition.unique
    {others : List WorkUnit}
    (partition : Partition settings module tokens units)
    (other : Partition settings module tokens others)
    (nodup : tokens.Nodup) :
    units = others := by
  have left := partition.grouped nodup
  have right := other.grouped nodup
  have same : WorkUnit.firsts units = WorkUnit.firsts others :=
    eq_of_sublists nodup partition.ordered other.ordered fun token =>
      ⟨left.mem_firsts right, right.mem_firsts left⟩
  rw [left.eq_filterMap_firsts, right.eq_filterMap_firsts, same]

/-- Grouping gives the one partition of types by the paths of their files. -/
theorem group_eq_iff_partition
    (settings : Settings)
    (module : Module)
    {tokens : List Token}
    (nodup : tokens.Nodup)
    (units : List WorkUnit) :
    group settings module tokens = units ↔ Partition settings module tokens units := by
  have grouping := partition_group settings module nodup
  constructor
  · rintro rfl
    exact grouping
  · intro partition
    exact grouping.unique partition nodup

/-- A module in which two types have paths that differ in the case of a letter. -/
def caseSample : Module :=
  .ofTypes [
    .bare (.ofRow .typeDefinition 2) "Shop" "Order",
    .bare (.ofRow .typeDefinition 3) "Shop" "order`1",
    .bare (.ofRow .typeDefinition 4) "Shop" "Item"]

/-- The two types share a unit, and a token without a definition is in none. -/
theorem group_eq_iff_partition_caseSample :
    let tokens := [3, 9, 4, 2].map (Token.ofRow .typeDefinition)
    tokens.Nodup ∧ Partition .default caseSample tokens [
      ⟨"Shop/order.cs", [.ofRow .typeDefinition 3, .ofRow .typeDefinition 2]⟩,
      ⟨"Shop/Item.cs", [.ofRow .typeDefinition 4]⟩] := by
  have nodup : ([3, 9, 4, 2].map (Token.ofRow .typeDefinition)).Nodup := by decide
  exact ⟨nodup, (group_eq_iff_partition .default caseSample nodup _).1 (by decide +kernel)⟩

end Sources
end AssemblyAtlas
