import AssemblyAtlas.Assembly.Module
import AssemblyAtlas.Proofs.Text.Lines
import Mathlib.Data.List.Nodup
import Mathlib.Data.List.Perm.Subperm

/-!
# Looking types up by their tokens

A table finds exactly its entries, each by its own token. The outermost type of a type is an entry
too, and different tokens of entries are not more than there are entries. A top-level type that is
found by a symbol key has this key.
-/

namespace AssemblyAtlas
namespace Assembly

open Text

namespace TypeTable

variable {table : TypeTable}

theorem nodup_tokens (table : TypeTable) :
    (table.entries.map (·.token)).Nodup := by
  refine List.pairwise_map.2 (table.increasing.imp fun {left right} below same => ?_)
  rw [same] at below
  exact UInt32.lt_irrefl _ below

/-- A found definition has the token it was looked up by. -/
theorem token_of_find?
    {token : Token}
    {type : TypeDefinition}
    (found : table.find? token = some type) :
    type.token = token := by
  simpa using List.find?_some found

theorem mem_of_find?
    {token : Token}
    {type : TypeDefinition}
    (found : table.find? token = some type) :
    type ∈ table.entries :=
  List.mem_of_find?_eq_some found

/-- An entry is found by its token. -/
theorem find?_token
    {type : TypeDefinition}
    (member : type ∈ table.entries) :
    table.find? type.token = some type := by
  have present : (table.find? type.token).isSome := by
    rw [find?, List.find?_isSome]
    exact ⟨type, member, by simp⟩
  obtain ⟨other, found⟩ := Option.isSome_iff_exists.1 present
  have same : other = type :=
    List.inj_on_of_nodup_map table.nodup_tokens (mem_of_find? found) member
      (token_of_find? found)
  rw [found, same]

end TypeTable

namespace Module

/-- A module that has types only. -/
def ofTypes (types : List TypeDefinition) : Module where
  name := "Sample.dll"
  mvid := .ofBytes []
  assembly := none
  location := none
  types := .ofList types
  references := []
  attributes := []
  forwards := []

variable {module : Module}

theorem type?_of_topLevel
    {type : TypeDefinition}
    (member : type ∈ module.topLevelTypes) :
    module.type? type.token = some type :=
  TypeTable.find?_token (List.mem_filter.1 member).1

theorem nodup_topLevel (module : Module) :
    (module.topLevelTypes.map (·.token)).Nodup :=
  module.types.nodup_tokens.sublist (List.filter_sublist.map _)

/-- Climbing from a definition ends at a definition. -/
theorem isSome_of_climb
    {steps : Nat}
    {type : TypeDefinition}
    {token : Token}
    (known : module.type? type.token = some type)
    (climbed : module.climb steps type = some token) :
    (module.type? token).isSome := by
  induction steps generalizing type with
  | zero => simp [climb] at climbed
  | succ steps ih =>
      rw [climb] at climbed
      split at climbed
      · rw [← Option.some.inj climbed, known, Option.isSome_some]
      · obtain ⟨parent, found, climbed⟩ := Option.bind_eq_some_iff.1 climbed
        exact ih (TypeTable.token_of_find? found ▸ found) climbed

theorem isSome_of_outermost?
    {token outermost : Token}
    (h : module.outermost? token = some outermost) :
    (module.type? outermost).isSome := by
  obtain ⟨type, found, climbed⟩ := Option.bind_eq_some_iff.1 h
  exact isSome_of_climb (TypeTable.token_of_find? found ▸ found) climbed

/-- A type path ends with the type itself. -/
theorem getLast?_of_ascend
    {steps : Nat}
    {type : TypeDefinition}
    {path : List TypeDefinition}
    (ascended : module.ascend steps type = some path) :
    path.getLast? = some type := by
  cases steps with
  | zero => simp [ascend] at ascended
  | succ steps =>
      rw [ascend] at ascended
      split at ascended
      · rw [← Option.some.inj ascended]
        rfl
      · obtain ⟨outer, -, rfl⟩ := Option.map_eq_some_iff.1 ascended
        rw [List.getLast?_concat]

/-- The path of a token ends with the type that has the token. -/
theorem getLast?_typePath
    {token : Token}
    {path : List TypeDefinition}
    {type : TypeDefinition}
    (found : module.typePath? token = some path)
    (last : path.getLast? = some type) :
    type.token = token := by
  obtain ⟨own, known, ascended⟩ := Option.bind_eq_some_iff.1 found
  obtain rfl : own = type := Option.some.inj ((getLast?_of_ascend ascended).symm.trans last)
  exact TypeTable.token_of_find? known

/-- The path of a type that stands in none is the type itself. -/
theorem typePath?_of_topLevel
    {type : TypeDefinition}
    (member : type ∈ module.topLevelTypes) :
    module.typePath? type.token = some [type] := by
  obtain ⟨isEntry, notNested⟩ := List.mem_filter.1 member
  obtain ⟨steps, size⟩ : ∃ steps, module.types.size = steps + 1 :=
    Nat.exists_eq_add_one.2 (List.length_pos_of_mem isEntry)
  have outermost : type.enclosing = none := by
    simpa [TypeDefinition.isNested] using notNested
  rw [typePath?, type?_of_topLevel member, Option.bind_some, size, ascend, outermost]

/-- A top-level type has the key by which it is found, if its name has no plus sign. -/
theorem typeKey?_of_resolve?
    {space name : String}
    {token : Token}
    (plain : '+' ∉ name.toList)
    (resolved : module.resolve? (.ofTypePath space [name]) = some token) :
    module.typeKey? token = some (.ofTypePath space [name]) := by
  have own : (SymbolKey.ofTypePath space [name]).typeName = name := by
    simp [SymbolKey.typeName, SymbolKey.ofTypePath, join]
  obtain ⟨type, found, rfl⟩ := Option.map_eq_some_iff.1 resolved
  have outer : module.topLevelNamed? space name = some type := by
    rw [own, findType?, pieces_of_not_mem plain] at found
    simpa [descend?, SymbolKey.ofTypePath] using found
  have isType := List.mem_of_find?_eq_some outer
  have fits := List.find?_some outer
  simp only [Bool.and_eq_true, beq_iff_eq, Bool.not_eq_true'] at fits
  obtain ⟨⟨notNested, rfl⟩, rfl⟩ := fits
  have path : module.typePath? type.token = some [type] :=
    typePath?_of_topLevel (List.mem_filter.2 ⟨isType, by simp [notNested]⟩)
  rw [typeKey?, path]
  rfl

/-- Different tokens of definitions are not more than there are definitions. -/
theorem length_le_size
    {tokens : List Token}
    (nodup : tokens.Nodup)
    (known : ∀ token ∈ tokens, (module.type? token).isSome) :
    tokens.length ≤ module.types.size := by
  have subset : tokens ⊆ module.types.entries.map (·.token) := by
    intro token isToken
    obtain ⟨type, found⟩ := Option.isSome_iff_exists.1 (known token isToken)
    rw [← TypeTable.token_of_find? found]
    exact List.mem_map_of_mem (TypeTable.mem_of_find? found)
  calc
    tokens.length ≤ (module.types.entries.map (·.token)).length :=
      (List.subperm_of_subset nodup subset).length_le
    _ = module.types.size := List.length_map _

end Module

end Assembly
end AssemblyAtlas
