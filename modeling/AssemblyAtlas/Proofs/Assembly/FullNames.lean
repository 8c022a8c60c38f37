import AssemblyAtlas.Proofs.Assembly.Ascent
import AssemblyAtlas.Proofs.Assembly.Reached

/-!
# Names that lead to types

The full name of a type is made by climbing to the outermost type, and a type is found by a name by
going down again. In a well-nested module a type that is found has the name by which it was found,
and where names tell types apart, every type is found by the names along its path.

* `Module.nestedName` are the names along a path with plus signs between them;
* `Module.fullName?_of_findType?` goes from a found type to its name and
  `Module.findType?_of_typePath?` from a path to the type at its end.
-/

namespace AssemblyAtlas
namespace Assembly

open Text

/-- In a well-nested list, whatever a type lists is there and stands in it. -/
theorem WellNested.listsOwn
    {types : List TypeDefinition}
    (nesting : WellNested types) :
    ListsOwn types := by
  intro outer isOuter token listed
  rw [nesting.inside outer isOuter] at listed
  obtain ⟨inner, isInner, rfl⟩ := List.mem_map.1 listed
  obtain ⟨member, enclosing⟩ := List.mem_filter.1 isInner
  exact ⟨inner, member, rfl, of_decide_eq_true enclosing⟩

namespace Module

variable {module : Module}

/-- The names of the types of a path with plus signs between them. -/
def nestedName (path : List TypeDefinition) : String :=
  String.ofList (join ['+'] (path.map (·.name.toList)))

/-- A found type has the full name by which it was found. -/
theorem fullName?_of_findType?
    (own : ListsOwn module.types.entries)
    {space name : String}
    {type : TypeDefinition}
    (found : module.findType? space name = some type) :
    module.fullName? type.token = some (qualified space name) := by
  obtain ⟨path, isPath, rfl, names⟩ := exists_typePath?_of_findType? own found
  rw [fullName?, isPath, Option.map_some, names, join_pieces, String.ofList_toList]

/-- A type with a full name is there. -/
theorem exists_type?_of_fullName?
    {token : Token}
    {fullName : String}
    (known : module.fullName? token = some fullName) :
    ∃ type, module.type? token = some type := by
  obtain ⟨path, found, -⟩ := Option.map_eq_some_iff.1 known
  obtain ⟨type, isType, -⟩ := typePath?_eq_some_iff.1 found
  exact ⟨type, isType⟩

/-- Where names tell types apart, the namespace and the names of a path lead to the type at its
end. -/
theorem findType?_of_typePath?
    (nesting : WellNested module.types.entries)
    (names : module.NamesDistinct)
    {type : TypeDefinition}
    (member : type ∈ module.types.entries)
    {path : List TypeDefinition}
    (found : module.typePath? type.token = some path) :
    module.findType? (pathSpace path) (nestedName path) = some type := by
  have own : module.typeKey? type.token
      = some (SymbolKey.ofTypePath (pathSpace path) (path.map (·.name))).containingType := by
    rw [typeKey?, found]
    rfl
  obtain ⟨other, isFound, token⟩ :=
    Option.map_eq_some_iff.1 (resolve?_eq_some nesting names own)
  have isOther := (ascends_of_findType? nesting.listsOwn isFound).1
  obtain rfl := eq_of_token_eq isOther member token
  rw [nestedName, ← isFound, SymbolKey.typeName]
  simp only [SymbolKey.ofTypePath, List.map_map]
  rfl

end Module

end Assembly
end AssemblyAtlas
