import AssemblyAtlas.Proofs.Assembly.Lookup
import AssemblyAtlas.Proofs.Text.Joined

/-!
# Nested types

In a well-nested list of types, a type that stands in another comes behind it, and each type lists
those that stand in it. In a module with such a list every type has a path, and where the names of
types tell them apart, the key of a type leads back to it.

* `WellNested` is about lists of types, `Module.NamesDistinct` about names;
* `Module.exists_typePath?` climbs to the outermost type and `Module.resolve?_eq_some` comes down
  from there.
-/

namespace AssemblyAtlas
namespace Assembly

open Text

/-- The types that stand in the one with a token. -/
def standingIn (types : List TypeDefinition) (outer : Token) : List TypeDefinition :=
  types.filter (·.enclosing = some outer)

/-- A type that stands in another comes behind it. -/
def EnclosedBefore (types : List TypeDefinition) : Prop :=
  ∀ (i : Nat) (type : TypeDefinition) (parent : Token),
    types[i]? = some type → type.enclosing = some parent →
      ∃ (j : Nat) (outer : TypeDefinition), j < i ∧ types[j]? = some outer ∧ outer.token = parent

/-- A type that stands in another comes behind it, and each type lists those that stand in it, in
their order. -/
structure WellNested (types : List TypeDefinition) : Prop where
  around : EnclosedBefore types
  inside : ∀ type ∈ types,
    type.nested = (standingIn types type.token).map (·.token)

/-- What is the only element with a property is found by it. -/
theorem find?_eq_some_of_unique
    {α : Type}
    {elements : List α}
    {fits : α → Bool}
    {element : α}
    (member : element ∈ elements)
    (fit : fits element = true)
    (unique : ∀ other ∈ elements, fits other = true → other = element) :
    elements.find? fits = some element := by
  have present : (elements.find? fits).isSome := List.find?_isSome.2 ⟨element, member, fit⟩
  obtain ⟨other, found⟩ := Option.isSome_iff_exists.1 present
  have same := unique other (List.mem_of_find?_eq_some found) (List.find?_some found)
  rw [found, same]

namespace Module

variable {module : Module}

/-- No type has a plus sign in its name. Types in one type, and types in one namespace that stand in
none, have different names. -/
structure NamesDistinct (module : Module) : Prop where
  plain : ∀ type ∈ module.types.entries, '+' ∉ type.name.toList
  unique : ∀ left ∈ module.types.entries, ∀ right ∈ module.types.entries,
    left.enclosing = right.enclosing → (left.enclosing = none → left.space = right.space) →
      left.name = right.name → left.token = right.token

theorem type?_token
    {type : TypeDefinition}
    (member : type ∈ module.types.entries) :
    module.type? type.token = some type :=
  TypeTable.find?_token member

/-- Types of a module with the same token are the same. -/
theorem eq_of_token_eq
    {left right : TypeDefinition}
    (isLeft : left ∈ module.types.entries)
    (isRight : right ∈ module.types.entries)
    (same : left.token = right.token) :
    left = right :=
  Option.some.inj ((type?_token isLeft).symm.trans (same ▸ type?_token isRight))

/-- The tokens of some types lead back to them. -/
theorem filterMap_type?
    {types : List TypeDefinition}
    (members : ∀ type ∈ types, type ∈ module.types.entries) :
    (types.map (·.token)).filterMap module.type? = types := by
  induction types with
  | nil => rfl
  | cons type rest ih =>
      have known := type?_token (members type List.mem_cons_self)
      have later := ih fun other isOther => members other (List.mem_cons_of_mem type isOther)
      rw [List.map_cons, List.filterMap_cons_some known, later]

/-- The definitions of the nested types are the types that stand in the type. -/
theorem filterMap_nested
    (nesting : WellNested module.types.entries)
    {type : TypeDefinition}
    (member : type ∈ module.types.entries) :
    type.nested.filterMap module.type? = standingIn module.types.entries type.token := by
  rw [nesting.inside type member]
  exact filterMap_type? fun _ inside => (List.mem_filter.1 inside).1

/-- A type that stands in another has a greater index. -/
theorem exists_index_of_standingIn
    (nesting : WellNested module.types.entries)
    {i : Nat}
    {type inner : TypeDefinition}
    (at_i : module.types.entries[i]? = some type)
    (isInner : inner ∈ standingIn module.types.entries type.token) :
    ∃ k, i < k ∧ module.types.entries[k]? = some inner := by
  obtain ⟨member, enclosing⟩ := List.mem_filter.1 isInner
  obtain ⟨k, at_k⟩ := List.mem_iff_getElem?.1 member
  obtain ⟨j, outer, before, at_j, same⟩ :=
    nesting.around k inner type.token at_k (of_decide_eq_true enclosing)
  have tokens : (module.types.entries.map (·.token))[j]?
      = (module.types.entries.map (·.token))[i]? := by
    rw [List.getElem?_map, List.getElem?_map, at_i, at_j, Option.map_some, Option.map_some, same]
  have inside : j < (module.types.entries.map (·.token)).length := by
    rw [List.length_map]
    exact (List.getElem?_eq_some_iff.1 at_j).1
  obtain rfl : j = i := (List.getElem?_inj inside module.types.nodup_tokens).1 tokens
  exact ⟨k, before, at_k⟩

/-! ## Up -/

/-- Climbing from the type at an index takes at most so many steps. -/
theorem exists_ascend
    (nesting : WellNested module.types.entries)
    {steps i : Nat}
    {type : TypeDefinition}
    (at_i : module.types.entries[i]? = some type)
    (enough : i < steps) :
    ∃ path, module.ascend steps type = some path := by
  induction steps generalizing i type with
  | zero => omega
  | succ steps ih =>
      rw [ascend]
      cases enclosing : type.enclosing with
      | none => exact ⟨[type], rfl⟩
      | some parent =>
          obtain ⟨j, outer, before, at_j, rfl⟩ := nesting.around i type parent at_i enclosing
          obtain ⟨path, ascended⟩ := ih at_j (by omega)
          refine ⟨path ++ [type], ?_⟩
          rw [Option.map_eq_some_iff]
          refine ⟨path, ?_, rfl⟩
          rw [type?_token (List.mem_of_getElem? at_j)]
          exact ascended

/-- Every type of a well-nested module has a path. -/
theorem exists_typePath?
    (nesting : WellNested module.types.entries)
    {type : TypeDefinition}
    (member : type ∈ module.types.entries) :
    ∃ path, module.typePath? type.token = some path := by
  obtain ⟨i, at_i⟩ := List.mem_iff_getElem?.1 member
  have inside : i < module.types.size := (List.getElem?_eq_some_iff.1 at_i).1
  rw [typePath?, type?_token member]
  exact exists_ascend nesting at_i inside

/-- More steps find the same path. -/
theorem ascend_of_le
    {steps more : Nat}
    {type : TypeDefinition}
    {path : List TypeDefinition}
    (ascended : module.ascend steps type = some path)
    (enough : steps ≤ more) :
    module.ascend more type = some path := by
  induction steps generalizing more type path with
  | zero => simp [ascend] at ascended
  | succ steps ih =>
      obtain ⟨further, rfl⟩ : ∃ further, more = further + 1 := ⟨more - 1, by omega⟩
      rw [ascend] at ascended ⊢
      split at ascended
      · exact ascended
      · obtain ⟨start, climbed, rfl⟩ := Option.map_eq_some_iff.1 ascended
        obtain ⟨outer, known, climbed⟩ := Option.bind_eq_some_iff.1 climbed
        rw [known, Option.bind_some, ih climbed (by omega), Option.map_some]

/-- The path of a nested type is that of the type around it and the type itself. -/
theorem typePath?_of_standingIn
    (nesting : WellNested module.types.entries)
    {token : Token}
    {inner : TypeDefinition}
    {path : List TypeDefinition}
    (found : module.typePath? token = some path)
    (isInner : inner ∈ standingIn module.types.entries token) :
    module.typePath? inner.token = some (path ++ [inner]) := by
  obtain ⟨type, known, ascended⟩ := Option.bind_eq_some_iff.1 found
  obtain ⟨i, at_i⟩ := List.mem_iff_getElem?.1 (TypeTable.mem_of_find? known)
  have own : type.token = token := TypeTable.token_of_find? known
  obtain ⟨k, behind, at_k⟩ := exists_index_of_standingIn nesting at_i (own ▸ isInner)
  have inside : k < module.types.size := (List.getElem?_eq_some_iff.1 at_k).1
  obtain ⟨isEntry, enclosing⟩ := List.mem_filter.1 isInner
  obtain ⟨steps, size⟩ : ∃ steps, module.types.size = steps + 1 := ⟨module.types.size - 1, by omega⟩
  -- The type around stands before the nested one, so one step less reaches its path too.
  obtain ⟨same, climbed⟩ := exists_ascend nesting at_i (show i < steps by omega)
  rw [size, ascend_of_le climbed (Nat.le_succ steps)] at ascended
  obtain rfl := Option.some.inj ascended
  rw [typePath?, type?_token isEntry, Option.bind_some, size, ascend, of_decide_eq_true enclosing]
  simp only [known, Option.bind_some, climbed, Option.map_some]

/-- A path has types of the module only. -/
theorem mem_of_mem_ascend
    {steps : Nat}
    {type : TypeDefinition}
    {path : List TypeDefinition}
    (member : type ∈ module.types.entries)
    (ascended : module.ascend steps type = some path) :
    ∀ other ∈ path, other ∈ module.types.entries := by
  induction steps generalizing type path with
  | zero => simp [ascend] at ascended
  | succ steps ih =>
      rw [ascend] at ascended
      split at ascended
      · obtain rfl := Option.some.inj ascended
        intro other isOther
        rwa [List.mem_singleton.1 isOther]
      · obtain ⟨start, climbed, rfl⟩ := Option.map_eq_some_iff.1 ascended
        obtain ⟨outer, known, climbed⟩ := Option.bind_eq_some_iff.1 climbed
        intro other isOther
        rcases List.mem_append.1 isOther with above | own
        · exact ih (TypeTable.mem_of_find? known) climbed other above
        · rwa [List.mem_singleton.1 own]

/-! ## Down -/

/-- Going down along names and one more is going down along them, and then one step more. -/
theorem descend?_concat
    (names : List String)
    (name : String)
    (type : TypeDefinition) :
    module.descend? type (names ++ [name])
      = (module.descend? type names).bind (module.nestedNamed? · name) := by
  induction names generalizing type with
  | nil =>
      rw [List.nil_append, descend?, descend?, Option.bind_some]
      cases module.nestedNamed? type name <;> rfl
  | cons first rest ih =>
      rw [List.cons_append, descend?, descend?, Option.bind_assoc]
      exact congrArg _ (funext ih)

/-- A type with a name of its own is found in the type around it. -/
theorem nestedNamed?_eq_some
    (nesting : WellNested module.types.entries)
    (names : module.NamesDistinct)
    {outer type : TypeDefinition}
    (isOuter : outer ∈ module.types.entries)
    (member : type ∈ module.types.entries)
    (enclosing : type.enclosing = some outer.token) :
    module.nestedNamed? outer type.name = some type := by
  rw [nestedNamed?, filterMap_nested nesting isOuter]
  refine find?_eq_some_of_unique (List.mem_filter.2 ⟨member, decide_eq_true enclosing⟩)
    (decide_eq_true rfl) fun other inside named => ?_
  obtain ⟨isOther, around⟩ := List.mem_filter.1 inside
  have same : other.enclosing = type.enclosing := (of_decide_eq_true around).trans enclosing.symm
  have token : other.token = type.token := by
    refine names.unique other isOther type member same ?_ (of_decide_eq_true named)
    intro outermost
    rw [of_decide_eq_true around] at outermost
    exact absurd outermost (Option.some_ne_none _)
  exact eq_of_token_eq isOther member token

/-- A type that stands in none is found by its namespace and its name. -/
theorem topLevelNamed?_eq_some
    (names : module.NamesDistinct)
    {type : TypeDefinition}
    (member : type ∈ module.types.entries)
    (outermost : type.enclosing = none) :
    module.topLevelNamed? type.space type.name = some type := by
  refine find?_eq_some_of_unique member (by simp [TypeDefinition.isNested, outermost]) ?_
  intro other isOther fits
  simp only [TypeDefinition.isNested, Bool.and_eq_true, Bool.not_eq_true',
    Option.isSome_eq_false_iff, Option.isNone_iff_eq_none, beq_iff_eq] at fits
  obtain ⟨⟨alsoOutermost, space⟩, name⟩ := fits
  have token := names.unique other isOther type member (alsoOutermost.trans outermost.symm)
    (fun _ => space) name
  exact eq_of_token_eq isOther member token

/-- A path leads down from its outermost type to its innermost one. -/
theorem descend?_of_ascend
    (nesting : WellNested module.types.entries)
    (names : module.NamesDistinct)
    {steps : Nat}
    {type : TypeDefinition}
    {path : List TypeDefinition}
    (member : type ∈ module.types.entries)
    (ascended : module.ascend steps type = some path) :
    ∃ outer rest, path = outer :: rest
      ∧ module.topLevelNamed? outer.space outer.name = some outer
      ∧ module.descend? outer (rest.map (·.name)) = some type := by
  induction steps generalizing type path with
  | zero => simp [ascend] at ascended
  | succ steps ih =>
      rw [ascend] at ascended
      split at ascended
      · next outermost =>
          obtain rfl := Option.some.inj ascended
          exact ⟨type, [], rfl, topLevelNamed?_eq_some names member outermost, rfl⟩
      · next parent enclosing =>
          obtain ⟨start, climbed, rfl⟩ := Option.map_eq_some_iff.1 ascended
          obtain ⟨inner, known, climbed⟩ := Option.bind_eq_some_iff.1 climbed
          have isInner := TypeTable.mem_of_find? known
          rw [← TypeTable.token_of_find? known] at enclosing
          obtain ⟨outer, rest, rfl, found, descended⟩ := ih isInner climbed
          refine ⟨outer, rest ++ [type], rfl, found, ?_⟩
          rw [List.map_append, List.map_singleton, descend?_concat, descended]
          exact nestedNamed?_eq_some nesting names isInner member enclosing

/-- Where names tell types apart, the key of a type, and that of a member of it, leads back to the
type. -/
theorem resolve?_eq_some
    (nesting : WellNested module.types.entries)
    (names : module.NamesDistinct)
    {token : Token}
    {key : SymbolKey}
    (own : module.typeKey? token = some key.containingType) :
    module.resolve? key = some token := by
  obtain ⟨path, found, keyed⟩ := Option.map_eq_some_iff.1 own
  obtain ⟨type, known, ascended⟩ := Option.bind_eq_some_iff.1 found
  have member := TypeTable.mem_of_find? known
  obtain ⟨outer, rest, rfl, top, descended⟩ := descend?_of_ascend nesting names member ascended
  have parts := congrArg SymbolKey.typePath keyed
  have space := congrArg SymbolKey.space keyed
  change (outer :: rest).map (·.name) = key.typePath at parts
  change outer.space = key.space at space
  have plain : ∀ part ∈ (key.typePath.map String.toList), '+' ∉ part := by
    rw [← parts]
    intro part isPart
    simp only [List.map_map, List.mem_map, Function.comp_apply] at isPart
    obtain ⟨other, isOther, rfl⟩ := isPart
    exact names.plain other (mem_of_mem_ascend member ascended other isOther)
  have pieces : (pieces '+' key.typeName.toList).map String.ofList = key.typePath := by
    rw [SymbolKey.typeName, String.toList_ofList, pieces_join (by simp [← parts]) plain,
      List.map_map]
    simp
  rw [resolve?, findType?, pieces, ← parts, ← space]
  simp [top, descended, TypeTable.token_of_find? known]

end Module

end Assembly
end AssemblyAtlas
