import AssemblyAtlas.Proofs.Assembly.Nesting

/-!
# Paths of types, whatever the module

The path of a type takes at most as many steps as there are types, and this is always enough: along
enclosing types that end at some type, no type comes twice. So paths can be put together step by
step, and where whatever a type lists stands in it, they lead down along the lists.

* `Module.Ascends` climbs without a limit, and `Module.typePath?_eq_some_iff` compares it with the
  climb that has one;
* `ListsOwn` is about the lists of nested types;
* `Module.exists_typePath?_of_findType?` says which path a type that is found by its name has.
-/

namespace AssemblyAtlas
namespace Assembly

open Text

/-- Whatever a type lists is there and stands in it. -/
def ListsOwn (types : List TypeDefinition) : Prop :=
  ∀ outer ∈ types, ∀ token ∈ outer.nested,
    ∃ inner ∈ types, inner.token = token ∧ inner.enclosing = some outer.token

namespace Module

/-- The types from the outermost one down to a type, however many there are. -/
inductive Ascends (module : Module) : TypeDefinition → List TypeDefinition → Prop
  | outermost {type : TypeDefinition} :
      type.enclosing = none →
      Ascends module type [type]
  | nested {type outer : TypeDefinition} {parent : Token} {path : List TypeDefinition} :
      type.enclosing = some parent →
      module.type? parent = some outer →
      Ascends module outer path →
      Ascends module type (path ++ [type])

variable {module : Module}

namespace Ascends

variable {type : TypeDefinition} {path : List TypeDefinition}

/-- There is one way up. -/
theorem unique
    (ascends : module.Ascends type path)
    {other : List TypeDefinition}
    (also : module.Ascends type other) :
    other = path := by
  induction ascends generalizing other with
  | outermost top =>
      cases also with
      | outermost _ => rfl
      | nested around => exact absurd (top.symm.trans around) (Option.some_ne_none _).symm
  | nested around known _ ih =>
      cases also with
      | outermost top => exact absurd (top.symm.trans around) (Option.some_ne_none _).symm
      | nested alsoAround alsoKnown above =>
          obtain rfl := Option.some.inj (around.symm.trans alsoAround)
          obtain rfl := Option.some.inj (known.symm.trans alsoKnown)
          rw [ih above]

/-- The way up is told from the outermost type on, so it ends with the type itself. -/
theorem exists_append (ascends : module.Ascends type path) :
    ∃ front, path = front ++ [type] := by
  cases ascends with
  | outermost _ => exact ⟨[], rfl⟩
  | nested _ _ _ => exact ⟨_, rfl⟩

theorem ne_nil (ascends : module.Ascends type path) :
    path ≠ [] := by
  obtain ⟨front, rfl⟩ := ascends.exists_append
  exact List.append_ne_nil_of_right_ne_nil front (List.cons_ne_nil type [])

/-- The way up has types of the module only. -/
theorem mem_entries
    (ascends : module.Ascends type path)
    (member : type ∈ module.types.entries) :
    ∀ other ∈ path, other ∈ module.types.entries := by
  induction ascends with
  | outermost _ => exact fun other isOther => List.mem_singleton.1 isOther ▸ member
  | nested _ known _ ih =>
      rw [List.forall_mem_append, List.forall_mem_singleton]
      exact ⟨ih (TypeTable.mem_of_find? known), member⟩

/-- From each type on the way up, the rest of the way is the way up from there. -/
theorem exists_prefix
    (ascends : module.Ascends type path)
    {other : TypeDefinition}
    (passed : other ∈ path) :
    ∃ start, start <+: path ∧ module.Ascends other start := by
  induction ascends with
  | outermost top =>
      obtain rfl := List.mem_singleton.1 passed
      exact ⟨_, List.prefix_rfl, .outermost top⟩
  | nested around known above ih =>
      rcases List.mem_append.1 passed with earlier | own
      · obtain ⟨start, begins, ascends⟩ := ih earlier
        exact ⟨start, begins.trans (List.prefix_append _ _), ascends⟩
      · obtain rfl := List.mem_singleton.1 own
        exact ⟨_, List.prefix_rfl, .nested around known above⟩

/-- No type comes twice. -/
theorem nodup_tokens
    (ascends : module.Ascends type path)
    (member : type ∈ module.types.entries) :
    (path.map (·.token)).Nodup := by
  induction ascends with
  | outermost _ => simp
  | @nested type outer parent path around known above ih =>
      have isOuter := TypeTable.mem_of_find? known
      rw [List.map_append, List.map_singleton, List.nodup_append]
      refine ⟨ih isOuter, List.nodup_singleton _, fun token earlier own isOwn same => ?_⟩
      obtain ⟨other, passed, rfl⟩ := List.mem_map.1 earlier
      rw [List.mem_singleton.1 isOwn] at same
      obtain rfl := eq_of_token_eq (above.mem_entries isOuter other passed) member same
      -- The type would stand above itself, so its way up would be shorter than itself.
      obtain ⟨start, begins, ascends⟩ := above.exists_prefix passed
      have whole := ascends.unique (.nested around known above)
      have shorter := begins.length_le
      rw [← whole, List.length_append, List.length_singleton] at shorter
      omega

theorem length_le_size
    (ascends : module.Ascends type path)
    (member : type ∈ module.types.entries) :
    path.length ≤ module.types.size := by
  rw [← List.length_map (·.token)]
  refine Module.length_le_size (ascends.nodup_tokens member) fun token isToken => ?_
  obtain ⟨other, passed, rfl⟩ := List.mem_map.1 isToken
  rw [type?_token (ascends.mem_entries member other passed)]
  rfl

/-- With enough steps the climb that has a limit finds the way up. -/
theorem ascend_eq
    (ascends : module.Ascends type path)
    {steps : Nat}
    (enough : path.length ≤ steps) :
    module.ascend steps type = some path := by
  induction ascends generalizing steps with
  | outermost top =>
      obtain ⟨fewer, rfl⟩ : ∃ fewer, steps = fewer + 1 := Nat.exists_eq_add_one.2 enough
      rw [ascend, top]
  | nested around known _ ih =>
      rw [List.length_append, List.length_singleton] at enough
      obtain ⟨fewer, rfl⟩ : ∃ fewer, steps = fewer + 1 :=
        Nat.exists_eq_add_one.2 (Nat.lt_of_lt_of_le (Nat.succ_pos _) enough)
      rw [ascend, around]
      simp only [known, Option.bind_some, ih (Nat.le_of_succ_le_succ enough), Option.map_some]

end Ascends

/-- What the climb with a limit finds is the way up. -/
theorem ascends_of_ascend
    {steps : Nat}
    {type : TypeDefinition}
    {path : List TypeDefinition}
    (ascended : module.ascend steps type = some path) :
    module.Ascends type path := by
  induction steps generalizing type path with
  | zero => simp [ascend] at ascended
  | succ steps ih =>
      rw [ascend] at ascended
      split at ascended
      · next top =>
          obtain rfl := Option.some.inj ascended
          exact .outermost top
      · next parent around =>
          obtain ⟨start, climbed, rfl⟩ := Option.map_eq_some_iff.1 ascended
          obtain ⟨outer, known, climbed⟩ := Option.bind_eq_some_iff.1 climbed
          exact .nested around known (ih climbed)

/-- The limit of steps keeps no type from its path. -/
theorem typePath?_eq_some_iff
    {token : Token}
    {path : List TypeDefinition} :
    module.typePath? token = some path
      ↔ ∃ type, module.type? token = some type ∧ module.Ascends type path := by
  rw [typePath?, Option.bind_eq_some_iff]
  refine exists_congr fun type => and_congr_right fun known => ⟨ascends_of_ascend, fun ascends => ?_⟩
  exact ascends.ascend_eq (ascends.length_le_size (TypeTable.mem_of_find? known))

/-! ## Down along the lists -/

@[simp] theorem pathSpace_append
    {path : List TypeDefinition}
    (some_type : path ≠ [])
    (below : List TypeDefinition) :
    pathSpace (path ++ below) = pathSpace path := by
  obtain ⟨outer, rest, rfl⟩ := List.exists_cons_of_ne_nil some_type
  rfl

/-- A listed type has the path of the type that lists it, and itself at the end. -/
theorem Ascends.listed
    (own : ListsOwn module.types.entries)
    {outer inner : TypeDefinition}
    {path : List TypeDefinition}
    (isOuter : outer ∈ module.types.entries)
    (ascends : module.Ascends outer path)
    {token : Token}
    (listed : token ∈ outer.nested)
    (known : module.type? token = some inner) :
    module.Ascends inner (path ++ [inner]) := by
  obtain ⟨other, isOther, token, around⟩ := own outer isOuter token listed
  rw [← token, type?_token isOther] at known
  obtain rfl := Option.some.inj known
  exact .nested around (type?_token isOuter) ascends

/-- Going down along names leads to a type with these names at the end of its path. -/
theorem exists_ascends_of_descend?
    (own : ListsOwn module.types.entries)
    {names : List String}
    {outer type : TypeDefinition}
    {path : List TypeDefinition}
    (isOuter : outer ∈ module.types.entries)
    (ascends : module.Ascends outer path)
    (found : module.descend? outer names = some type) :
    type ∈ module.types.entries
      ∧ ∃ below, module.Ascends type (path ++ below) ∧ below.map (·.name) = names := by
  induction names generalizing outer path with
  | nil =>
      obtain rfl := Option.some.inj found
      exact ⟨isOuter, [], by rwa [List.append_nil], rfl⟩
  | cons name names ih =>
      obtain ⟨inner, first, found⟩ := Option.bind_eq_some_iff.1 found
      rw [nestedNamed?] at first
      have named : inner.name = name := of_decide_eq_true (List.find?_some first :)
      obtain ⟨token, listed, known⟩ := List.mem_filterMap.1 (List.mem_of_find?_eq_some first)
      have isInner := TypeTable.mem_of_find? known
      have climbs := ascends.listed own isOuter listed known
      obtain ⟨member, below, ascends, rfl⟩ := ih isInner climbs found
      refine ⟨member, inner :: below, ?_, ?_⟩
      · rwa [List.append_assoc] at ascends
      · rw [List.map_cons, named]

/-- A type that is found by a namespace and a name is there, and has them on its way up. -/
theorem ascends_of_findType?
    (own : ListsOwn module.types.entries)
    {space name : String}
    {type : TypeDefinition}
    (found : module.findType? space name = some type) :
    type ∈ module.types.entries
      ∧ ∃ path, module.Ascends type path
        ∧ pathSpace path = space
        ∧ path.map (·.name.toList) = pieces '+' name.toList := by
  have parts : (pieces '+' name.toList) = ((pieces '+' name.toList).map String.ofList).map
      String.toList := by
    simp
  rw [findType?] at found
  split at found
  · cases found
  · next first rest isName =>
      obtain ⟨outer, top, descended⟩ := Option.bind_eq_some_iff.1 found
      have isOuter := List.mem_of_find?_eq_some top
      have fits := List.find?_some top
      simp only [TypeDefinition.isNested, Bool.and_eq_true, Bool.not_eq_true', beq_iff_eq,
        Option.isSome_eq_false_iff, Option.isNone_iff_eq_none] at fits
      obtain ⟨⟨outermost, rfl⟩, rfl⟩ := fits
      obtain ⟨member, below, ascends, rfl⟩ :=
        exists_ascends_of_descend? own isOuter (.outermost outermost) descended
      refine ⟨member, outer :: below, ascends, rfl, ?_⟩
      rw [parts, isName, List.map_cons, List.map_cons, List.map_map]
      rfl

/-- A type that is found by a namespace and a name has them in its path. -/
theorem exists_typePath?_of_findType?
    (own : ListsOwn module.types.entries)
    {space name : String}
    {type : TypeDefinition}
    (found : module.findType? space name = some type) :
    ∃ path, module.typePath? type.token = some path
      ∧ pathSpace path = space
      ∧ path.map (·.name.toList) = pieces '+' name.toList := by
  obtain ⟨member, path, ascends, space, names⟩ := ascends_of_findType? own found
  exact ⟨path, typePath?_eq_some_iff.2 ⟨type, type?_token member, ascends⟩, space, names⟩

end Module
end Assembly
end AssemblyAtlas
