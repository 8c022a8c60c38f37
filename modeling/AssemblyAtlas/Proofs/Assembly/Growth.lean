import AssemblyAtlas.Proofs.Assembly.Nesting
import AssemblyAtlas.Proofs.Assembly.Rows

/-!
# Well-nested types that grow

Types stay well nested while one of them changes in its place, and when a further one comes behind
them, with or without a type around it.
-/

namespace AssemblyAtlas
namespace Assembly

/-- Both are the same type, in the same type. -/
structure SamePlace (left right : TypeDefinition) : Prop where
  token : left.token = right.token
  enclosing : left.enclosing = right.enclosing

section Lists

variable {types : List TypeDefinition} {place : Nat} {old new : TypeDefinition}

namespace EnclosedBefore

/-- Nobody stands in a type that is not there. -/
theorem standingIn_eq_nil
    (before : EnclosedBefore types)
    {token : Token}
    (fresh : token ∉ types.map (·.token)) :
    standingIn types token = [] := by
  refine List.filter_eq_nil_iff.2 fun type member around => ?_
  obtain ⟨i, at_i⟩ := List.mem_iff_getElem?.1 member
  obtain ⟨j, outer, -, at_j, same⟩ := before i type token at_i (of_decide_eq_true around)
  exact fresh (same ▸ List.mem_map_of_mem (List.mem_of_getElem? at_j))

theorem set
    (before : EnclosedBefore types)
    (known : types[place]? = some old)
    (same : SamePlace new old) :
    EnclosedBefore (types.set place new) := by
  intro i type parent at_i enclosing
  have inside : place < types.length := (List.getElem?_eq_some_iff.1 known).1
  have at_place : (types.set place new)[place]? = some new := List.getElem?_set_self inside
  -- What was at the index stands in the same type as what is there now.
  obtain ⟨was, was_at_i, unchanged⟩ :
      ∃ was, types[i]? = some was ∧ was.enclosing = some parent := by
    by_cases here : place = i
    · subst here
      obtain rfl : new = type := Option.some.inj (at_place.symm.trans at_i)
      exact ⟨old, known, same.enclosing.symm.trans enclosing⟩
    · rw [List.getElem?_set_ne here] at at_i
      exact ⟨type, at_i, enclosing⟩
  obtain ⟨j, outer, earlier, at_j, rfl⟩ := before i was parent was_at_i unchanged
  by_cases here : place = j
  · subst here
    obtain rfl : old = outer := Option.some.inj (known.symm.trans at_j)
    exact ⟨place, new, earlier, at_place, same.token⟩
  · exact ⟨j, outer, earlier, (List.getElem?_set_ne here).trans at_j, rfl⟩

theorem concat
    (before : EnclosedBefore types)
    (own : ∀ parent, new.enclosing = some parent → parent ∈ types.map (·.token)) :
    EnclosedBefore (types ++ [new]) := by
  intro i type parent at_i enclosing
  rcases Nat.lt_or_ge i types.length with inside | behind
  · rw [List.getElem?_append_left inside] at at_i
    obtain ⟨j, outer, earlier, at_j, same⟩ := before i type parent at_i enclosing
    refine ⟨j, outer, earlier, ?_, same⟩
    rwa [List.getElem?_append_left (Nat.lt_trans earlier inside)]
  · rw [List.getElem?_append_right behind] at at_i
    obtain rfl : type = new := by
      simpa using List.mem_of_getElem? at_i
    obtain ⟨outer, isOuter, same⟩ := List.mem_map.1 (own parent enclosing)
    obtain ⟨j, at_j⟩ := List.mem_iff_getElem?.1 isOuter
    have inside : j < types.length := (List.getElem?_eq_some_iff.1 at_j).1
    refine ⟨j, outer, Nat.lt_of_lt_of_le inside behind, ?_, same⟩
    rwa [List.getElem?_append_left inside]

end EnclosedBefore

/-- Where one of several types is changed, the others have other tokens. -/
theorem mem_set
    (distinct : (types.map (·.token)).Nodup)
    (known : types[place]? = some old)
    {type : TypeDefinition}
    (member : type ∈ types.set place new) :
    type = new ∨ type ∈ types ∧ type.token ≠ old.token := by
  obtain ⟨front, back, rfl, changed⟩ := exists_set_eq known
  rw [List.map_append, List.map_cons, List.nodup_middle, List.nodup_cons, ← List.map_append]
    at distinct
  rw [changed, List.mem_append, List.mem_cons] at member
  have other (isOther : type ∈ front ++ back) :
      type = new ∨ type ∈ front ++ old :: back ∧ type.token ≠ old.token := by
    refine Or.inr ⟨?_, fun same => distinct.1 (same ▸ List.mem_map_of_mem isOther)⟩
    simp only [List.mem_append, List.mem_cons] at isOther ⊢
    tauto
  rcases member with before | rfl | behind
  · exact other (List.mem_append_left back before)
  · exact Or.inl rfl
  · exact other (List.mem_append_right front behind)

/-- The types that stand in one keep their tokens when a type changes. -/
theorem map_standingIn_set
    (known : types[place]? = some old)
    (same : SamePlace new old)
    (outer : Token) :
    (standingIn (types.set place new) outer).map (·.token)
      = (standingIn types outer).map (·.token) := by
  obtain ⟨front, back, rfl, changed⟩ := exists_set_eq known
  simp only [changed, standingIn, List.filter_append, List.filter_cons, same.enclosing]
  split <;> simp [same.token]

/-- Of further types those count that stand in the type. -/
theorem map_standingIn_concat
    (types : List TypeDefinition)
    (new : TypeDefinition)
    (outer : Token) :
    (standingIn (types ++ [new]) outer).map (·.token)
      = (standingIn types outer).map (·.token)
        ++ if new.enclosing = some outer then [new.token] else [] := by
  rw [standingIn, List.filter_append, List.map_append, List.filter_singleton]
  by_cases here : new.enclosing = some outer <;> simp [here, standingIn]

namespace WellNested

/-- Where a type changes but for what nesting is about, the types stay well nested. -/
theorem set
    (nesting : WellNested types)
    (known : types[place]? = some old)
    (same : SamePlace new old)
    (nested : new.nested = old.nested) :
    WellNested (types.set place new) where
  around := nesting.around.set known same
  inside := by
    intro type member
    rw [map_standingIn_set known same]
    rcases List.mem_or_eq_of_mem_set member with before | rfl
    · exact nesting.inside type before
    · rw [nested, same.token]
      exact nesting.inside old (List.mem_of_getElem? known)

/-- A further type may stand in none. -/
theorem concat
    (nesting : WellNested types)
    (fresh : new.token ∉ types.map (·.token))
    (outermost : new.enclosing = none)
    (empty : new.nested = []) :
    WellNested (types ++ [new]) where
  around := nesting.around.concat fun parent enclosing => by
    rw [outermost] at enclosing
    exact absurd enclosing (Option.some_ne_none parent).symm
  inside := by
    intro type member
    have elsewhere : new.enclosing ≠ some type.token := by
      rw [outermost]
      exact (Option.some_ne_none _).symm
    rw [map_standingIn_concat, if_neg elsewhere, List.append_nil]
    rcases List.mem_append.1 member with before | own
    · exact nesting.inside type before
    · obtain rfl := List.mem_singleton.1 own
      rw [empty, nesting.around.standingIn_eq_nil fresh, List.map_nil]

/-- A further type may stand in one that lists it then. -/
theorem concat_nested
    (nesting : WellNested types)
    (distinct : (types.map (·.token)).Nodup)
    {token : Token}
    (own : new.token = token)
    (fresh : token ∉ types.map (·.token))
    (known : types[place]? = some old)
    (enclosing : new.enclosing = some old.token)
    (empty : new.nested = []) :
    WellNested (types.set place { old with nested := old.nested ++ [token] } ++ [new]) := by
  have same : SamePlace { old with nested := old.nested ++ [token] } old := ⟨rfl, rfl⟩
  have isOld : old ∈ types := List.mem_of_getElem? known
  have tokens : (types.set place { old with nested := old.nested ++ [token] }).map (·.token)
      = types.map (·.token) :=
    map_set_eq known rfl
  constructor
  · refine (nesting.around.set known same).concat fun parent around => ?_
    obtain rfl : old.token = parent := Option.some.inj (enclosing.symm.trans around)
    rw [tokens]
    exact List.mem_map_of_mem isOld
  · intro type member
    rw [map_standingIn_concat, map_standingIn_set known same, enclosing, own]
    rcases List.mem_append.1 member with before | isNew
    · rcases mem_set distinct known before with rfl | ⟨isOther, apart⟩
      · rw [if_pos rfl, ← nesting.inside old isOld]
      · rw [if_neg fun equal => apart (Option.some.inj equal).symm, List.append_nil]
        exact nesting.inside type isOther
    · obtain rfl := List.mem_singleton.1 isNew
      have apart : some old.token ≠ some type.token := fun equal =>
        fresh (own ▸ Option.some.inj equal ▸ List.mem_map_of_mem isOld)
      rw [if_neg apart, empty, nesting.around.standingIn_eq_nil (own ▸ fresh)]
      rfl

end WellNested

end Lists

end Assembly
end AssemblyAtlas
