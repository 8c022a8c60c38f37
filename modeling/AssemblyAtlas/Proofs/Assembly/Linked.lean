import AssemblyAtlas.Proofs.Assembly.Ascent
import AssemblyAtlas.Proofs.Assembly.Tables
import AssemblyAtlas.Proofs.Success

/-!
# Lists of nested types in modules that are built

A nested type may be made with a parent that is not there, or not yet. Then nobody lists it, and it
may have no path. But whatever a type does list stands in it, in every module that is built.

* `Builder.Linked` is what every operation keeps, and `Builder.Linked.performAll` is by induction on
  the operations;
* `Builder.listsOwn_build` is about the finished module.
-/

namespace AssemblyAtlas
namespace Assembly

namespace ListsOwn

variable {types : List TypeDefinition} {place : Nat} {old new : TypeDefinition}

/-- A type that changes is still there, in the same place. -/
theorem exists_mem_set
    (known : types[place]? = some old)
    (same : SamePlace new old)
    {type : TypeDefinition}
    (member : type ∈ types) :
    ∃ other ∈ types.set place new, SamePlace other type := by
  obtain ⟨front, back, rfl, changed⟩ := exists_set_eq known
  rw [changed]
  rcases List.mem_append.1 member with before | later
  · exact ⟨type, List.mem_append_left _ before, rfl, rfl⟩
  · rcases List.mem_cons.1 later with rfl | behind
    · exact ⟨new, List.mem_append_right _ List.mem_cons_self, same⟩
    · exact ⟨type, List.mem_append_right _ (List.mem_cons_of_mem _ behind), rfl, rfl⟩

/-- A type may come to list what stands in it. -/
theorem set
    (own : ListsOwn types)
    (known : types[place]? = some old)
    (same : SamePlace new old)
    (listed : ∀ token ∈ new.nested, token ∈ old.nested
      ∨ ∃ inner ∈ types, inner.token = token ∧ inner.enclosing = some old.token) :
    ListsOwn (types.set place new) := by
  -- Whatever stood in a type before still does.
  have still {outer : Token} {token : Token}
      (inside : ∃ inner ∈ types, inner.token = token ∧ inner.enclosing = some outer) :
      ∃ inner ∈ types.set place new, inner.token = token ∧ inner.enclosing = some outer := by
    obtain ⟨inner, isInner, rfl, around⟩ := inside
    obtain ⟨other, isOther, token, enclosing⟩ := exists_mem_set known same isInner
    exact ⟨other, isOther, token, enclosing.trans around⟩
  intro outer isOuter token isListed
  rcases List.mem_or_eq_of_mem_set isOuter with before | rfl
  · exact still (own outer before token isListed)
  · rw [same.token]
    rcases listed token isListed with before | anew
    · exact still (own old (List.mem_of_getElem? known) token before)
    · exact still anew

/-- A further type may list nothing yet. -/
theorem concat
    (own : ListsOwn types)
    (empty : new.nested = []) :
    ListsOwn (types ++ [new]) := by
  intro outer isOuter token listed
  rcases List.mem_append.1 isOuter with before | last
  · obtain ⟨inner, isInner, inside⟩ := own outer before token listed
    exact ⟨inner, List.mem_append_left _ isInner, inside⟩
  · rw [List.mem_singleton.1 last, empty] at listed
    cases listed

end ListsOwn

namespace Builder

/-- What every operation keeps, whatever parents it names. -/
structure Linked (builder : Builder) : Prop extends Numbered builder.types where
  own : ListsOwn builder.types

variable {builder next : Builder}

/-- A type is noted with a parent that is there, and with no other. -/
theorem noteNested_cases
    (builder : Builder)
    (parent token : Token) :
    builder.noteNested parent token = builder
      ∨ ∃ place old, builder.types[place]? = some old
          ∧ parent = .ofRow .typeDefinition (place + 1)
          ∧ builder.noteNested parent token
            = { builder with
                types := builder.types.set place { old with nested := old.nested ++ [token] } } := by
  cases placed : builder.place? parent with
  | none => exact .inl (by rw [noteNested, placed])
  | some place =>
      obtain ⟨inside, -, isParent⟩ := place?_eq_some placed
      have known := List.getElem?_eq_getElem inside
      exact .inr ⟨place, _, known, isParent, noteNested_of_place? placed known⟩

namespace Linked

theorem extend
    (linked : builder.Linked)
    {token : Token}
    {steps : List TypeStep}
    (extended : builder.extend token steps = .ok next) :
    next.Linked := by
  obtain ⟨place, type, -, known, rfl⟩ := extend_eq_ok_iff.1 extended
  have continues := TypeDraft.continues_foldl steps ⟨type, builder.rows⟩
  exact
    { linked.of_map_token (map_set_eq known continues.place.token) with
      own := linked.own.set known continues.place fun token listed =>
        .inl (continues.nested ▸ listed) }

/-- A further type that lists nothing keeps a builder linked. -/
theorem concat
    (linked : builder.Linked)
    (fits : builder.types.length + 1 < Token.rowLimit)
    {type : TypeDefinition}
    (token : type.token = builder.nextToken)
    (empty : type.nested = []) :
    { builder with types := builder.types ++ [type] }.Linked :=
  { linked.toNumbered.concat fits token with own := linked.own.concat empty }

/-- A type that stands in the parent may be noted there. -/
theorem noteNested
    (linked : builder.Linked)
    {parent : Token}
    {type : TypeDefinition}
    (member : type ∈ builder.types)
    (enclosing : type.enclosing = some parent) :
    (builder.noteNested parent type.token).Linked := by
  rcases builder.noteNested_cases parent type.token with same | ⟨place, old, known, isParent, same⟩
  · rwa [same]
  · rw [same]
    rw [← linked.token_at known] at isParent
    have numbered : Numbered (builder.types.set place
        { old with nested := old.nested ++ [type.token] }) :=
      linked.of_map_token (map_set_eq known rfl)
    refine { numbered with own := linked.own.set known ⟨rfl, rfl⟩ fun token listed => ?_ }
    rcases List.mem_append.1 listed with before | noted
    · exact .inl before
    · rw [List.mem_singleton.1 noted]
      exact .inr ⟨type, member, rfl, isParent ▸ enclosing⟩

/-- A further type may be noted with the parent that it names, if that is there. -/
theorem addNested
    (linked : builder.Linked)
    {parent : Token}
    {type : TypeDefinition}
    {steps : List TypeStep}
    (token : type.token = builder.nextToken)
    (enclosing : type.enclosing = some parent)
    (empty : type.nested = [])
    (stepped : ({ builder with types := builder.types ++ [type] }.noteNested parent
      builder.nextToken).extend builder.nextToken steps = .ok next) :
    next.Linked := by
  have fits : builder.types.length + 1 < Token.rowLimit := by
    rcases noteNested_cases { builder with types := builder.types ++ [type] } parent
      builder.nextToken with same | ⟨_, _, _, _, same⟩
    all_goals
      rw [same] at stepped
      exact linked.lt_rowLimit_of_extend stepped
  have member : type ∈ builder.types ++ [type] := List.mem_append_right _ List.mem_cons_self
  have noted := (linked.concat fits token empty).noteNested member enclosing
  rw [token] at noted
  exact noted.extend stepped

theorem step
    (linked : builder.Linked)
    {step : BuildStep}
    (stepped : builder.step step = .ok next) :
    next.Linked := by
  cases step with
  | addType space name steps =>
      have fits := linked.lt_rowLimit_of_extend stepped
      exact (linked.concat fits rfl rfl).extend stepped
  | addNested parent name steps => exact linked.addNested rfl rfl rfl stepped
  | extend token steps => exact linked.extend stepped
  | _ =>
      obtain rfl := Except.ok.inj stepped
      exact { linked with }

end Linked

theorem linked_new
    (name : String)
    (identity : Identity) :
    (new name identity).Linked :=
  { (sound_new name identity).toNumbered with
    own := by
      intro outer isOuter token listed
      rw [List.mem_singleton.1 isOuter] at listed
      cases listed }

theorem Linked.perform
    (linked : builder.Linked)
    {operation : Operation}
    (performed : builder.perform operation = .ok next) :
    next.Linked := by
  cases operation with
  | step step => exact linked.step performed
  | _ =>
      obtain rfl := Except.ok.inj performed
      exact { linked with }

/-- Whatever operations a builder performs, it stays linked. -/
theorem Linked.performAll
    (linked : builder.Linked)
    {operations : List Operation}
    (performed : builder.performAll operations = .ok next) :
    next.Linked := by
  induction operations generalizing builder with
  | nil =>
      obtain rfl := Except.ok.inj performed
      exact linked
  | cons operation rest ih =>
      obtain ⟨between, first, later⟩ := Success.bind_eq_ok_iff.1 performed
      exact ih (linked.perform first) later

/-- In a module that is built, whatever a type lists stands in it. -/
theorem listsOwn_build
    {name : String}
    {identity : Identity}
    {operations : List Operation}
    (performed : (new name identity).performAll operations = .ok builder) :
    ListsOwn builder.build.types.entries := by
  have linked := (linked_new name identity).performAll performed
  have entries : builder.build.types.entries = builder.types := linked.entries_ofList
  exact entries ▸ linked.own

end Builder

end Assembly
end AssemblyAtlas
