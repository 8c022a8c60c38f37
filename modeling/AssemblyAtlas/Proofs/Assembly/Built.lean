import AssemblyAtlas.Assembly.Builder
import AssemblyAtlas.Proofs.Assembly.Growth
import Mathlib.Data.List.Induction

/-!
# Modules that are built

A builder hands out rows in turn and puts each nested type behind the type around it. So the module
that it makes is well nested, and as long as rows fit into tokens no two members of a table have the
same one.

* `TypeDraft.Continues` is what steps in making a type do, and `Builder.Sound` is what every step in
  making a module keeps; `Builder.Numbered` is the part of it that no parent can break;
* `Builder.Made` are the builders that come about by steps, and `Builder.Made.sound` is by induction
  on these;
* `Builder.Sound.entries_build` and `Builder.Sound.nesting_build` are about the finished module.
-/

namespace AssemblyAtlas
namespace Assembly

/-! ## Steps in making a type -/

namespace TypeDefinition

/-- The tokens of the fields. -/
def fieldTokens (type : TypeDefinition) : List Token :=
  type.fields.map (·.token)

/-- The tokens of the methods. -/
def methodTokens (type : TypeDefinition) : List Token :=
  type.methods.map (·.token)

/-- The tokens of the properties. -/
def propertyTokens (type : TypeDefinition) : List Token :=
  type.properties.map (·.token)

/-- The tokens of the events. -/
def eventTokens (type : TypeDefinition) : List Token :=
  type.events.map (·.token)

/-- The tokens by which properties and events refer to their accessors. -/
def accessorTokens (type : TypeDefinition) : List Token :=
  type.properties.flatMap (fun property => property.getter.toList ++ property.setter.toList)
    ++ type.events.flatMap (fun event => event.adder.toList ++ event.remover.toList)

/-- The type without its list of nested types. -/
def alone (type : TypeDefinition) : TypeDefinition :=
  { type with nested := [] }

/-- Types that differ in their lists of nested types only agree in every other part. -/
theorem map_eq_of_alone
    {β : Type}
    {types others : List TypeDefinition}
    (same : types.map (·.alone) = others.map (·.alone))
    {part : TypeDefinition → β}
    (apart : ∀ type, part type.alone = part type) :
    types.map part = others.map part := by
  have parts := congrArg (List.map part) same
  simpa only [List.map_map, Function.comp_def, apart] using parts

end TypeDefinition

namespace TypeDraft

/-- The type stays where it is, and its members get the next rows. Its properties and events refer to
its own methods. -/
structure Continues (before after : TypeDraft) : Prop where
  place : SamePlace after.type before.type
  nested : after.type.nested = before.type.nested
  fields : Appends .field before.rows.field after.rows.field
    before.type.fieldTokens after.type.fieldTokens
  methods : Appends .method before.rows.method after.rows.method
    before.type.methodTokens after.type.methodTokens
  properties : Appends .property before.rows.property after.rows.property
    before.type.propertyTokens after.type.propertyTokens
  events : Appends .event before.rows.event after.rows.event
    before.type.eventTokens after.type.eventTokens
  accessors : ∀ token ∈ after.type.accessorTokens,
    token ∈ before.type.accessorTokens ∨ token ∈ after.type.methodTokens

namespace Continues

theorem refl (draft : TypeDraft) :
    draft.Continues draft :=
  ⟨⟨rfl, rfl⟩, rfl, .refl _ _ _, .refl _ _ _, .refl _ _ _, .refl _ _ _, fun _ => Or.inl⟩

theorem trans
    {before between after : TypeDraft}
    (earlier : before.Continues between)
    (later : between.Continues after) :
    before.Continues after where
  place :=
    ⟨later.place.token.trans earlier.place.token,
      later.place.enclosing.trans earlier.place.enclosing⟩
  nested := later.nested.trans earlier.nested
  fields := earlier.fields.trans later.fields
  methods := earlier.methods.trans later.methods
  properties := earlier.properties.trans later.properties
  events := earlier.events.trans later.events
  accessors := by
    intro token member
    rcases later.accessors token member with between | own
    · exact (earlier.accessors token between).imp_right fun own => later.methods.subset own
    · exact Or.inr own

end Continues

theorem continues_addMethod
    (draft : TypeDraft)
    (method : MethodDraft) :
    draft.Continues (draft.addMethod method) where
  place := ⟨rfl, rfl⟩
  nested := rfl
  fields := .refl _ _ _
  methods := by
    have more : (draft.addMethod method).type.methodTokens
        = draft.type.methodTokens ++ [draft.methodToken] := List.map_append
    rw [more]
    exact .one _ _ _
  properties := .refl _ _ _
  events := .refl _ _ _
  accessors := fun _ => Or.inl

theorem continues_addAccessor
    (draft : TypeDraft)
    (asked : Bool)
    (method : MethodDraft) :
    draft.Continues (draft.addAccessor asked method).1 := by
  rw [addAccessor]
  split
  · exact draft.continues_addMethod method
  · exact .refl draft

theorem continues_addField
    (draft : TypeDraft)
    (name : String)
    (signature : Signature)
    (access : Accessibility)
    (flags : Flags)
    (value : Option Constant) :
    draft.Continues (draft.addField name signature access flags value) where
  place := ⟨rfl, rfl⟩
  nested := rfl
  fields := by
    have more : (draft.addField name signature access flags value).type.fieldTokens
        = draft.type.fieldTokens ++ [.ofRow .field draft.rows.field] := List.map_append
    rw [more]
    exact .one _ _ _
  methods := .refl _ _ _
  properties := .refl _ _ _
  events := .refl _ _ _
  accessors := fun _ => Or.inl

/-- The token of an accessor is that of the method. -/
theorem mem_methodTokens_addAccessor
    (draft : TypeDraft)
    (asked : Bool)
    (method : MethodDraft)
    {token : Token}
    (given : token ∈ (draft.addAccessor asked method).2.toList) :
    token ∈ (draft.addAccessor asked method).1.type.methodTokens := by
  rw [addAccessor] at given ⊢
  split at given
  · next isAsked =>
      obtain rfl : token = draft.methodToken := by simpa using given
      simp [isAsked, TypeDefinition.methodTokens, addMethod, MethodDraft.define]
  · cases given

/-- Two accessors after each other, those of a property or an event. -/
theorem continues_accessors
    (draft : TypeDraft)
    (first second : Bool)
    (one other : MethodDraft) :
    draft.Continues ((draft.addAccessor first one).1.addAccessor second other).1 :=
  (draft.continues_addAccessor first one).trans
    ((draft.addAccessor first one).1.continues_addAccessor second other)

/-- Both tokens are those of methods. -/
theorem mem_methodTokens_accessors
    (draft : TypeDraft)
    (first second : Bool)
    (one other : MethodDraft)
    {token : Token}
    (given : token ∈ (draft.addAccessor first one).2.toList
      ++ ((draft.addAccessor first one).1.addAccessor second other).2.toList) :
    token ∈ ((draft.addAccessor first one).1.addAccessor second other).1.type.methodTokens := by
  rcases List.mem_append.1 given with former | latter
  · have own := draft.mem_methodTokens_addAccessor first one former
    exact ((draft.addAccessor first one).1.continues_addAccessor second other).methods.subset own
  · exact mem_methodTokens_addAccessor _ second other latter

/-- A property with the next token refers to methods that are there. -/
theorem continues_property
    (draft : TypeDraft)
    (property : PropertyDefinition)
    (own : property.token = .ofRow .property draft.rows.property)
    (accessors : ∀ token ∈ property.getter.toList ++ property.setter.toList,
      token ∈ draft.type.methodTokens) :
    draft.Continues
      ⟨{ draft.type with properties := draft.type.properties ++ [property] },
        { draft.rows with property := draft.rows.property + 1 }⟩ where
  place := ⟨rfl, rfl⟩
  nested := rfl
  fields := .refl _ _ _
  methods := .refl _ _ _
  properties := by
    simp only [TypeDefinition.propertyTokens, List.map_append, List.map_singleton, own]
    exact .one _ _ _
  events := .refl _ _ _
  accessors := by
    intro token member
    simp only [TypeDefinition.accessorTokens, List.flatMap_append, List.flatMap_singleton,
      List.mem_append] at member ⊢
    rcases member with (before | new) | events
    · exact Or.inl (Or.inl before)
    · exact Or.inr (accessors token (List.mem_append.2 new))
    · exact Or.inl (Or.inr events)

/-- An event with the next token refers to methods that are there. -/
theorem continues_event
    (draft : TypeDraft)
    (event : EventDefinition)
    (own : event.token = .ofRow .event draft.rows.event)
    (accessors : ∀ token ∈ event.adder.toList ++ event.remover.toList,
      token ∈ draft.type.methodTokens) :
    draft.Continues
      ⟨{ draft.type with events := draft.type.events ++ [event] },
        { draft.rows with event := draft.rows.event + 1 }⟩ where
  place := ⟨rfl, rfl⟩
  nested := rfl
  fields := .refl _ _ _
  methods := .refl _ _ _
  properties := .refl _ _ _
  events := by
    simp only [TypeDefinition.eventTokens, List.map_append, List.map_singleton, own]
    exact .one _ _ _
  accessors := by
    intro token member
    simp only [TypeDefinition.accessorTokens, List.flatMap_append, List.flatMap_singleton,
      List.mem_append] at member ⊢
    rcases member with properties | before | new
    · exact Or.inl (Or.inl properties)
    · exact Or.inl (Or.inr before)
    · exact Or.inr (accessors token (List.mem_append.2 new))

/-- Every step continues the type. -/
theorem continues_step
    (draft : TypeDraft)
    (step : TypeStep) :
    draft.Continues (draft.step step) := by
  have kept : draft.Continues draft := .refl draft
  cases step with
  | asDelegate returns parameters =>
      have changed : draft.Continues
          ((draft.withBase (systemClass "MulticastDelegate")).withFlags TypeFlag.sealed) :=
        ⟨⟨rfl, rfl⟩, rfl, kept.fields, kept.methods, kept.properties, kept.events, kept.accessors⟩
      exact changed.trans (continues_addMethod _ _)
  | field name signature access flags => exact draft.continues_addField _ _ _ _ _
  | constant name value => exact draft.continues_addField _ _ _ _ _
  | method method => exact draft.continues_addMethod method
  | property name signature getter setter =>
      exact (draft.continues_accessors getter setter _ _).trans
        (continues_property _ _ rfl fun _ => draft.mem_methodTokens_accessors getter setter _ _)
  | event name signature =>
      exact (draft.continues_accessors true true _ _).trans
        (continues_event _ _ rfl fun _ => draft.mem_methodTokens_accessors true true _ _)
  | _ =>
      exact ⟨⟨rfl, rfl⟩, rfl, kept.fields, kept.methods, kept.properties, kept.events,
        kept.accessors⟩

/-- So do several steps. -/
theorem continues_foldl
    (steps : List TypeStep)
    (draft : TypeDraft) :
    draft.Continues (steps.foldl step draft) := by
  induction steps generalizing draft with
  | nil => exact .refl draft
  | cons first rest ih => exact (draft.continues_step first).trans (ih (draft.step first))

end TypeDraft

/-! ## Steps in making a module -/

namespace Builder

variable {builder next : Builder}

/-- The types have the tokens of the rows from one on. -/
structure Numbered (types : List TypeDefinition) : Prop where
  few : types.length < Token.rowLimit
  numbered : types.map (·.token) = tokensFrom .typeDefinition 1 types.length

/-- What every step keeps that names a known parent. The types have the tokens of the rows from one
on and are well nested; their members have the tokens of the rows that were handed out, and their
accessors are methods of the same type. -/
structure Sound (builder : Builder) : Prop extends Numbered builder.types where
  nesting : WellNested builder.types
  fields : HandedOut .field builder.rows.field (builder.types.flatMap (·.fieldTokens))
  methods : HandedOut .method builder.rows.method (builder.types.flatMap (·.methodTokens))
  properties : HandedOut .property builder.rows.property
    (builder.types.flatMap (·.propertyTokens))
  events : HandedOut .event builder.rows.event (builder.types.flatMap (·.eventTokens))
  accessors : ∀ type ∈ builder.types, type.accessorTokens ⊆ type.methodTokens

/-- A place is that of the row before the token's. -/
theorem place?_eq_some
    {token : Token}
    {place : Nat}
    (found : builder.place? token = some place) :
    place < builder.types.length ∧ place + 1 < Token.rowLimit
      ∧ token = .ofRow .typeDefinition (place + 1) := by
  rw [place?] at found
  split at found
  · next fits =>
      obtain ⟨isType, inside⟩ := fits
      obtain ⟨someRow, whole⟩ := Token.isTypeDefinition_iff.1 isType
      have below : token.row < Token.rowLimit := Nat.mod_lt _ (by decide)
      obtain rfl := Option.some.inj found
      have row : token.row - 1 + 1 = token.row := by omega
      rw [row]
      exact ⟨inside, below, whole⟩
  · simp at found

/-- Steps on a type change the type at its place and hand out rows. Nothing is missing but the
type. -/
theorem extend_eq_ok_iff
    {token : Token}
    {steps : List TypeStep} :
    builder.extend token steps = .ok next
      ↔
    ∃ place type, builder.place? token = some place ∧ builder.types[place]? = some type
      ∧ next = { builder with
          types := builder.types.set place (steps.foldl TypeDraft.step ⟨type, builder.rows⟩).type
          rows := (steps.foldl TypeDraft.step ⟨type, builder.rows⟩).rows } := by
  rw [extend]
  constructor
  · intro extended
    split at extended
    · simp at extended
    · next place type found =>
        obtain ⟨own, placed, known⟩ := Option.bind_eq_some_iff.1 found
        obtain ⟨old, isOld, pair⟩ := Option.map_eq_some_iff.1 known
        obtain ⟨rfl, rfl⟩ := Prod.mk.inj pair
        exact ⟨own, old, placed, isOld, (Except.ok.inj extended).symm⟩
  · rintro ⟨place, type, placed, known, rfl⟩
    rw [placed, Option.bind_some, known]
    rfl

namespace Numbered

variable {types : List TypeDefinition}

/-- Different types have different tokens. -/
theorem distinct (numbered : Numbered types) :
    (types.map (·.token)).Nodup := by
  have all : HandedOut .typeDefinition (1 + types.length) (types.map (·.token)) :=
    ⟨_, ⟨types.length, rfl, rfl⟩, by rw [numbered.numbered, List.nil_append]⟩
  exact all.nodup (by have := numbered.few; omega)

/-- The token at a place is that of the row after it. -/
theorem token_at
    (numbered : Numbered types)
    {place : Nat}
    {type : TypeDefinition}
    (known : types[place]? = some type) :
    type.token = .ofRow .typeDefinition (place + 1) := by
  have inside := (List.getElem?_eq_some_iff.1 known).1
  have listed := congrArg (·[place]?) numbered.numbered
  simp only [List.getElem?_map, known, tokensFrom, Option.map_some] at listed
  rw [List.getElem?_range' inside] at listed
  simpa [Nat.add_comm] using listed

/-- Types that change stay numbered if they keep their tokens. -/
theorem of_map_token
    (numbered : Numbered types)
    {others : List TypeDefinition}
    (same : others.map (·.token) = types.map (·.token)) :
    Numbered others := by
  have length : others.length = types.length := by
    simpa using congrArg List.length same
  exact ⟨length ▸ numbered.few, by rw [same, numbered.numbered, length]⟩

/-- A further type may have the next row. -/
theorem concat
    (numbered : Numbered types)
    (fits : types.length + 1 < Token.rowLimit)
    {type : TypeDefinition}
    (token : type.token = .ofRow .typeDefinition (types.length + 1)) :
    Numbered (types ++ [type]) where
  few := by rwa [List.length_append, List.length_singleton]
  numbered := by
    have last : Token.ofRow .typeDefinition (types.length + 1)
        = .ofRow .typeDefinition (1 + types.length) := by
      rw [Nat.add_comm]
    rw [List.map_append, List.map_singleton, numbered.numbered, token, last, List.length_append,
      List.length_singleton, tokensFrom, tokensFrom, List.range'_1_concat, List.map_append,
      List.map_singleton]

/-- The next row fits into a token if it can be extended. -/
theorem lt_rowLimit_of_extend
    (numbered : Numbered builder.types)
    {types : List TypeDefinition}
    {steps : List TypeStep}
    (extended : { builder with types := types }.extend builder.nextToken steps = .ok next) :
    builder.types.length + 1 < Token.rowLimit := by
  obtain ⟨place, -, placed, -⟩ := extend_eq_ok_iff.1 extended
  obtain ⟨-, fits, same⟩ := place?_eq_some placed
  have few := numbered.few
  have values := congrArg (·.value.toNat) same
  simp only [nextToken, Token.toNat_ofRow, Nat.mod_eq_of_lt fits] at values
  by_contra beyond
  have full : builder.types.length + 1 = Token.rowLimit := by omega
  rw [full, Nat.mod_self] at values
  omega

/-- The token of the next type is new. -/
theorem nextToken_not_mem
    (numbered : Numbered builder.types)
    (fits : builder.types.length + 1 < Token.rowLimit) :
    builder.nextToken ∉ builder.types.map (·.token) := by
  intro known
  obtain ⟨type, member, same⟩ := List.mem_map.1 known
  obtain ⟨place, at_place⟩ := List.mem_iff_getElem?.1 member
  have inside := (List.getElem?_eq_some_iff.1 at_place).1
  rw [numbered.token_at at_place] at same
  have rows := Token.ofRow_inj (by omega) fits same
  omega

end Numbered

namespace Sound

theorem extend
    (sound : builder.Sound)
    {token : Token}
    {steps : List TypeStep}
    (extended : builder.extend token steps = .ok next) :
    next.Sound := by
  obtain ⟨place, type, -, known, rfl⟩ := extend_eq_ok_iff.1 extended
  have continues := TypeDraft.continues_foldl steps ⟨type, builder.rows⟩
  refine ⟨?_, ?_, ?_, ?_, ?_, ?_, ?_⟩
  · exact sound.of_map_token (map_set_eq known continues.place.token)
  · exact sound.nesting.set known continues.place continues.nested
  · exact sound.fields.set known continues.fields
  · exact sound.methods.set known continues.methods
  · exact sound.properties.set known continues.properties
  · exact sound.events.set known continues.events
  · intro other isOther token member
    rcases List.mem_or_eq_of_mem_set isOther with before | rfl
    · exact sound.accessors other before member
    · rcases continues.accessors token member with old | own
      · exact continues.methods.subset
          (sound.accessors type (List.mem_of_getElem? known) old)
      · exact own

/-- A further type without members keeps a builder sound if the types stay well nested. -/
theorem concat
    (sound : builder.Sound)
    (fits : builder.types.length + 1 < Token.rowLimit)
    {types : List TypeDefinition}
    {type : TypeDefinition}
    (same : types.map (·.alone) = builder.types.map (·.alone))
    (token : type.token = builder.nextToken)
    (empty : type.fieldTokens ++ type.methodTokens ++ type.propertyTokens ++ type.eventTokens = [])
    (nesting : WellNested (types ++ [type])) :
    { builder with types := types ++ [type] }.Sound := by
  simp only [List.append_eq_nil_iff] at empty
  obtain ⟨⟨⟨noField, noMethod⟩, noProperty⟩, noEvent⟩ := empty
  have members {part : TypeDefinition → List Token} (none : part type = [])
      (apart : ∀ type, part type.alone = part type) :
      (types ++ [type]).flatMap part = builder.types.flatMap part := by
    rw [List.flatMap_append, List.flatMap_singleton, none, List.append_nil, List.flatMap_def,
      TypeDefinition.map_eq_of_alone same apart, ← List.flatMap_def]
  have tokens : types.map (·.token) = builder.types.map (·.token) :=
    TypeDefinition.map_eq_of_alone same fun _ => rfl
  have length : types.length = builder.types.length := by
    simpa using congrArg List.length same
  refine ⟨?_, nesting, ?_, ?_, ?_, ?_, ?_⟩
  · rw [nextToken, ← length] at token
    rw [← length] at fits
    exact (sound.of_map_token tokens).concat fits token
  · exact (members noField fun _ => rfl) ▸ sound.fields
  · exact (members noMethod fun _ => rfl) ▸ sound.methods
  · exact (members noProperty fun _ => rfl) ▸ sound.properties
  · exact (members noEvent fun _ => rfl) ▸ sound.events
  · intro other isOther
    rcases List.mem_append.1 isOther with before | own
    · -- The type is one of the builder's but for its list of nested types.
      have alone : other.alone ∈ builder.types.map (·.alone) :=
        same ▸ List.mem_map_of_mem before
      obtain ⟨old, isOld, agree⟩ := List.mem_map.1 alone
      have accessors : old.accessorTokens = other.accessorTokens :=
        (congrArg TypeDefinition.accessorTokens agree :)
      have methods : old.methodTokens = other.methodTokens :=
        (congrArg TypeDefinition.methodTokens agree :)
      rw [← accessors, ← methods]
      exact sound.accessors old isOld
    · obtain rfl := List.mem_singleton.1 own
      rw [TypeDefinition.accessorTokens, List.map_eq_nil_iff.1 noProperty,
        List.map_eq_nil_iff.1 noEvent]
      exact List.nil_subset _

end Sound

/-- A nested type has a parent that was made before. -/
def ParentKnown (builder : Builder) : BuildStep → Prop
  | .addNested parent _ _ => (builder.place? parent).isSome
  | _ => True

theorem sound_new
    (name : String)
    (identity : Identity) :
    (new name identity).Sound where
  few := by
    rw [new, List.length_singleton]
    decide
  numbered := rfl
  nesting := by
    constructor
    · intro i type parent at_i enclosing
      obtain rfl : type = moduleType := by
        simpa [new] using List.mem_of_getElem? at_i
      exact absurd enclosing (Option.some_ne_none parent).symm
    · intro type member
      obtain rfl : type = moduleType := List.mem_singleton.1 member
      rfl
  fields := ⟨[], .refl _ _ _, .refl _⟩
  methods := ⟨[], .refl _ _ _, .refl _⟩
  properties := ⟨[], .refl _ _ _, .refl _⟩
  events := ⟨[], .refl _ _ _, .refl _⟩
  accessors := by
    intro type member
    obtain rfl : type = moduleType := List.mem_singleton.1 member
    exact List.nil_subset _

/-- A nested type is noted with a parent that is there. -/
theorem noteNested_of_place?
    {parent token : Token}
    {place : Nat}
    {old : TypeDefinition}
    (placed : builder.place? parent = some place)
    (known : builder.types[place]? = some old) :
    builder.noteNested parent token
      = { builder with
          types := builder.types.set place { old with nested := old.nested ++ [token] } } := by
  rw [noteNested, placed]
  simp only [List.modify_eq_set_getElem?, known]
  rfl

/-- A new nested type is noted with a parent that was there before. -/
theorem noteNested_concat
    {parent token : Token}
    {place : Nat}
    {old type : TypeDefinition}
    (placed : builder.place? parent = some place)
    (known : builder.types[place]? = some old) :
    { builder with types := builder.types ++ [type] }.noteNested parent token
      = { builder with
          types :=
            builder.types.set place { old with nested := old.nested ++ [token] } ++ [type] } := by
  have inside : place < builder.types.length := (List.getElem?_eq_some_iff.1 known).1
  have still : { builder with types := builder.types ++ [type] }.place? parent = some place := by
    rw [place?] at placed ⊢
    split at placed
    · next fits =>
        rw [if_pos ⟨fits.1, by rw [List.length_append]; exact Nat.lt_add_right _ fits.2⟩, placed]
    · simp at placed
  rw [noteNested_of_place? still ((List.getElem?_append_left inside).trans known),
    List.set_append_left place _ inside]

/-- Every step that names a known parent keeps a builder sound. -/
theorem Sound.step
    (sound : builder.Sound)
    {step : BuildStep}
    (parentKnown : builder.ParentKnown step)
    (stepped : builder.step step = .ok next) :
    next.Sound := by
  cases step with
  | addType space name steps =>
      have fits := sound.lt_rowLimit_of_extend stepped
      have fresh := sound.nextToken_not_mem fits
      exact (sound.concat fits rfl rfl rfl
        (sound.nesting.concat fresh rfl rfl)).extend stepped
  | addNested parent name steps =>
      obtain ⟨place, placed⟩ := Option.isSome_iff_exists.1 parentKnown
      obtain ⟨inside, -, isParent⟩ := place?_eq_some placed
      obtain ⟨outer, known⟩ : ∃ outer, builder.types[place]? = some outer :=
        ⟨_, List.getElem?_eq_getElem inside⟩
      rw [← sound.token_at known] at isParent
      rw [Builder.step, noteNested_concat placed known] at stepped
      have fits := sound.lt_rowLimit_of_extend stepped
      have fresh := sound.nextToken_not_mem fits
      refine (sound.concat fits ?_ rfl rfl ?_).extend stepped
      · exact map_set_eq known rfl
      · exact sound.nesting.concat_nested sound.distinct rfl fresh known
          (congrArg some isParent) rfl
  | extend token steps => exact sound.extend stepped
  | _ =>
      obtain rfl := Except.ok.inj stepped
      exact { sound with }

/-- The builders that come about by steps. Every nested type has a parent that was made before, and
the module may get an identifier and a place at any time. -/
inductive Made : Builder → Prop
  | new (name : String) (identity : Identity) :
      Made (Builder.new name identity)
  | identify {builder : Builder} (mvid : Option Guid) (location : Option String) :
      Made builder →
      Made { builder with mvid := mvid, location := location }
  | step {builder next : Builder} {step : BuildStep} :
      Made builder →
      builder.ParentKnown step →
      builder.step step = .ok next →
      Made next

/-- Whatever comes about by steps is sound. -/
theorem Made.sound
    (made : builder.Made) :
    builder.Sound := by
  induction made with
  | new name identity => exact sound_new name identity
  | identify mvid location _ sound =>
      exact { sound with }
  | step _ parentKnown stepped sound => exact sound.step parentKnown stepped

end Builder

/-! ## The finished module -/

namespace TypeTable

/-- A definition behind all others comes last. -/
theorem place_of_above
    {type : TypeDefinition}
    {entries : List TypeDefinition}
    (above : ∀ entry ∈ entries, entry.token.value < type.token.value) :
    place type entries = entries ++ [type] := by
  induction entries with
  | nil => rfl
  | cons head rest ih =>
      have less := above head List.mem_cons_self
      rw [place, if_neg (UInt32.lt_asymm less), if_neg (UInt32.ne_of_lt less).symm,
        ih fun entry isEntry => above entry (List.mem_cons_of_mem head isEntry)]
      rfl

/-- A table of definitions that are in order has just these entries. -/
theorem entries_ofList
    {types : List TypeDefinition}
    (increasing : types.Pairwise (·.token.value < ·.token.value)) :
    (ofList types).entries = types := by
  induction types using List.reverseRecOn with
  | nil => rfl
  | append_singleton types last ih =>
      rw [List.pairwise_append] at increasing
      obtain ⟨before, -, above⟩ := increasing
      have entries : (ofList (types ++ [last])).entries = place last (ofList types).entries := by
        rw [ofList, List.foldl_append]
        rfl
      rw [entries, ih before]
      exact place_of_above fun entry isEntry => above entry isEntry last List.mem_cons_self

end TypeTable

namespace Builder

/-- A table of numbered types has just these entries. -/
theorem Numbered.entries_ofList
    {types : List TypeDefinition}
    (numbered : Numbered types) :
    (TypeTable.ofList types).entries = types := by
  refine TypeTable.entries_ofList (List.pairwise_iff_getElem.2 fun i j at_i at_j less => ?_)
  have few := numbered.few
  rw [numbered.token_at (List.getElem?_eq_getElem at_i),
    numbered.token_at (List.getElem?_eq_getElem at_j), UInt32.lt_iff_toNat_lt, Token.toNat_ofRow,
    Token.toNat_ofRow, Nat.mod_eq_of_lt (by omega), Nat.mod_eq_of_lt (by omega)]
  omega

namespace Sound

variable {builder : Builder}

/-- The finished module has the types that were made, in their order. -/
theorem entries_build (sound : builder.Sound) :
    builder.build.types.entries = builder.types :=
  sound.entries_ofList

/-- The finished module is well nested. -/
theorem nesting_build (sound : builder.Sound) :
    WellNested builder.build.types.entries := by
  rw [sound.entries_build]
  exact sound.nesting

end Sound

end Builder

end Assembly
end AssemblyAtlas
