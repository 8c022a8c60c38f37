import AssemblyAtlas.Proofs.Assembly.Built
import AssemblyAtlas.Proofs.Assembly.Reached

/-!
# The tables of a module that is built

What is done to a builder takes rows of the tables, one for each type and each member. As long as
the rows fit into tokens, and types are named by tokens that were handed out, nothing fails, and the
tables of the finished module are in order.

* `Operation` is whatever can be done to a builder, and `rowsTaken` counts rows;
* `Builder.Orderly` says that only types are named that there are;
* `Module.InOrder` is about the tables of a module;
* `Builder.inOrder_build` is about everything that is done to a new builder.
-/

namespace AssemblyAtlas
namespace Assembly

/-! ## Counting rows -/

/-- The rows of a table that a step in making a type takes. -/
def TypeStep.rows : TypeStep → Table → Nat
  | .field _ _ _ _, .field | .constant _ _, .field => 1
  | .method _, .method | .asDelegate _ _, .method => 1
  | .property _ _ getter setter, .method => getter.toNat + setter.toNat
  | .event _ _, .method => 2
  | .property _ _ _ _, .property => 1
  | .event _ _, .event => 1
  | _, _ => 0

/-- The rows of a table that several such steps take. -/
def rowsOf : List TypeStep → Table → Nat
  | [], _ => 0
  | step :: rest, table => step.rows table + rowsOf rest table

/-- The row of a new type. -/
def ownRow : Table → Nat
  | .typeDefinition => 1
  | _ => 0

/-- What can be done to a builder. -/
inductive Operation where
  | identify (mvid : Guid)
  | locate (location : String)
  | step (step : BuildStep)

/-- The rows of a table that an operation takes. -/
def Operation.rows : Operation → Table → Nat
  | .step (.addType _ _ steps), table => ownRow table + rowsOf steps table
  | .step (.addNested _ _ steps), table => ownRow table + rowsOf steps table
  | .step (.extend _ steps), table => rowsOf steps table
  | _, _ => 0

/-- The rows of a table that several operations take. -/
def furtherRows : List Operation → Table → Nat
  | [], _ => 0
  | operation :: rest, table => operation.rows table + furtherRows rest table

/-- The rows of a table that are taken in all. The first type is there from the start. -/
def rowsTaken (operations : List Operation) (table : Table) : Nat :=
  ownRow table + furtherRows operations table

/-- The rows after some more are taken. -/
def MemberRows.after (rows : MemberRows) (taken : Table → Nat) : MemberRows where
  field := rows.field + taken .field
  method := rows.method + taken .method
  property := rows.property + taken .property
  event := rows.event + taken .event

namespace TypeDraft

theorem rows_step
    (draft : TypeDraft)
    (step : TypeStep) :
    (draft.step step).rows = draft.rows.after step.rows := by
  cases step with
  | property name signature getter setter => cases getter <;> cases setter <;> rfl
  | _ => rfl

theorem rows_foldl
    (steps : List TypeStep)
    (draft : TypeDraft) :
    (steps.foldl step draft).rows = draft.rows.after (rowsOf steps) := by
  induction steps generalizing draft with
  | nil => rfl
  | cons first rest ih =>
      rw [List.foldl_cons, ih, rows_step]
      simp only [MemberRows.after, rowsOf, Nat.add_assoc]

end TypeDraft

/-- Steps in making a type make no further types. -/
theorem rowsOf_typeDefinition (steps : List TypeStep) :
    rowsOf steps .typeDefinition = 0 := by
  induction steps with
  | nil => rfl
  | cons first rest ih =>
      have none : first.rows .typeDefinition = 0 := by cases first <;> rfl
      rw [rowsOf, none, Nat.zero_add, ih]

/-! ## Operations -/

namespace Builder

variable {builder next : Builder}

/-- Does one thing to a builder. -/
def perform (builder : Builder) : Operation → Except UnknownType Builder
  | .identify mvid => .ok { builder with mvid := some mvid }
  | .locate location => .ok { builder with location := some location }
  | .step step => builder.step step

/-- Does one thing after the other until one fails. -/
def performAll (builder : Builder) (operations : List Operation) : Except UnknownType Builder :=
  operations.foldlM perform builder

/-- The types that the operation names are there. -/
def Knows (builder : Builder) : Operation → Prop
  | .step (.addNested parent _ _) => parent ∈ builder.types.map (·.token)
  | .step (.extend type _) => type ∈ builder.types.map (·.token)
  | _ => True

/-- Each operation names only types that are there when its turn comes. -/
def Orderly : Builder → List Operation → Prop
  | _, [] => True
  | builder, operation :: rest =>
      builder.Knows operation
        ∧ ∀ next, builder.perform operation = .ok next → next.Orderly rest

instance (builder : Builder) : (operation : Operation) → Decidable (builder.Knows operation)
  | .step (.addNested parent _ _) =>
      inferInstanceAs (Decidable (parent ∈ builder.types.map (·.token)))
  | .step (.extend type _) => inferInstanceAs (Decidable (type ∈ builder.types.map (·.token)))
  | .step (.addType _ _ _) | .step (.reference _) | .step (.assemblyMark _)
  | .step (.moduleMark _) | .step (.forward _ _ _) | .identify _ | .locate _ => isTrue trivial

instance decidableOrderly :
    (builder : Builder) → (operations : List Operation) → Decidable (builder.Orderly operations)
  | _, [] => isTrue trivial
  | builder, operation :: rest =>
      match performed : builder.perform operation with
      | .error _ =>
          decidable_of_iff (builder.Knows operation)
            ⟨fun knows => ⟨knows, fun _ done => nomatch performed.symm.trans done⟩, And.left⟩
      | .ok next =>
          have := decidableOrderly next rest
          decidable_of_iff (builder.Knows operation ∧ next.Orderly rest)
            (and_congr_right fun _ =>
              ⟨fun orderly _ done => Except.ok.inj (performed.symm.trans done) ▸ orderly,
                fun each => each next performed⟩)

/-- The next free row of a table. -/
def nextRow (builder : Builder) : Table → Nat
  | .typeDefinition => builder.types.length + 1
  | .field => builder.rows.field
  | .method => builder.rows.method
  | .property => builder.rows.property
  | .event => builder.rows.event

theorem nextRow_extend
    {token : Token}
    {steps : List TypeStep}
    (extended : builder.extend token steps = .ok next)
    (table : Table) :
    next.nextRow table = builder.nextRow table + rowsOf steps table := by
  obtain ⟨place, type, -, -, rfl⟩ := extend_eq_ok_iff.1 extended
  rw [TypeDraft.rows_foldl]
  cases table with
  | typeDefinition => simp [nextRow, rowsOf_typeDefinition]
  | _ => rfl

theorem length_noteNested
    (builder : Builder)
    (parent token : Token) :
    (builder.noteNested parent token).types.length = builder.types.length := by
  rw [noteNested]
  split
  · rfl
  · exact List.length_modify ..

theorem nextRow_noteNested
    (builder : Builder)
    (parent token : Token)
    (table : Table) :
    (builder.noteNested parent token).nextRow table = builder.nextRow table := by
  have rows : (builder.noteNested parent token).rows = builder.rows := by
    rw [noteNested]
    split <;> rfl
  cases table <;> simp only [nextRow, length_noteNested, rows]

theorem nextRow_concat
    (builder : Builder)
    (type : TypeDefinition)
    (table : Table) :
    { builder with types := builder.types ++ [type] }.nextRow table
      = builder.nextRow table + ownRow table := by
  cases table with
  | typeDefinition => simp [nextRow, ownRow]
  | _ => rfl

/-- An operation takes as many rows as are counted for it. -/
theorem nextRow_perform
    {operation : Operation}
    (performed : builder.perform operation = .ok next)
    (table : Table) :
    next.nextRow table = builder.nextRow table + operation.rows table := by
  cases operation with
  | identify mvid =>
      obtain rfl := Except.ok.inj performed
      cases table <;> rfl
  | locate location =>
      obtain rfl := Except.ok.inj performed
      cases table <;> rfl
  | step step =>
      cases step with
      | addType space name steps =>
          rw [nextRow_extend performed, nextRow_concat, Nat.add_assoc]
          rfl
      | addNested parent name steps =>
          rw [nextRow_extend performed, nextRow_noteNested, nextRow_concat, Nat.add_assoc]
          rfl
      | extend token steps => exact nextRow_extend performed table
      | _ =>
          obtain rfl := Except.ok.inj performed
          cases table <;> rfl

/-- The token of a row that fits has a place if there is such a row. -/
theorem isSome_place?_ofRow
    {row : Nat}
    (positive : 0 < row)
    (inside : row ≤ builder.types.length)
    (fits : row < Token.rowLimit) :
    (builder.place? (.ofRow .typeDefinition row)).isSome := by
  have own : (Token.ofRow .typeDefinition row).row = row := by
    rw [Token.row, Token.toNat_ofRow, Nat.mul_add_mod_of_lt (Nat.mod_lt row (by decide)),
      Nat.mod_eq_of_lt fits]
  have isType : (Token.ofRow .typeDefinition row).isTypeDefinition = true :=
    Token.isTypeDefinition_iff.2 ⟨by omega, by rw [own]⟩
  rw [place?, own, if_pos ⟨isType, by omega⟩]
  rfl

/-- A type that has a place can be worked on. -/
theorem exists_extend
    {token : Token}
    (placed : (builder.place? token).isSome)
    (steps : List TypeStep) :
    ∃ next, builder.extend token steps = .ok next := by
  obtain ⟨place, placed⟩ := Option.isSome_iff_exists.1 placed
  obtain ⟨inside, -⟩ := place?_eq_some placed
  exact ⟨_, extend_eq_ok_iff.2
    ⟨place, builder.types[place], placed, List.getElem?_eq_getElem inside, rfl⟩⟩

namespace Sound

/-- A type that is there has a place. -/
theorem isSome_place?
    (sound : builder.Sound)
    {token : Token}
    (known : token ∈ builder.types.map (·.token)) :
    (builder.place? token).isSome := by
  obtain ⟨type, member, rfl⟩ := List.mem_map.1 known
  obtain ⟨place, at_place⟩ := List.mem_iff_getElem?.1 member
  have inside := (List.getElem?_eq_some_iff.1 at_place).1
  have few := sound.few
  rw [sound.token_at at_place]
  exact isSome_place?_ofRow (Nat.succ_pos place) inside (by omega)

/-- An operation that names only types that are there succeeds if its row fits. -/
theorem exists_perform
    (sound : builder.Sound)
    {operation : Operation}
    (knows : builder.Knows operation)
    (fits : builder.types.length + operation.rows .typeDefinition < Token.rowLimit) :
    ∃ next, builder.perform operation = .ok next := by
  cases operation with
  | identify mvid => exact ⟨_, rfl⟩
  | locate location => exact ⟨_, rfl⟩
  | step step =>
      -- A new type is worked on right away, so its own token has to have a place.
      cases step with
      | addType space name steps =>
          have row : builder.types.length + 1 < Token.rowLimit := by
            simpa [Operation.rows, ownRow, rowsOf_typeDefinition] using fits
          exact exists_extend (isSome_place?_ofRow (Nat.succ_pos _) (by simp) row) steps
      | addNested parent name steps =>
          have row : builder.types.length + 1 < Token.rowLimit := by
            simpa [Operation.rows, ownRow, rowsOf_typeDefinition] using fits
          refine exists_extend (isSome_place?_ofRow (Nat.succ_pos _) (Nat.le_of_eq ?_) row) steps
          rw [length_noteNested, List.length_append, List.length_singleton]
      | extend token steps => exact exists_extend (sound.isSome_place? knows) steps
      | _ => exact ⟨_, rfl⟩

end Sound

theorem Made.perform
    (made : builder.Made)
    {operation : Operation}
    (knows : builder.Knows operation)
    (performed : builder.perform operation = .ok next) :
    next.Made := by
  cases operation with
  | identify mvid =>
      obtain rfl := Except.ok.inj performed
      exact made.identify (some mvid) builder.location
  | locate location =>
      obtain rfl := Except.ok.inj performed
      exact made.identify builder.mvid (some location)
  | step step =>
      refine made.step ?_ performed
      cases step with
      | addNested parent name steps => exact made.sound.isSome_place? knows
      | _ => trivial

/-- What is done in order succeeds as long as there are rows for the types, and takes the rows that
are counted for it. -/
theorem Made.exists_performAll
    (made : builder.Made)
    {operations : List Operation}
    (orderly : builder.Orderly operations)
    (fit : builder.types.length + furtherRows operations .typeDefinition < Token.rowLimit) :
    ∃ last, builder.performAll operations = .ok last ∧ last.Made
      ∧ ∀ table, last.nextRow table = builder.nextRow table + furtherRows operations table := by
  induction operations generalizing builder with
  | nil => exact ⟨builder, rfl, made, fun _ => rfl⟩
  | cons operation rest ih =>
      obtain ⟨knows, later⟩ := orderly
      rw [furtherRows] at fit
      obtain ⟨next, performed⟩ := made.sound.exists_perform knows (by omega)
      have taken := nextRow_perform performed
      have length := taken .typeDefinition
      simp only [nextRow] at length
      obtain ⟨last, all, isMade, rows⟩ :=
        ih (made.perform knows performed) (later next performed) (by omega)
      refine ⟨last, ?_, isMade, fun table => ?_⟩
      · rw [performAll, List.foldlM_cons, performed]
        exact all
      · rw [rows, taken, furtherRows, Nat.add_assoc]

end Builder

/-! ## The finished module -/

/-- The tokens of the members of a type. -/
def TypeDefinition.memberTokens (type : TypeDefinition) : List Token :=
  type.fieldTokens ++ type.methodTokens ++ type.propertyTokens ++ type.eventTokens

/-- The types have the tokens of so many rows, each its own. No two members share a token, and
accessors are methods of the same type. The lists of nested types say the same as the enclosing
types, each once, and every type is reached from exactly one top-level type. -/
structure Module.InOrder (module : Module) (count : Nat) : Prop where
  types : module.types.entries.map (·.token) = tokensFrom .typeDefinition 1 count
  own : ∀ token type, module.type? token = some type → type.token = token
  members : (module.types.entries.flatMap (·.memberTokens)).Nodup
  accessors : ∀ type ∈ module.types.entries, type.accessorTokens ⊆ type.methodTokens
  nested : ∀ outer ∈ module.types.entries, outer.nested.Nodup
    ∧ ∀ token, token ∈ outer.nested
      ↔ ∃ inner, module.type? token = some inner ∧ inner.enclosing = some outer.token
  topLevel : ∀ type ∈ module.types.entries, ∃ top ∈ module.topLevelTypes,
    module.outermost? type.token = some top.token
      ∧ (module.typePath? type.token).isSome
      ∧ (module.fullName? type.token).isSome
      ∧ ∀ other ∈ module.topLevelTypes, Relation.ReflTransGen module.Lists other type ↔ other = top

/-- Tokens of different tables are different. -/
theorem HandedOut.disjoint
    {left right : Table}
    {leftNext rightNext : Nat}
    {leftTokens rightTokens : List Token}
    (differ : left ≠ right)
    (fromLeft : HandedOut left leftNext leftTokens)
    (fromRight : HandedOut right rightNext rightTokens) :
    leftTokens.Disjoint rightTokens := by
  intro token isLeft isRight
  obtain ⟨row, rfl⟩ := fromLeft.exists_row isLeft
  obtain ⟨other, same⟩ := fromRight.exists_row isRight
  have table := congrArg (·.isIn right) same
  simp [differ] at table

namespace Builder

variable {builder : Builder}

/-- Members have different tokens as long as the rows of each table fit. -/
theorem Sound.nodup_memberTokens
    (sound : builder.Sound)
    (fit : ∀ table, builder.nextRow table ≤ Token.rowLimit) :
    (builder.types.flatMap (·.memberTokens)).Nodup := by
  have apart : (builder.types.flatMap (·.fieldTokens) ++ builder.types.flatMap (·.methodTokens)
      ++ builder.types.flatMap (·.propertyTokens)
      ++ builder.types.flatMap (·.eventTokens)).Nodup := by
    simp only [List.nodup_append', List.disjoint_append_left]
    exact ⟨⟨⟨sound.fields.nodup (fit .field), sound.methods.nodup (fit .method),
        sound.fields.disjoint (by decide) sound.methods⟩,
      sound.properties.nodup (fit .property),
      sound.fields.disjoint (by decide) sound.properties,
      sound.methods.disjoint (by decide) sound.properties⟩,
      sound.events.nodup (fit .event),
      ⟨sound.fields.disjoint (by decide) sound.events,
        sound.methods.disjoint (by decide) sound.events⟩,
      sound.properties.disjoint (by decide) sound.events⟩
  -- The members of one type stand together, those of one table do not.
  have two := List.flatMap_append_perm builder.types (·.fieldTokens) (·.methodTokens)
  have three := (two.append_right _).trans
    (List.flatMap_append_perm builder.types _ (·.propertyTokens))
  have four := (three.append_right _).trans
    (List.flatMap_append_perm builder.types _ (·.eventTokens))
  exact four.nodup_iff.1 apart

/-- The tables of a module that was made by steps are in order as long as the rows fit. -/
theorem Made.inOrder
    (made : builder.Made)
    (fit : ∀ table, builder.nextRow table ≤ Token.rowLimit) :
    builder.build.InOrder builder.types.length := by
  have sound := made.sound
  have entries := sound.entries_build
  have nesting := sound.nesting_build
  refine ⟨?_, fun _ _ => TypeTable.token_of_find?, ?_, ?_, fun outer isOuter => ?_,
    fun type isType => ?_⟩
  · rw [entries]
    exact sound.numbered
  · rw [entries]
    exact sound.nodup_memberTokens fit
  · rw [entries]
    exact sound.accessors
  · exact ⟨Module.nodup_nested nesting isOuter, fun _ => Module.mem_nested_iff nesting isOuter⟩
  · obtain ⟨top, rest, isTop, path, only⟩ := Module.exists_topLevel nesting isType
    refine ⟨top, isTop, ?_, ?_, ?_, only⟩
    · rw [Module.outermost?_eq, path]
      rfl
    · rw [path]
      rfl
    · rw [Module.fullName?, path]
      rfl

/-- Whatever is done to a new builder, as long as it names only types that there are and takes fewer
rows than fit into tokens: it succeeds, and the tables of the finished module are in order. -/
theorem inOrder_build
    (name : String)
    (identity : Identity)
    (operations : List Operation)
    (orderly : (new name identity).Orderly operations)
    (few : ∀ table, rowsTaken operations table < Token.rowLimit) :
    ∃ builder, (new name identity).performAll operations = .ok builder
      ∧ builder.build.InOrder (rowsTaken operations .typeDefinition) := by
  obtain ⟨builder, performed, made, rows⟩ :=
    (Made.new name identity).exists_performAll orderly (few .typeDefinition)
  have fit (table : Table) : builder.nextRow table = rowsTaken operations table + 1 := by
    rw [rows, rowsTaken, Nat.add_right_comm]
    cases table <;> rfl
  have length : builder.types.length = rowsTaken operations .typeDefinition :=
    Nat.succ.inj (fit .typeDefinition)
  refine ⟨builder, performed, length ▸ made.inOrder fun table => ?_⟩
  rw [fit]
  exact few table

/-- Types that are made one inside the other, and one of them once more worked on. -/
def reopenedSample : List Operation :=
  [.step (.addType "Shop" "Order" [.property "Total" (.primitive .int32) true false]),
    .step (.addNested (.ofRow .typeDefinition 2) "Line" [.event "Changed" (.primitive .object)]),
    .locate "lib/Shop.dll",
    .step (.addNested (.ofRow .typeDefinition 3) "Item" [.asEnum, .constant "First" (.int 1)]),
    .step (.extend (.ofRow .typeDefinition 2) [.method (.named "Clear"), .property "Open"
      (.primitive .boolean) true true])]

/-- With the type that is there from the start these are four types. -/
theorem inOrder_build_reopenedSample :
    (new "Shop.dll" (.ofName "Shop" .unspecified)).Orderly reopenedSample
      ∧ (∀ table, rowsTaken reopenedSample table < Token.rowLimit)
      ∧ ∃ builder,
          (new "Shop.dll" (.ofName "Shop" .unspecified)).performAll reopenedSample = .ok builder
            ∧ builder.build.InOrder 4 := by
  have orderly : (new "Shop.dll" (.ofName "Shop" .unspecified)).Orderly reopenedSample := by
    decide +kernel
  have few : ∀ table, rowsTaken reopenedSample table < Token.rowLimit := by
    intro table
    cases table <;> decide
  exact ⟨orderly, few, inOrder_build _ _ _ orderly few⟩

end Builder

end Assembly
end AssemblyAtlas
