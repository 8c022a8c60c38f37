import AssemblyAtlas.Proofs.Assembly.Linked
import AssemblyAtlas.Proofs.Declaration.Hiding
import AssemblyAtlas.Proofs.Declaration.SeveralTypes
import AssemblyAtlas.Proofs.Declaration.TypeNodes
import AssemblyAtlas.Proofs.Syntax.Pruning

/-!
# Trees of which more is hidden

Choosing more artifacts to be hidden prunes a tree: whatever disappears goes with all that it holds,
and nothing else changes. Whether a tree is built at all does not depend on the choice, since the
types that a built module lists can always be declared.

* `Decompiler.exists_tree_iff` says which trees are built;
* `Decompiler.pruned_typeNode?` compares two declarations of a type, by induction on their depth;
* `Decompiler.hiding_antitone_and_conservative` is about source files of modules that are built.
-/

namespace AssemblyAtlas
namespace Declaration

open Assembly
open Syntax

/-- A partial map that gives the same or nothing keeps fewer results. -/
theorem sublist_filterMap
    {α β : Type}
    {fewer whole : α → Option β}
    (same : ∀ element, fewer element = none ∨ fewer element = whole element)
    (elements : List α) :
    (elements.filterMap fewer).Sublist (elements.filterMap whole) := by
  induction elements with
  | nil => exact List.Sublist.refl _
  | cons element rest ih =>
      rcases same element with none | same
      · rw [List.filterMap_cons_none none]
        exact ih.trans ((List.sublist_cons_self element rest).filterMap whole)
      · rw [List.filterMap_cons, List.filterMap_cons, same]
        cases whole element with
        | none => exact ih
        | some result => exact ih.cons_cons result

namespace Decompiler

/-- The decompiler with another choice of artifacts to be hidden. -/
def concealing (decompiler : Decompiler) (concealment : Concealment) : Decompiler :=
  { decompiler with settings := { decompiler.settings with concealment := concealment } }

variable {decompiler : Decompiler}

@[simp] theorem concealing_module (concealment : Concealment) :
    (decompiler.concealing concealment).module = decompiler.module := rfl

@[simp] theorem concealing_concealment (concealment : Concealment) :
    (decompiler.concealing concealment).settings.concealment = concealment := rfl

/-! ## What is built -/

/-- Each element has a result, so there is a list of results. -/
theorem exists_forall₂
    {α β : Type}
    {related : α → β → Prop}
    {elements : List α}
    (each : ∀ element ∈ elements, ∃ result, related element result) :
    ∃ results, List.Forall₂ related elements results := by
  induction elements with
  | nil => exact ⟨[], .nil⟩
  | cons element rest ih =>
      obtain ⟨result, first⟩ := each element List.mem_cons_self
      obtain ⟨results, later⟩ := ih fun other isOther => each other (List.mem_cons_of_mem _ isOther)
      exact ⟨result :: results, .cons first later⟩

/-- A type with a path has a declaration if the depth is enough for the types that are not on its
path. -/
theorem exists_typeNode?_of_ascends
    (own : ListsOwn decompiler.module.types.entries)
    {depth : Nat}
    {type : TypeDefinition}
    {path : List TypeDefinition}
    (member : type ∈ decompiler.module.types.entries)
    (ascends : decompiler.module.Ascends type path)
    (enough : decompiler.module.types.size < depth + path.length) :
    ∃ node, decompiler.typeNode? depth type = .ok node := by
  induction depth generalizing type path with
  | zero =>
      have bound := ascends.length_le_size member
      omega
  | succ depth ih =>
      have found : decompiler.module.typePath? type.token = some path :=
        Module.typePath?_eq_some_iff.2 ⟨type, Module.type?_token member, ascends⟩
      have own_key : decompiler.module.typeKey? type.token
          = some (.ofTypePath (Module.pathSpace path) (path.map (·.name))) := by
        rw [Module.typeKey?, found, Option.map_some]
      by_cases isDelegate : type.kind = .delegateType
      · exact ⟨_, typeNode?_succ_eq_ok_iff.2 ⟨_, own_key, .inl ⟨isDelegate, rfl⟩⟩⟩
      · have each : ∀ token ∈ type.nested, ∃ result, decompiler.NestedNode depth token result := by
          intro token listed
          obtain ⟨inner, isInner, rfl, -⟩ := own type member token listed
          have known := Module.type?_token isInner
          have deeper := ascends.listed own member listed known
          cases hidden : typeHidden decompiler.settings.concealment inner with
          | true => exact ⟨none, .omitted (by simp only [nestedType?, known, hidden, if_true])⟩
          | false =>
              have isFound : decompiler.nestedType? inner.token = .ok (some inner) := by
                simp only [nestedType?, known, hidden, Bool.false_eq_true, if_false]
              obtain ⟨node, built⟩ := ih isInner deeper (by
                rw [List.length_append, List.length_singleton]
                omega)
              exact ⟨some node, .shown isFound built⟩
        obtain ⟨nested, nodes⟩ := exists_forall₂ each
        exact ⟨_, typeNode?_succ_eq_ok_iff.2 ⟨_, own_key, .inr ⟨isDelegate, nested, nodes, rfl⟩⟩⟩

/-- Exactly the types with a path have a declaration. -/
theorem exists_declaration?_iff
    (own : ListsOwn decompiler.module.types.entries)
    {token : Token} :
    (∃ declaration, decompiler.declaration? token = .ok declaration)
      ↔ (decompiler.module.typePath? token).isSome = true := by
  constructor
  · rintro ⟨declaration, built⟩
    obtain ⟨path, _, isPath, -⟩ := declaration?_eq_ok_iff.1 built
    rw [isPath, Option.isSome_some]
  · intro isSome
    obtain ⟨path, isPath⟩ := Option.isSome_iff_exists.1 isSome
    obtain ⟨type, known, ascends⟩ := Module.typePath?_eq_some_iff.1 isPath
    have some_type := List.length_pos_iff.2 ascends.ne_nil
    obtain ⟨node, built⟩ := exists_typeNode?_of_ascends own (TypeTable.mem_of_find? known) ascends
      (show _ < decompiler.module.types.size + 1 + path.length by omega)
    exact ⟨(_, node), declaration?_eq_ok_iff.2 ⟨path, type, isPath, known, built, rfl⟩⟩

/-- Exactly for types with a path a tree is built, whatever is hidden. -/
theorem exists_tree_iff
    {system : TypeSystem}
    (own : ListsOwn system.main.types.entries)
    (settings : Settings)
    (signaturesOnly : Bool)
    (tokens : List Token) :
    (∃ tree, (standard system settings signaturesOnly).types false tokens = .ok tree)
      ↔ ∀ token ∈ tokens, (system.main.typePath? token).isSome = true := by
  have each (token : Token) :=
    @exists_declaration?_iff (standard system settings signaturesOnly) own token
  constructor
  · rintro ⟨tree, built⟩ token isToken
    obtain ⟨declarations, made, -⟩ := (types_eq_ok_iff _ _ _ _ _).1 built
    obtain ⟨declaration, -, isMade⟩ := Success.exists_result made isToken
    exact (each token).1 ⟨declaration, isMade⟩
  · intro paths
    obtain ⟨declarations, made⟩ := exists_forall₂ fun token isToken =>
      (each token).2 (paths token isToken)
    exact ⟨_, (types_eq_ok_iff _ _ _ _ _).2 ⟨declarations, made, rfl⟩⟩

/-! ## Members -/

section Two

variable {less more : Concealment} (within : less.Within more)
include within

theorem fieldNode?_concealing
    (decompiler : Decompiler)
    (symbol : SymbolKey)
    (type : TypeDefinition)
    (field : FieldDefinition) :
    (decompiler.concealing more).fieldNode? symbol type field = none
      ∨ (decompiler.concealing more).fieldNode? symbol type field
        = (decompiler.concealing less).fieldNode? symbol type field := by
  cases hidden : fieldHidden more field with
  | true => exact .inl (if_pos hidden)
  | false =>
      have shown : fieldHidden less field = false := (hides_field field).shown within hidden
      right
      unfold fieldNode?
      simp only [concealing, hidden, shown]

theorem methodNode?_concealing
    (decompiler : Decompiler)
    (symbol : SymbolKey)
    (type : TypeDefinition)
    (method : MethodDefinition) :
    (decompiler.concealing more).methodNode? symbol type method = none
      ∨ (decompiler.concealing more).methodNode? symbol type method
        = (decompiler.concealing less).methodNode? symbol type method := by
  cases hidden : methodHidden more method with
  | true => exact .inl (if_pos (by rw [Bool.or_eq_true]; exact .inr hidden))
  | false =>
      have shown : methodHidden less method = false := (hides_method method).shown within hidden
      right
      unfold methodNode?
      simp only [concealing, hidden, shown]
      rfl

/-- Of the members that are not types, hiding more keeps fewer. -/
theorem sublist_memberNodes
    (decompiler : Decompiler)
    (symbol : SymbolKey)
    (type : TypeDefinition) :
    ((decompiler.concealing more).memberNodes symbol type).Sublist
      ((decompiler.concealing less).memberNodes symbol type) := by
  have fields := sublist_filterMap (fieldNode?_concealing within decompiler symbol type) type.fields
  have methods :=
    sublist_filterMap (methodNode?_concealing within decompiler symbol type) type.methods
  exact ((fields.append (List.Sublist.refl _)).append (List.Sublist.refl _)).append methods

/-! ## Nested types -/

/-- A nested type that is shown where more is hidden is the same type where less is. -/
theorem nestedType?_concealing
    {token : Token}
    {inner : TypeDefinition}
    (isFound : (decompiler.concealing more).nestedType? token = .ok (some inner)) :
    (decompiler.concealing less).nestedType? token = .ok (some inner) := by
  unfold nestedType? at isFound ⊢
  simp only [concealing_module, concealing_concealment] at isFound ⊢
  cases known : decompiler.module.type? token with
  | none =>
      rw [known] at isFound
      dsimp only at isFound
      split at isFound <;> cases isFound
  | some type =>
      rw [known] at isFound
      cases hidden : typeHidden more type with
      | true => simp [hidden] at isFound
      | false =>
          have shown : typeHidden less type = false :=
            (hides_type type).shown within hidden
          simpa [hidden, shown] using isFound

/-- What becomes of nested types where more is hidden is what becomes of some of them, pruned. -/
theorem pruned_nested
    {depth : Nat}
    (inside : ∀ {type fewer whole},
      (decompiler.concealing more).typeNode? depth type = .ok fewer →
      (decompiler.concealing less).typeNode? depth type = .ok whole →
      fewer.Pruned whole)
    {tokens : List Token}
    {fewer whole : List (Option Node)}
    (fewerNodes : List.Forall₂ ((decompiler.concealing more).NestedNode depth) tokens fewer)
    (wholeNodes : List.Forall₂ ((decompiler.concealing less).NestedNode depth) tokens whole) :
    ∃ kept, List.Forall₂ Node.Pruned (fewer.filterMap id) kept
      ∧ kept.Sublist (whole.filterMap id) := by
  induction fewerNodes generalizing whole with
  | nil =>
      cases wholeNodes
      exact ⟨[], .nil, List.Sublist.refl _⟩
  | cons first _ ih =>
      cases wholeNodes with
      | cons other rest =>
          obtain ⟨kept, pruned, sub⟩ := ih rest
          cases first with
          | omitted _ => exact ⟨kept, pruned, sub.trans ((List.sublist_cons_self _ _).filterMap id)⟩
          | shown isFound built =>
              have found := nestedType?_concealing within isFound
              cases other with
              | omitted absent => cases found.symm.trans absent
              | shown isOther builtOther =>
                  obtain rfl := Option.some.inj (Except.ok.inj (found.symm.trans isOther))
                  exact ⟨_ :: kept, .cons (inside built builtOther) pruned, sub.cons_cons _⟩

/-- Hiding more prunes the declaration of a type. -/
theorem pruned_typeNode?
    {depth : Nat}
    {type : TypeDefinition}
    {fewer whole : Node}
    (fewerBuilt : (decompiler.concealing more).typeNode? depth type = .ok fewer)
    (wholeBuilt : (decompiler.concealing less).typeNode? depth type = .ok whole) :
    fewer.Pruned whole := by
  induction depth generalizing type fewer whole with
  | zero => cases fewerBuilt
  | succ depth ih =>
      obtain ⟨symbol, known, fewerShape⟩ := typeNode?_succ_eq_ok_iff.1 fewerBuilt
      obtain ⟨other, alsoKnown, wholeShape⟩ := typeNode?_succ_eq_ok_iff.1 wholeBuilt
      obtain rfl : symbol = other := Option.some.inj (known.symm.trans alsoKnown)
      rcases fewerShape with ⟨isDelegate, rfl⟩ | ⟨notDelegate, fewerNested, fewerNodes, rfl⟩
      · obtain ⟨-, rfl⟩ := wholeShape.resolve_right fun shape => shape.1 isDelegate
        exact .same _
      · obtain ⟨-, nested, nodes, rfl⟩ := wholeShape.resolve_left fun shape => notDelegate shape.1
        obtain ⟨kept, pruned, sub⟩ := pruned_nested within ih fewerNodes nodes
        have others := sublist_memberNodes within decompiler symbol type
        refine .type (List.rel_append pruned ?_) (sub.append others)
        exact List.forall₂_same.2 fun node _ => .same node

/-- Hiding more prunes what becomes of a token, and leaves it in its namespace. -/
theorem pruned_declaration?
    {token : Token}
    {fewer whole : String × Node}
    (fewerBuilt : (decompiler.concealing more).declaration? token = .ok fewer)
    (wholeBuilt : (decompiler.concealing less).declaration? token = .ok whole) :
    fewer.1 = whole.1 ∧ fewer.2.Pruned whole.2 := by
  obtain ⟨path, type, isPath, isType, fewerNode, space⟩ := declaration?_eq_ok_iff.1 fewerBuilt
  obtain ⟨samePath, sameType, alsoPath, alsoType, wholeNode, alsoSpace⟩ :=
    declaration?_eq_ok_iff.1 wholeBuilt
  obtain rfl : path = samePath := Option.some.inj (isPath.symm.trans alsoPath)
  obtain rfl : type = sameType := Option.some.inj (isType.symm.trans alsoType)
  exact ⟨space.trans alsoSpace.symm, pruned_typeNode? within fewerNode wholeNode⟩

end Two

/-! ## Source files -/

/-- Pruned declarations are arranged in the same places. -/
theorem pruned_arranged
    {fewer whole : List (String × Node)}
    (each : List.Forall₂ (fun fewer whole => fewer.1 = whole.1 ∧ fewer.2.Pruned whole.2)
      fewer whole) :
    List.Forall₂ Node.Pruned (arranged fewer) (arranged whole) := by
  have spaces : fewer.map (·.1) = whole.map (·.1) := by
    rw [← List.forall₂_eq_eq_eq, List.forall₂_map_left_iff, List.forall₂_map_right_iff]
    exact each.imp fun _ _ both => both.1
  have chosen (space : String) :
      List.Forall₂ Node.Pruned
        (fewer.filterMap fun declaration =>
          if declaration.1 = space then some declaration.2 else none)
        (whole.filterMap fun declaration =>
          if declaration.1 = space then some declaration.2 else none) := by
    clear spaces
    induction each with
    | nil => exact .nil
    | @cons first other _ _ both _ ih =>
        by_cases here : other.1 = space
        · simp only [List.filterMap_cons, both.1, here, if_true]
          exact .cons both.2 ih
        · simp only [List.filterMap_cons, both.1, here, if_false]
          exact ih
  rw [arranged, arranged, spaces]
  refine List.rel_append (chosen "") ?_
  rw [List.forall₂_map_left_iff, List.forall₂_map_right_iff, List.forall₂_same]
  exact fun space _ => .space (chosen space) (List.Sublist.refl _)

/-- Hiding more prunes the tree of types. -/
theorem pruned_types
    {system : TypeSystem}
    {settings : Settings}
    {less more : Concealment}
    (within : less.Within more)
    {signaturesOnly : Bool}
    {tokens : List Token}
    {fewer whole : SourceUnit}
    (fewerBuilt : (standard system { settings with concealment := more } signaturesOnly).types false
      tokens = .ok fewer)
    (wholeBuilt : (standard system { settings with concealment := less } signaturesOnly).types false
      tokens = .ok whole) :
    fewer.Pruned whole := by
  obtain ⟨fewerDeclarations, fewerEach, rfl⟩ := (types_eq_ok_iff _ _ _ _ _).1 fewerBuilt
  obtain ⟨declarations, each, rfl⟩ := (types_eq_ok_iff _ _ _ _ _).1 wholeBuilt
  have both : List.Forall₂ (fun fewer whole : String × Node =>
      fewer.1 = whole.1 ∧ fewer.2.Pruned whole.2) fewerDeclarations declarations := by
    clear fewerBuilt wholeBuilt
    induction fewerEach generalizing declarations with
    | nil =>
        cases each
        exact .nil
    | cons first _ ih =>
        cases each with
        | cons other rest =>
            exact .cons (@pruned_declaration? (standard system settings signaturesOnly) _ _ within
              _ _ _ first other) (ih _ rest)
  refine ⟨rfl, List.forall₂_map_left_iff.2 (List.forall₂_map_right_iff.2 ?_)⟩
  exact (pruned_arranged both).imp fun _ _ pruned => pruned.polished

/-- In a module that is built, a list of types has a tree if and only if each of them has a path,
whatever is hidden. Where more is hidden the tree is pruned, so its keys are among those of the
whole tree. Nothing is hidden where no artifact is chosen, and nothing ever but what a compiler
generated. -/
theorem hiding_antitone_and_conservative
    {name : String}
    {identity : Identity}
    {operations : List Operation}
    {builder : Builder}
    (performed : (Builder.new name identity).performAll operations = .ok builder)
    (referenced : List Module)
    (settings : Settings)
    (less more : Concealment)
    (within : less.Within more)
    (signaturesOnly : Bool)
    (tokens : List Token) :
    (∀ concealment,
        (∃ tree, (standard ⟨builder.build, referenced⟩ { settings with concealment := concealment }
          signaturesOnly).types false tokens = .ok tree)
        ↔ ∀ token ∈ tokens, (builder.build.typePath? token).isSome = true)
      ∧ (∀ fewer whole,
        (standard ⟨builder.build, referenced⟩ { settings with concealment := more }
          signaturesOnly).types false tokens = .ok fewer →
        (standard ⟨builder.build, referenced⟩ { settings with concealment := less }
          signaturesOnly).types false tokens = .ok whole →
        fewer.Pruned whole
          ∧ (∀ key, fewer.Declares key → whole.Declares key)
          ∧ ∀ format, ∀ key ∈ (fewer.render format).symbols.keys,
            key ∈ (whole.render format).symbols.keys)
      ∧ ((∀ type, typeHidden (.all false) type = false)
        ∧ (∀ field, fieldHidden (.all false) field = false)
        ∧ (∀ method, methodHidden (.all false) method = false)
        ∧ ∀ token, memberHidden (.all false) builder.build token = false)
      ∧ ∀ concealment token, memberHidden concealment builder.build token = true →
        ∃ attributes name, Defines builder.build token attributes name
          ∧ Generated attributes name := by
  have own := Builder.listsOwn_build performed
  refine ⟨fun concealment => ?_, fun fewer whole fewerBuilt wholeBuilt => ?_,
    ⟨fun type => (hides_type type).none, fun field => (hides_field field).none,
      fun method => (hides_method method).none, memberHidden_none builder.build⟩,
    fun _ _ => exists_defines_of_memberHidden⟩
  · exact @exists_tree_iff ⟨builder.build, referenced⟩ own
      { settings with concealment := concealment } signaturesOnly tokens
  · have pruned := pruned_types within fewerBuilt wholeBuilt
    exact ⟨pruned, fun _ => pruned.declares, pruned.keys_render⟩

/-- Makes a type with a property, its field, and the method of a closure. -/
def closureSample : List Operation :=
  [.step (.addType "Shop" "Order" [
      .field "<Total>k__BackingField" (.primitive .int32) .ownType .none,
      .property "Total" (.primitive .int32) true false,
      .method (.named "<Print>b__0")]),
    .step (.addNested (.ofRow .typeDefinition 2) "<>c" [.method (.named "Run")])]

/-- Of the six declarations of the whole tree two are left when all artifacts are hidden. -/
theorem hiding_antitone_and_conservative_closureSample :
    ∃ (builder : Builder) (fewer whole : SourceUnit),
      (Builder.new "Shop.dll" (.ofName "Shop" .unspecified)).performAll closureSample = .ok builder
        ∧ Concealment.Within (.all false) (.all true)
        ∧ (standard ⟨builder.build, []⟩ .default false).types false [.ofRow .typeDefinition 2]
          = .ok fewer
        ∧ (standard ⟨builder.build, []⟩ .showGenerated false).types false [.ofRow .typeDefinition 2]
          = .ok whole
        ∧ fewer.declarations.length = 2
        ∧ whole.declarations.length = 6
        ∧ fewer.Pruned whole
        ∧ ∀ format, ∀ key ∈ (fewer.render format).symbols.keys,
          key ∈ (whole.render format).symbols.keys := by
  have passes : ((Builder.new "Shop.dll" (.ofName "Shop" .unspecified)).performAll
      closureSample).toOption.any (fun builder =>
        ((standard ⟨builder.build, []⟩ .default false).types false
          [.ofRow .typeDefinition 2]).toOption.any (fun fewer =>
            decide (fewer.declarations.length = 2))
        && ((standard ⟨builder.build, []⟩ .showGenerated false).types false
          [.ofRow .typeDefinition 2]).toOption.any (fun whole =>
            decide (whole.declarations.length = 6))) = true := by
    decide +kernel
  obtain ⟨builder, isBuilder, both⟩ := Success.exists_ok_of_any passes
  obtain ⟨passesFewer, passesWhole⟩ := Bool.and_eq_true_iff.1 both
  obtain ⟨fewer, isFewer, two⟩ := Success.exists_ok_of_any passesFewer
  obtain ⟨whole, isWhole, six⟩ := Success.exists_ok_of_any passesWhole
  have within : Concealment.Within (.all false) (.all true) := fun _ chosen => nomatch chosen
  obtain ⟨-, pruned, -, -⟩ := hiding_antitone_and_conservative isBuilder [] .default (.all false)
    (.all true) within false [.ofRow .typeDefinition 2]
  obtain ⟨isPruned, -, keys⟩ := pruned fewer whole isFewer isWhole
  exact ⟨builder, fewer, whole, isBuilder, within, isFewer, isWhole, of_decide_eq_true two,
    of_decide_eq_true six, isPruned, keys⟩

end Decompiler

end Declaration
end AssemblyAtlas
