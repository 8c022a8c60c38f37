import AssemblyAtlas.Proofs.Assembly.Nesting
import AssemblyAtlas.Proofs.Declaration.SeveralTypes
import AssemblyAtlas.Proofs.Declaration.TypeNodes
import Mathlib.Data.List.Chain
import Mathlib.Logic.Relation

/-!
# Stubs of malformed nesting

A stub goes down along the lists of nested types, while the keys of types go up along their
enclosing types. In a module that nobody has checked, these need not agree. Listed types without a
definition are left out. A listed type that has one must have a path of its own, and no type may
lead back to itself: these two are exactly what a stub needs.

* `foundTypes` are the nested types that a stub keeps, and `Holds` relates a type to each of them;
* `StubOf` relates a type to its stub, and `Unfolds` says that all below a type is sound;
* `Decompiler.failure_of_typeNode?` says how a stub fails;
* `Decompiler.exists_types_iff` is about the stub of a token.
-/

namespace AssemblyAtlas
namespace Declaration

open Assembly
open Syntax

/-- The definition of a nested type, if there is one that is not hidden. -/
def foundType?
    (module : Module)
    (concealment : Concealment)
    (token : Token) :
    Option TypeDefinition :=
  (module.type? token).filter (!typeHidden concealment ·)

/-- The nested types of a type that have such a definition, as the type lists them. -/
def foundTypes
    (module : Module)
    (concealment : Concealment)
    (type : TypeDefinition) :
    List TypeDefinition :=
  type.nested.filterMap (foundType? module concealment)

/-- The declaration of the first type is to hold that of the second. -/
def Holds (module : Module) (concealment : Concealment) (outer inner : TypeDefinition) : Prop :=
  outer.kind ≠ .delegateType ∧ inner ∈ foundTypes module concealment outer

/-- The types that the declaration of a type is to hold at any depth, the type itself included, have
paths, and none of them leads back to itself. -/
structure Unfolds (module : Module) (concealment : Concealment) (type : TypeDefinition) : Prop where
  paths : ∀ inner, Relation.ReflTransGen (Holds module concealment) type inner →
    (module.typePath? inner.token).isSome
  acyclic : ∀ inner, Relation.ReflTransGen (Holds module concealment) type inner →
    ¬ Relation.TransGen (Holds module concealment) inner inner

/-- What goes wrong with a type that does not unfold. -/
inductive Fault (module : Module) (concealment : Concealment) (type : TypeDefinition) :
    Failure → Prop
  | pathless {inner : TypeDefinition} :
      Relation.ReflTransGen (Holds module concealment) type inner →
      module.typePath? inner.token = none →
      Fault module concealment type (.typeNotFound inner.token)
  | endless {inner : TypeDefinition} {last : Token} :
      Relation.ReflTransGen (Holds module concealment) type inner →
      Relation.TransGen (Holds module concealment) inner inner →
      Fault module concealment type (.endlessNesting last)

/-- The declaration is that of the type with whatever of its nested types is found. Of a delegate no
members are shown. -/
inductive StubOf (decompiler : Decompiler) : TypeDefinition → Node → Prop
  | delegate {type : TypeDefinition} {symbol : SymbolKey} :
      type.kind = .delegateType →
      decompiler.module.typeKey? type.token = some symbol →
      StubOf decompiler type (.type (decompiler.typeHead symbol type) [])
  | members {type : TypeDefinition} {symbol : SymbolKey} {nested : List Node} :
      type.kind ≠ .delegateType →
      decompiler.module.typeKey? type.token = some symbol →
      List.Forall₂ (StubOf decompiler)
        (foundTypes decompiler.module decompiler.settings.concealment type) nested →
      StubOf decompiler type
        (.type (decompiler.typeHead symbol type) (nested ++ decompiler.memberNodes symbol type))

section Nesting

variable {module : Module} {concealment : Concealment} {type inner : TypeDefinition}

theorem mem_of_holds
    (holds : Holds module concealment type inner) :
    inner ∈ module.types.entries := by
  obtain ⟨token, -, found⟩ := List.mem_filterMap.1 holds.2
  exact TypeTable.mem_of_find? (Option.filter_eq_some_iff.1 found).1

/-- A type unfolds if it has a path and all that it holds unfolds. -/
theorem Unfolds.intro
    (own : (module.typePath? type.token).isSome)
    (below : ∀ inner, Holds module concealment type inner → Unfolds module concealment inner) :
    Unfolds module concealment type := by
  constructor
  · intro inner reached
    rcases reached.cases_head with rfl | ⟨between, holds, further⟩
    · exact own
    · exact (below between holds).paths inner further
  · intro inner reached
    rcases reached.cases_head with rfl | ⟨between, holds, further⟩
    · intro cycle
      -- The next type on a cycle lies on the same cycle.
      obtain ⟨next, holds, back⟩ := Relation.TransGen.head'_iff.1 cycle
      exact (below next holds).acyclic next .refl (.tail' back holds)
    · exact (below between holds).acyclic inner further

/-- Where no type leads back to itself, a chain of types is not longer than the module. -/
theorem length_le_size_of_isChain
    (acyclic : ∀ inner, Relation.ReflTransGen (Holds module concealment) type inner →
      ¬ Relation.TransGen (Holds module concealment) inner inner)
    (member : type ∈ module.types.entries)
    {chain : List TypeDefinition}
    (chained : List.IsChain (Holds module concealment) (type :: chain)) :
    (type :: chain).length ≤ module.types.size := by
  have pairs : (type :: chain).Pairwise (Relation.TransGen (Holds module concealment)) :=
    (chained.imp fun _ _ => Relation.TransGen.single).pairwise
  have reached : ∀ other ∈ type :: chain,
      Relation.ReflTransGen (Holds module concealment) type other := by
    intro other isOther
    rcases List.mem_cons.1 isOther with rfl | behind
    · exact .refl
    · exact (List.rel_of_pairwise_cons pairs behind).to_reflTransGen
  have entries : ∀ other ∈ type :: chain, other ∈ module.types.entries := by
    intro other isOther
    rcases (reached other isOther).cases_tail with rfl | ⟨_, -, holds⟩
    · exact member
    · exact mem_of_holds holds
  have nodup : ((type :: chain).map (·.token)).Nodup := by
    refine List.pairwise_map.2 (pairs.imp_of_mem fun {left right} isLeft isRight leads same => ?_)
    obtain rfl := Module.eq_of_token_eq (entries left isLeft) (entries right isRight) same
    exact acyclic left (reached left isLeft) leads
  rw [← List.length_map (·.token)]
  refine Module.length_le_size nodup fun token isToken => ?_
  obtain ⟨other, isOther, rfl⟩ := List.mem_map.1 isToken
  rw [Module.type?_token (entries other isOther), Option.isSome_some]

theorem Fault.not_unfolds
    {failure : Failure}
    (fault : Fault module concealment type failure) :
    ¬ Unfolds module concealment type := by
  intro unfolds
  cases fault with
  | pathless reached pathless =>
      have path := unfolds.paths _ reached
      rw [pathless] at path
      exact Bool.false_ne_true path
  | endless reached cycle => exact unfolds.acyclic _ reached cycle

end Nesting

namespace StubOf

variable {decompiler : Decompiler} {type : TypeDefinition} {node : Node}

/-- What holds of a type and its stub if it holds of those inside, holds of all stubs. -/
theorem induct
    {motive : TypeDefinition → Node → Prop}
    (delegate : ∀ {type symbol},
      type.kind = .delegateType → decompiler.module.typeKey? type.token = some symbol →
        motive type (.type (decompiler.typeHead symbol type) []))
    (members : ∀ {type symbol nested},
      type.kind ≠ .delegateType → decompiler.module.typeKey? type.token = some symbol →
        List.Forall₂ motive
          (foundTypes decompiler.module decompiler.settings.concealment type) nested →
        motive type
          (.type (decompiler.typeHead symbol type) (nested ++ decompiler.memberNodes symbol type)))
    (stub : StubOf decompiler type node) :
    motive type node := by
  refine @StubOf.rec decompiler (fun type node _ => motive type node)
    (fun types nodes _ => List.Forall₂ motive types nodes) ?_ ?_ ?_ ?_ type node stub
  · exact delegate
  · intro type symbol nested notDelegate own _ inner
    exact members notDelegate own inner
  · exact .nil
  · intro type node types nodes _ _ first rest
    exact .cons first rest

/-- A type with a stub unfolds. -/
theorem unfolds
    (stub : StubOf decompiler type node) :
    Unfolds decompiler.module decompiler.settings.concealment type := by
  have path {type : TypeDefinition} {symbol : SymbolKey}
      (own : decompiler.module.typeKey? type.token = some symbol) :
      (decompiler.module.typePath? type.token).isSome := by
    obtain ⟨path, found, -⟩ := Option.map_eq_some_iff.1 own
    rw [found, Option.isSome_some]
  refine stub.induct (motive := fun type _ =>
    Unfolds decompiler.module decompiler.settings.concealment type) ?_ ?_
  · intro type symbol isDelegate own
    exact .intro (path own) fun _ holds => absurd isDelegate holds.1
  · intro type symbol nested _ own each
    refine .intro (path own) fun inner holds => ?_
    obtain ⟨-, -, unfolds⟩ := Success.exists_result each holds.2
    exact unfolds

end StubOf

namespace Decompiler

variable {decompiler : Decompiler}

/-- Without bodies, looking a nested type up never fails. -/
theorem nestedType?_of_signaturesOnly
    (stubs : decompiler.signaturesOnly = true)
    (token : Token) :
    decompiler.nestedType? token
      = .ok (foundType? decompiler.module decompiler.settings.concealment token) := by
  rw [nestedType?, foundType?]
  cases decompiler.module.type? token with
  | none => simp [stubs]
  | some type =>
      cases hidden : typeHidden decompiler.settings.concealment type <;>
        simp [Option.filter, hidden]

/-- The source file of one type is made of its declaration. -/
theorem types_singleton
    (token : Token) :
    decompiler.types false [token]
      = (decompiler.declaration? token).map fun declaration =>
          Transform.runAll decompiler.transforms ⟨[], arranged [declaration]⟩ := by
  rw [types]
  cases declared : decompiler.declaration? token <;>
    simp [declared, bind, Except.bind, Except.map, pure, Except.pure]

/-- The declarations of the nested types are those of the found ones. -/
theorem forall₂_foundType?
    (stubs : decompiler.signaturesOnly = true)
    {depth : Nat}
    {tokens : List Token}
    {nested : List (Option Node)}
    (each : List.Forall₂ (decompiler.NestedNode depth) tokens nested) :
    List.Forall₂ (fun inner node => decompiler.typeNode? depth inner = .ok node)
      (tokens.filterMap (foundType? decompiler.module decompiler.settings.concealment))
      (nested.filterMap id) := by
  induction each with
  | nil => exact .nil
  | cons first _ ih =>
      cases first with
      | omitted isFound =>
          rw [nestedType?_of_signaturesOnly stubs] at isFound
          rw [List.filterMap_cons_none (Except.ok.inj isFound), List.filterMap_cons_none rfl]
          exact ih
      | shown isFound built =>
          rw [nestedType?_of_signaturesOnly stubs] at isFound
          rw [List.filterMap_cons_some (Except.ok.inj isFound)]
          exact .cons built ih

/-- What is built without bodies is the stub of the type. -/
theorem stubOf_of_typeNode?
    (stubs : decompiler.signaturesOnly = true)
    {depth : Nat}
    {type : TypeDefinition}
    {node : Node}
    (built : decompiler.typeNode? depth type = .ok node) :
    StubOf decompiler type node := by
  induction depth generalizing type node with
  | zero => cases built
  | succ depth ih =>
      obtain ⟨symbol, own, h⟩ := typeNode?_succ_eq_ok_iff.1 built
      rcases h with ⟨isDelegate, rfl⟩ | ⟨notDelegate, nested, each, rfl⟩
      · exact .delegate isDelegate own
      · exact .members notDelegate own ((forall₂_foundType? stubs each).imp fun _ _ => ih)

/-- A stub fails at a type without a path, or at the end of a chain of types that is as long as the
depth. -/
theorem failure_of_typeNode?
    (stubs : decompiler.signaturesOnly = true)
    {depth : Nat}
    {type : TypeDefinition}
    {failure : Failure}
    (failed : decompiler.typeNode? depth type = .error failure) :
    (∃ inner,
      Relation.ReflTransGen (Holds decompiler.module decompiler.settings.concealment) type inner
        ∧ decompiler.module.typePath? inner.token = none
        ∧ failure = .typeNotFound inner.token)
      ∨ ∃ chain last, chain.length = depth
        ∧ List.IsChain (Holds decompiler.module decompiler.settings.concealment) (type :: chain)
        ∧ failure = .endlessNesting last := by
  induction depth generalizing type with
  | zero => exact Or.inr ⟨[], type.token, rfl, .singleton type, (Except.error.inj failed).symm⟩
  | succ depth ih =>
      rw [typeNode?] at failed
      cases own : decompiler.module.typeKey? type.token with
      | none =>
          rw [own] at failed
          exact Or.inl ⟨type, .refl, Option.map_eq_none_iff.1 own, (Except.error.inj failed).symm⟩
      | some symbol =>
          rw [own] at failed
          by_cases isDelegate : type.kind = .delegateType
          · simp [isDelegate, pure, Except.pure] at failed
          · simp only [isDelegate, ↓reduceIte, Success.bind_eq_error_iff] at failed
            -- One of the nested types fails, and only its own declaration can.
            rcases failed with nested | ⟨_, -, done⟩
            · obtain ⟨token, isNested, failed⟩ := Success.exists_of_mapM_eq_error nested
              rw [nestedType?_of_signaturesOnly stubs] at failed
              cases found : foundType? decompiler.module decompiler.settings.concealment token with
              | none =>
                  rw [found] at failed
                  cases failed
              | some inner =>
                  rw [found] at failed
                  have holds : Holds decompiler.module decompiler.settings.concealment type inner :=
                    ⟨isDelegate, List.mem_filterMap.2 ⟨token, isNested, found⟩⟩
                  change (decompiler.typeNode? depth inner >>= fun node => .ok (some node))
                    = .error failure at failed
                  rcases Success.bind_eq_error_iff.1 failed with built | ⟨_, -, done⟩
                  · rcases ih built with
                      ⟨last, reached, pathless, rfl⟩ | ⟨chain, last, length, chained, rfl⟩
                    · exact Or.inl ⟨last, .head holds reached, pathless, rfl⟩
                    · exact Or.inr ⟨inner :: chain, last, congrArg (· + 1) length,
                        List.isChain_cons_cons.2 ⟨holds, chained⟩, rfl⟩
                  · exact absurd done Success.ok_ne_error
            · exact absurd done Success.ok_ne_error

/-- Where a declaration fails, its type is at fault: a chain of types longer than the module leads
back to itself. -/
theorem fault_of_declaration?
    (stubs : decompiler.signaturesOnly = true)
    {token : Token}
    {path : List TypeDefinition}
    (found : decompiler.module.typePath? token = some path)
    {type : TypeDefinition}
    (known : decompiler.module.type? token = some type)
    {failure : Failure}
    (failed : decompiler.declaration? token = .error failure) :
    Fault decompiler.module decompiler.settings.concealment type failure := by
  have built : decompiler.typeNode? (decompiler.module.types.size + 1) type = .error failure := by
    cases built : decompiler.typeNode? (decompiler.module.types.size + 1) type with
    | error other =>
        obtain ⟨last, isLast, ascended⟩ := Option.bind_eq_some_iff.1 found
        obtain rfl := Option.some.inj (known.symm.trans isLast)
        rw [declaration?, found] at failed
        simp only [Module.getLast?_of_ascend ascended, built] at failed
        exact congrArg Except.error (Except.error.inj failed)
    | ok node =>
        have declared : decompiler.declaration? token = .ok (Module.pathSpace path, node) :=
          declaration?_eq_ok_iff.2 ⟨path, type, found, known, built, rfl⟩
        exact absurd (declared.symm.trans failed) Success.ok_ne_error
  rcases failure_of_typeNode? stubs built with
    ⟨inner, reached, pathless, rfl⟩ | ⟨chain, last, length, chained, rfl⟩
  · exact .pathless reached pathless
  · by_contra none
    have short := length_le_size_of_isChain
      (fun inner reached cycle => none (.endless reached cycle))
      (TypeTable.mem_of_find? known) chained
    rw [List.length_cons] at short
    omega

/-- A token with a path has a stub exactly if its type unfolds. The stub keeps whatever is found
below the type, and all that can go wrong is that a type below has no path or leads back to
itself. -/
theorem exists_types_iff
    (decompiler : Decompiler)
    (stubs : decompiler.signaturesOnly = true)
    (token : Token)
    (path : List TypeDefinition)
    (found : decompiler.module.typePath? token = some path) :
    ∃ type, decompiler.module.type? token = some type
      ∧ ((∃ tree, decompiler.types false [token] = .ok tree)
        ↔ Unfolds decompiler.module decompiler.settings.concealment type)
      ∧ (∀ tree, decompiler.types false [token] = .ok tree →
          ∃ node, StubOf decompiler type node
            ∧ tree = Transform.runAll decompiler.transforms
                ⟨[], arranged [(Module.pathSpace path, node)]⟩)
      ∧ ∀ failure, decompiler.types false [token] = .error failure →
          Fault decompiler.module decompiler.settings.concealment type failure := by
  obtain ⟨type, known, -⟩ := Option.bind_eq_some_iff.1 found
  cases declared : decompiler.declaration? token with
  | error failure =>
      have failed : decompiler.types false [token] = .error failure := by
        rw [types_singleton, declared]
        rfl
      have fault := fault_of_declaration? stubs found known declared
      refine ⟨type, known, ⟨?_, fun unfolds => ?_⟩, ?_, ?_⟩
      · rintro ⟨tree, built⟩
        exact absurd (built.symm.trans failed) Success.ok_ne_error
      · exact absurd unfolds fault.not_unfolds
      · intro tree built
        exact absurd (built.symm.trans failed) Success.ok_ne_error
      · intro other otherwise
        obtain rfl := Except.error.inj (failed.symm.trans otherwise)
        exact fault
  | ok declaration =>
      obtain ⟨other, sameType, isPath, isType, made, space⟩ := declaration?_eq_ok_iff.1 declared
      obtain rfl := Option.some.inj (found.symm.trans isPath)
      obtain rfl := Option.some.inj (known.symm.trans isType)
      have built : decompiler.types false [token]
          = .ok (Transform.runAll decompiler.transforms ⟨[], arranged [declaration]⟩) := by
        rw [types_singleton, declared]
        rfl
      have stub := stubOf_of_typeNode? stubs made
      refine ⟨type, known, iff_of_true ⟨_, built⟩ stub.unfolds, ?_, ?_⟩
      · intro tree isTree
        obtain rfl := Except.ok.inj (built.symm.trans isTree)
        exact ⟨declaration.2, stub, by rw [← space]⟩
      · intro failure failed
        exact absurd (built.symm.trans failed) Success.ok_ne_error

/-- A type that lists a nested type, and one that is nowhere to be found. -/
def danglingSample : Module :=
  .ofTypes [
    { TypeDefinition.bare (.ofRow .typeDefinition 2) "Shop" "Order" with
      nested := [.ofRow .typeDefinition 3, .ofRow .typeDefinition 4095] },
    { TypeDefinition.bare (.ofRow .typeDefinition 3) "" "Line" with
      enclosing := some (.ofRow .typeDefinition 2) }]

/-- The nested type that is nowhere to be found is left out of the stub, the other one is kept. -/
theorem exists_types_danglingSample :
    ∃ path type node tree,
      (standard ⟨danglingSample, []⟩ .default true).signaturesOnly = true
        ∧ danglingSample.typePath? (.ofRow .typeDefinition 2) = some path
        ∧ danglingSample.type? (.ofRow .typeDefinition 2) = some type
        ∧ Unfolds danglingSample Settings.default.concealment type
        ∧ StubOf (standard ⟨danglingSample, []⟩ .default true) type node
        ∧ (standard ⟨danglingSample, []⟩ .default true).types false [.ofRow .typeDefinition 2]
            = .ok tree
        ∧ tree = Transform.runAll [.dropCompliance, .escape]
            ⟨[], arranged [(Module.pathSpace path, node)]⟩ := by
  have path : (danglingSample.typePath? (.ofRow .typeDefinition 2)).isSome = true := by
    decide +kernel
  obtain ⟨path, found⟩ := Option.isSome_iff_exists.1 path
  have passes : ((standard ⟨danglingSample, []⟩ .default true).types false
      [.ofRow .typeDefinition 2]).toOption.any (fun _ => true) = true := by
    decide +kernel
  obtain ⟨tree, built, -⟩ := Success.exists_ok_of_any passes
  obtain ⟨type, known, unfolds, kept, -⟩ := exists_types_iff
    (standard ⟨danglingSample, []⟩ .default true) rfl (.ofRow .typeDefinition 2) path found
  obtain ⟨node, stub, same⟩ := kept tree built
  exact ⟨path, type, node, tree, rfl, found, known, unfolds.1 ⟨tree, built⟩, stub, built, same⟩

/-- A type that lists a nested type, which itself names another as the one around it. -/
def astraySample : Module :=
  .ofTypes [
    { TypeDefinition.bare (.ofRow .typeDefinition 2) "Shop" "Order" with
      nested := [.ofRow .typeDefinition 3] },
    { TypeDefinition.bare (.ofRow .typeDefinition 3) "" "Line" with
      enclosing := some (.ofRow .typeDefinition 50) }]

/-- The type has a path, but no stub: not even as much of it is shown as there is. -/
theorem no_stub_astraySample :
    (astraySample.typePath? (.ofRow .typeDefinition 2)).isSome = true
      ∧ (standard ⟨astraySample, []⟩ .default true).types false [.ofRow .typeDefinition 2]
          = .error (.typeNotFound (.ofRow .typeDefinition 3)) := by
  constructor
  · decide +kernel
  · rfl

end Decompiler

end Declaration
end AssemblyAtlas
