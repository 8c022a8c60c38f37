import AssemblyAtlas.Declaration.Spelling
import AssemblyAtlas.Proofs.Assembly.Lookup
import AssemblyAtlas.Proofs.Syntax.Mentions
import AssemblyAtlas.Syntax.Visit

/-!
# References that spelling keeps

A signature refers to types, and the type that spells it names types. As long as only named types
take arguments, these are the same: a visit of the spelled type meets the definitions behind the
references, one by one and in their order. A generic signature with another base is spelled as its
base alone, and the references in its arguments are lost.

* `Signature.HasNamedBases` says that only named types take arguments, and
  `TypeSystem.mentions_typeNode` that nothing is lost then; `TypeSystem.mentions_sublist` says that
  nothing is ever added;
* `TypeSystem.spellOr` spells by keyword first, then by shape, and has a last resort for what is
  left; `TypeSystem.spellOr_eq` says that nothing is left;
* `KeywordsFrom` says that the keywords in a spelled type are those of its signature;
* `TypeSystem.references_kept` puts these together.
-/

namespace AssemblyAtlas

/-! ## The parts of a signature -/

namespace Assembly
namespace Signature

mutual

/-- A signature and the signatures inside it. -/
def parts : Signature → List Signature
  | generic base arguments => generic base arguments :: (base.parts ++ partsOfAll arguments)
  | vector element => vector element :: element.parts
  | array element rank => array element rank :: element.parts
  | pointer target => pointer target :: target.parts
  | byReference target => byReference target :: target.parts
  | primitive kind => [primitive kind]
  | reference type => [reference type]
  | value type => [value type]
  | typeParameter index => [typeParameter index]
  | methodParameter index => [methodParameter index]

/-- Signatures and the signatures inside them. -/
def partsOfAll : List Signature → List Signature
  | [] => []
  | signature :: rest => signature.parts ++ partsOfAll rest

end

/-- The signature is that of a named type. -/
inductive IsNamed : Signature → Prop
  | reference (type : TypeReference) : IsNamed (.reference type)
  | value (type : TypeReference) : IsNamed (.value type)

/-- Among the signatures, only those of named types take arguments. -/
def NamedBases (signatures : List Signature) : Prop :=
  ∀ base arguments, generic base arguments ∈ signatures → base.IsNamed

/-- Only named types take arguments, wherever they stand in the signature. -/
def HasNamedBases (signature : Signature) : Prop :=
  NamedBases signature.parts

theorem NamedBases.of_cons
    {signature : Signature}
    {rest : List Signature}
    (named : NamedBases (signature :: rest)) :
    NamedBases rest :=
  fun base arguments inside => named base arguments (List.mem_cons_of_mem _ inside)

theorem namedBases_append_iff
    {left right : List Signature} :
    NamedBases (left ++ right) ↔ NamedBases left ∧ NamedBases right := by
  constructor
  · intro named
    exact ⟨fun base arguments inside => named base arguments (List.mem_append_left _ inside),
      fun base arguments inside => named base arguments (List.mem_append_right _ inside)⟩
  · rintro ⟨inLeft, inRight⟩ base arguments inside
    rcases List.mem_append.1 inside with left | right
    · exact inLeft base arguments left
    · exact inRight base arguments right

/-- The base is that of a named type, and the same holds of the generic signatures in the
arguments. -/
theorem HasNamedBases.of_generic
    {base : Signature}
    {arguments : List Signature}
    (named : (generic base arguments).HasNamedBases) :
    base.IsNamed ∧ NamedBases (partsOfAll arguments) := by
  refine ⟨named base arguments ?_, (namedBases_append_iff.1 named.of_cons).2⟩
  rw [parts]
  exact List.mem_cons_self

end Signature
end Assembly

/-! ## The named types of a type -/

namespace Syntax

/-- What is known about the definition behind a visited type, if it is a named one. -/
def Visit.resolved? : Visit → Option ResolvedType
  | .type (.named _ _ resolved) => some resolved
  | _ => none

/-- What is known about the definitions behind the named types of a type, in the order of a
visit. -/
def TypeNode.namedTypes (type : TypeNode) : List ResolvedType :=
  type.visits.filterMap Visit.resolved?

mutual

/-- A visit finds the named types of a type in the order in which they are written. -/
theorem TypeNode.namedTypes_eq :
    (type : TypeNode) → type.namedTypes = type.mentions.map (·.resolved)
  | .primitive _ => rfl
  | .named _ arguments resolved =>
      congrArg (resolved :: ·) (TypeNode.filterMap_visitsOfAll arguments)
  | .array element _ => TypeNode.namedTypes_eq element
  | .pointer target => TypeNode.namedTypes_eq target
  | .byReference target => TypeNode.namedTypes_eq target
  | .parameter _ => rfl

theorem TypeNode.filterMap_visitsOfAll :
    (types : List TypeNode) →
      (TypeNode.visitsOfAll types).filterMap Visit.resolved?
        = (TypeNode.mentionsOfAll types).map (·.resolved)
  | [] => rfl
  | type :: rest => by
      rw [TypeNode.visitsOfAll, TypeNode.mentionsOfAll, List.filterMap_append, List.map_append,
        ← TypeNode.namedTypes_eq type, ← TypeNode.filterMap_visitsOfAll rest]
      rfl

end

end Syntax

namespace Declaration

open Assembly
open Syntax

/-! ## Keywords -/

/-- The keywords among the visited types are those of the signatures. -/
def KeywordsFrom (signatures : List Signature) (visits : List Visit) : Prop :=
  ∀ keyword, Visit.type (.primitive keyword) ∈ visits →
    ∃ signature ∈ signatures, signature.keyword? = some keyword

namespace KeywordsFrom

variable {signatures : List Signature} {visits : List Visit}

theorem mono
    (keywords : KeywordsFrom signatures visits)
    {more : List Signature}
    (subset : signatures ⊆ more) :
    KeywordsFrom more visits := by
  intro keyword visited
  obtain ⟨signature, isSignature, own⟩ := keywords keyword visited
  exact ⟨signature, subset isSignature, own⟩

theorem cons
    (keywords : KeywordsFrom signatures visits)
    {signature : Signature}
    {visit : Visit}
    (other : ∀ keyword, visit ≠ .type (.primitive keyword)) :
    KeywordsFrom (signature :: signatures) (visit :: visits) := by
  intro keyword visited
  rcases List.mem_cons.1 visited with same | later
  · exact (other keyword same.symm).elim
  · exact keywords.mono (List.subset_cons_self _ _) keyword later

theorem append
    (keywords : KeywordsFrom signatures visits)
    {others : List Signature}
    {behind : List Visit}
    (later : KeywordsFrom others behind) :
    KeywordsFrom (signatures ++ others) (visits ++ behind) := by
  intro keyword visited
  rcases List.mem_append.1 visited with inFront | inBack
  · exact keywords.mono (List.subset_append_left _ _) keyword inFront
  · exact later.mono (List.subset_append_right _ _) keyword inBack

end KeywordsFrom

namespace TypeSystem

variable (system : TypeSystem)

/-! ## Spelling with a last resort -/

mutual

/-- Spells a signature by its keyword if it has one, and by its shape if not. What has neither is
spelled as a last resort says; if this is nothing, neither is what it stands in. -/
def spellOr (lastResort : Option TypeNode) (scope : Scope) (signature : Signature) :
    Option TypeNode :=
  match signature.keyword? with
  | some keyword => some (.primitive keyword)
  | none =>
      match signature with
      | .reference type => some (system.named type [])
      | .value type => some (system.named type [])
      | .generic base arguments => do
          let arguments ← spellAllOr lastResort scope arguments
          match base with
          | .reference type => some (system.named type arguments)
          | .value type => some (system.named type arguments)
          | _ => spellOr lastResort scope base
      | .vector element => do return .array (← spellOr lastResort scope element) 1
      | .array element rank => do return .array (← spellOr lastResort scope element) rank
      | .pointer target => do return .pointer (← spellOr lastResort scope target)
      | .byReference target => do return .byReference (← spellOr lastResort scope target)
      | .typeParameter index => some (.parameter (parameterName scope.ofType "T" index))
      | .methodParameter index => some (.parameter (parameterName scope.ofMethod "M" index))
      | _ => lastResort

/-- Spells signatures with a last resort. -/
def spellAllOr (lastResort : Option TypeNode) (scope : Scope) :
    List Signature → Option (List TypeNode)
  | [] => some []
  | signature :: rest => do
      let type ← spellOr lastResort scope signature
      return type :: (← spellAllOr lastResort scope rest)

end

mutual

/-- The last resort is never needed: each signature has a keyword or one of the shapes. This
includes the arguments of a generic signature whose base does not take them. -/
theorem spellOr_eq (lastResort : Option TypeNode) (scope : Scope) :
    (signature : Signature) →
      system.spellOr lastResort scope signature = some (system.typeNode scope signature)
  | .primitive _ | .reference _ | .value _ | .typeParameter _ | .methodParameter _ => rfl
  | .generic base arguments => by
      have spelled := spellAllOr_eq lastResort scope arguments
      have alone := spellOr_eq lastResort scope base
      rw [spellOr]
      simp only [Signature.keyword?, spelled, Option.bind_eq_bind, Option.bind_some]
      cases base with
      | reference type | value type => rfl
      | _ => exact alone
  | .vector element => by
      rw [spellOr, spellOr_eq lastResort scope element]
      rfl
  | .array element rank => by
      rw [spellOr, spellOr_eq lastResort scope element]
      rfl
  | .pointer target => by
      rw [spellOr, spellOr_eq lastResort scope target]
      rfl
  | .byReference target => by
      rw [spellOr, spellOr_eq lastResort scope target]
      rfl

theorem spellAllOr_eq (lastResort : Option TypeNode) (scope : Scope) :
    (signatures : List Signature) →
      system.spellAllOr lastResort scope signatures = some (system.typeNodes scope signatures)
  | [] => rfl
  | signature :: rest => by
      rw [spellAllOr, spellOr_eq lastResort scope signature, spellAllOr_eq lastResort scope rest]
      rfl

end

/-- A keyword in a spelled type is that of a part of the signature. -/
theorem keywordsFrom_typeNode
    (scope : Scope)
    (signature : Signature) :
    KeywordsFrom signature.parts (system.typeNode scope signature).visits := by
  apply typeNode.induct
    (fun signature => KeywordsFrom signature.parts (system.typeNode scope signature).visits)
    (fun signatures => KeywordsFrom (Signature.partsOfAll signatures)
      (TypeNode.visitsOfAll (system.typeNodes scope signatures)))
  case case4 | case5 =>
    intro type arguments inside
    exact (inside.mono (List.subset_append_right _ _)).cons nofun
  case case6 =>
    intro base arguments notReference notValue inside
    rw [typeNode]
    · exact inside.mono (List.subset_cons_of_subset _ (List.subset_append_left _ _))
    · exact notReference
    · exact notValue
  case case7 | case9 | case10 =>
    intro target inside
    exact inside.cons nofun
  case case8 =>
    intro element rank inside
    exact inside.cons nofun
  case case14 =>
    intro signature rest first later
    exact first.append later
  case case1 =>
    intro kind keyword visited
    cases List.mem_singleton.1 visited
    exact ⟨.primitive kind, List.mem_singleton_self _, rfl⟩
  case case2 | case3 | case11 | case12 =>
    intro _ keyword visited
    cases List.mem_singleton.1 visited
  case case13 =>
    intro keyword visited
    cases visited

/-! ## Spelling references -/

/-- How a reference is written and what is known about its definition. -/
def mention (reference : TypeReference) : Mention :=
  ⟨system.referenceName reference, system.resolve reference⟩

/-- The spelled type names nothing but what the signature refers to, and in the same order. -/
theorem mentions_sublist
    (scope : Scope)
    (signature : Signature) :
    (system.typeNode scope signature).mentions.Sublist
      (signature.references.map system.mention) := by
  apply typeNode.induct
    (fun signature => (system.typeNode scope signature).mentions.Sublist
      (signature.references.map system.mention))
    (fun signatures => (TypeNode.mentionsOfAll (system.typeNodes scope signatures)).Sublist
      ((Signature.referencesOfAll signatures).map system.mention))
  case case4 | case5 =>
    intro type arguments inside
    exact inside.cons_cons (system.mention type)
  case case6 =>
    -- What is left out are the arguments, whose references come last.
    intro base arguments notReference notValue inside
    rw [typeNode, Signature.references, List.map_append]
    · exact inside.trans (List.sublist_append_left _ _)
    · exact notReference
    · exact notValue
  case case7 | case9 | case10 =>
    intro target inside
    exact inside
  case case8 =>
    intro element rank inside
    exact inside
  case case14 =>
    intro signature rest first later
    rw [typeNodes, TypeNode.mentionsOfAll, Signature.referencesOfAll, List.map_append]
    exact first.append later
  case case1 | case2 | case3 | case11 | case12 =>
    intro _
    exact List.Sublist.refl _
  case case13 => exact List.Sublist.refl _

/-- If only named types take arguments, it names all of that. -/
theorem mentions_typeNode
    (scope : Scope)
    (signature : Signature) :
    signature.HasNamedBases →
      (system.typeNode scope signature).mentions = signature.references.map system.mention := by
  apply typeNode.induct
    (fun signature => signature.HasNamedBases →
      (system.typeNode scope signature).mentions = signature.references.map system.mention)
    (fun signatures => Signature.NamedBases (Signature.partsOfAll signatures) →
      TypeNode.mentionsOfAll (system.typeNodes scope signatures)
        = (Signature.referencesOfAll signatures).map system.mention)
  case case4 | case5 =>
    intro type arguments inside named
    exact congrArg (system.mention type :: ·) (inside named.of_generic.2)
  case case6 =>
    intro base arguments notReference notValue inside named
    cases named.of_generic.1 with
    | reference type => exact (notReference type rfl).elim
    | value type => exact (notValue type rfl).elim
  case case7 | case9 | case10 =>
    intro target inside named
    exact inside named.of_cons
  case case8 =>
    intro element rank inside named
    exact inside named.of_cons
  case case14 =>
    intro signature rest first later named
    obtain ⟨here, behind⟩ := Signature.namedBases_append_iff.1 named
    rw [typeNodes, TypeNode.mentionsOfAll, Signature.referencesOfAll, List.map_append, first here,
      later behind]
  case case1 | case2 | case3 | case11 | case12 =>
    intro _ _
    rfl
  case case13 =>
    intro _
    rfl

/-- The definitions behind the references of a signature. -/
theorem map_resolved_mention
    (references : List TypeReference) :
    (references.map system.mention).map (·.resolved) = references.map system.resolve :=
  List.map_map

/-- If only named types take arguments, a visit of the spelled type finds the definitions behind the
references of the signature, in their order and each as often as it is referred to. Whatever the
signature, a visit finds no other definitions, spelling needs no last resort, and keywords come
from primitive types alone. -/
theorem references_kept
    (scope : Scope)
    (signature : Signature) :
    (signature.HasNamedBases →
        (system.typeNode scope signature).namedTypes = signature.references.map system.resolve)
      ∧ (system.typeNode scope signature).namedTypes.Sublist
        (signature.references.map system.resolve)
      ∧ (∀ lastResort,
        system.spellOr lastResort scope signature = some (system.typeNode scope signature))
      ∧ KeywordsFrom signature.parts (system.typeNode scope signature).visits := by
  rw [TypeNode.namedTypes_eq, ← map_resolved_mention]
  refine ⟨fun named => ?_, (system.mentions_sublist scope signature).map _,
    fun lastResort => system.spellOr_eq lastResort scope signature,
    system.keywordsFrom_typeNode scope signature⟩
  rw [system.mentions_typeNode scope signature named]

/-- Pairs of vectors and optional values of one type, which is defined beside them. -/
def pairSample : Signature :=
  let order := Signature.value (.definition (.ofRow .typeDefinition 2))
  .generic (.reference (.external "mscorlib" "System" "Tuple`2")) [
    .vector order,
    .generic (.value (.external "mscorlib" "System" "Nullable`1")) [order]]

/-- The spelled type names the pair, the vector's type, the optional value and its type. -/
theorem references_kept_pairSample :
    let system : TypeSystem := ⟨.ofTypes [.bare (.ofRow .typeDefinition 2) "Shop" "Order"], []⟩
    pairSample.HasNamedBases
      ∧ (system.typeNode .empty pairSample).namedTypes.map (·.fullName)
        = ["System.Tuple`2", "Shop.Order", "System.Nullable`1", "Shop.Order"] := by
  intro system
  have named : pairSample.HasNamedBases := by
    intro base arguments inside
    simp only [pairSample, Signature.parts, Signature.partsOfAll, List.append_nil,
      List.cons_append, List.nil_append, List.mem_cons, Signature.generic.injEq, reduceCtorEq,
      List.not_mem_nil, or_self, or_false, false_or] at inside
    rcases inside with ⟨rfl, -⟩ | ⟨rfl, -⟩
    · exact .reference _
    · exact .value _
  refine ⟨named, ?_⟩
  rw [(references_kept system .empty pairSample).1 named]
  decide +kernel

-- A vector takes no arguments, so what they refer to is lost.
example (system : TypeSystem) (scope : Scope) (type : TypeReference) :
    let signature := Signature.generic (.vector (.primitive .object)) [.reference type]
    signature.references = [type] ∧ (system.typeNode scope signature).namedTypes = [] :=
  ⟨rfl, rfl⟩

end TypeSystem

end Declaration
end AssemblyAtlas
