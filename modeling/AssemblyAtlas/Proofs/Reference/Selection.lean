import AssemblyAtlas.Reference.Resolver
import Mathlib.Data.List.Induction
import Mathlib.Data.List.Perm.Basic

/-!
# The chosen candidate

Of several candidates the last one with the requested version and key is chosen, and else the first
one with the highest version. So the version of the chosen assembly does not depend on the order in
which a compilation lists its assemblies.

* `IsLastExact` and `IsFirstHighest` say by its place among all which candidate is chosen;
* `Choice.Weighs` is what is known after some of the candidates, and `Choice.weighs_foldl` is by
  induction on these;
* `Selected` puts the cases together, and `Resolver.Provides` says where an image comes from.
-/

namespace AssemblyAtlas

namespace Assembly
namespace Version

variable {left middle right : Version}

theorem parts_injective : Function.Injective parts := by
  rintro ⟨_, _, _, _⟩ ⟨_, _, _, _⟩ same
  simpa [parts] using same

theorem lt_irrefl (version : Version) : ¬version < version :=
  List.lt_irrefl version.parts

theorem lt_trans (below : left < middle) (above : middle < right) : left < right :=
  List.lt_trans below above

/-- What is not above the middle is below all that is above the middle. -/
theorem lt_of_not_lt_of_lt (low : ¬middle < left) (above : middle < right) : left < right :=
  List.lt_of_le_of_lt (List.not_lt.1 low) above

/-- Versions of which none is higher are the same. -/
theorem eq_of_not_lt (notBelow : ¬left < right) (notAbove : ¬right < left) : left = right :=
  parts_injective (List.le_antisymm (List.not_lt.1 notAbove) (List.not_lt.1 notBelow))

end Version
end Assembly

namespace Reference

open Assembly

/-! ## Places among the candidates -/

/-- The last of the candidates with the requested version and key. -/
def IsLastExact
    (requested : Identity)
    (candidates : List ReferencedAssembly)
    (chosen : ReferencedAssembly) :
    Prop :=
  ∃ earlier later, candidates = earlier ++ chosen :: later
    ∧ Choice.isExact requested chosen
    ∧ ∀ other ∈ later, ¬Choice.isExact requested other

/-- The first of the candidates with the highest version. -/
def IsFirstHighest
    (candidates : List ReferencedAssembly)
    (chosen : ReferencedAssembly) :
    Prop :=
  ∃ earlier later, candidates = earlier ++ chosen :: later
    ∧ (∀ other ∈ earlier, other.identity.version < chosen.identity.version)
    ∧ ∀ other ∈ later, ¬chosen.identity.version < other.identity.version

section Places

variable {requested : Identity}
variable {candidates : List ReferencedAssembly}
variable {one other : ReferencedAssembly}

/-- Two places in a row are the same, or one of them is before the other. -/
theorem same_or_apart
    {α : Type}
    {left right later others : List α}
    {one other : α}
    (same : left ++ one :: later = right ++ other :: others) :
    one = other ∨ one ∈ right ∧ other ∈ later ∨ other ∈ left ∧ one ∈ others := by
  rcases List.append_eq_append_iff.1 same with ⟨between, rfl, behind⟩ | ⟨between, rfl, behind⟩
  · cases between with
    | nil => exact Or.inl (List.cons_eq_cons.1 behind).1
    | cons first rest =>
        obtain ⟨rfl, rfl⟩ := List.cons_eq_cons.1 behind
        exact Or.inr (Or.inl ⟨by simp, by simp⟩)
  · cases between with
    | nil => exact Or.inl (List.cons_eq_cons.1 behind).1.symm
    | cons first rest =>
        obtain ⟨rfl, rfl⟩ := List.cons_eq_cons.1 behind
        exact Or.inr (Or.inr ⟨by simp, by simp⟩)

theorem IsLastExact.unique
    (isOne : IsLastExact requested candidates one)
    (isOther : IsLastExact requested candidates other) :
    one = other := by
  obtain ⟨_, later, rfl, exactOne, behindOne⟩ := isOne
  obtain ⟨_, others, same, exactOther, behindOther⟩ := isOther
  rcases same_or_apart same with equal | ⟨-, behind⟩ | ⟨-, behind⟩
  · exact equal
  · exact absurd exactOther (behindOne other behind)
  · exact absurd exactOne (behindOther one behind)

theorem IsFirstHighest.unique
    (isOne : IsFirstHighest candidates one)
    (isOther : IsFirstHighest candidates other) :
    one = other := by
  obtain ⟨_, _, rfl, beforeOne, behindOne⟩ := isOne
  obtain ⟨_, _, same, beforeOther, behindOther⟩ := isOther
  rcases same_or_apart same with equal | ⟨before, behind⟩ | ⟨before, behind⟩
  · exact equal
  · exact absurd (beforeOther one before) (behindOne other behind)
  · exact absurd (beforeOne other before) (behindOther one behind)

theorem IsLastExact.mem (isLast : IsLastExact requested candidates one) :
    one ∈ candidates := by
  obtain ⟨_, _, rfl, -⟩ := isLast
  simp

theorem IsLastExact.exact (isLast : IsLastExact requested candidates one) :
    Choice.isExact requested one := by
  obtain ⟨_, _, -, isExact, -⟩ := isLast
  exact isExact

theorem IsFirstHighest.mem (isFirst : IsFirstHighest candidates one) :
    one ∈ candidates := by
  obtain ⟨_, _, rfl, -⟩ := isFirst
  simp

/-- A further candidate that is exact is the last exact one. -/
theorem isLastExact_concat
    (isExact : Choice.isExact requested one) :
    IsLastExact requested (candidates ++ [one]) one :=
  ⟨candidates, [], rfl, isExact, by simp⟩

/-- A further candidate that is not exact changes nothing about the exact ones. -/
theorem isLastExact_concat_iff
    (notExact : ¬Choice.isExact requested other) :
    IsLastExact requested (candidates ++ [other]) one ↔ IsLastExact requested candidates one := by
  constructor
  · rintro ⟨earlier, later, same, isExact, behind⟩
    rcases List.eq_nil_or_concat' later with rfl | ⟨inner, last, rfl⟩
    · obtain ⟨-, rfl⟩ : candidates = earlier ∧ other = one := by
        simpa using List.append_inj' same rfl
      exact absurd isExact notExact
    · rw [← List.cons_append, ← List.append_assoc] at same
      exact ⟨earlier, inner, List.append_inj_left' same rfl, isExact,
        fun assembly isInner => behind assembly (List.mem_append_left _ isInner)⟩
  · rintro ⟨earlier, later, rfl, isExact, behind⟩
    refine ⟨earlier, later ++ [other], by simp, isExact, fun assembly isLater => ?_⟩
    rcases List.mem_append.1 isLater with before | own
    · exact behind assembly before
    · rwa [List.mem_singleton.1 own]

/-- A further candidate above all others is the highest. -/
theorem isFirstHighest_concat
    (above : ∀ assembly ∈ candidates, assembly.identity.version < one.identity.version) :
    IsFirstHighest (candidates ++ [one]) one :=
  ⟨candidates, [], rfl, above, by simp⟩

/-- A further candidate that is not above the highest leaves it the highest. -/
theorem IsFirstHighest.concat
    (isFirst : IsFirstHighest candidates one)
    (notAbove : ¬one.identity.version < other.identity.version) :
    IsFirstHighest (candidates ++ [other]) one := by
  obtain ⟨earlier, later, rfl, before, behind⟩ := isFirst
  refine ⟨earlier, later ++ [other], by simp, before, fun assembly isLater => ?_⟩
  rcases List.mem_append.1 isLater with inner | own
  · exact behind assembly inner
  · rwa [List.mem_singleton.1 own]

/-- No candidate has a higher version. -/
theorem IsFirstHighest.not_lt
    (isFirst : IsFirstHighest candidates one)
    (member : other ∈ candidates) :
    ¬one.identity.version < other.identity.version := by
  obtain ⟨earlier, later, rfl, before, behind⟩ := isFirst
  simp only [List.mem_append, List.mem_cons] at member
  rcases member with isEarlier | rfl | isLater
  · exact fun above => Version.lt_irrefl _ (Version.lt_trans above (before other isEarlier))
  · exact Version.lt_irrefl _
  · exact behind other isLater

end Places

/-! ## Weighing one candidate after the other -/

namespace Choice

/-- What is known after some candidates: the last exact one, and the first highest one of the
others. -/
structure Weighs
    (requested : Identity)
    (seen : List ReferencedAssembly)
    (choice : Choice) :
    Prop where
  exact : ∀ assembly, choice.exact = some assembly ↔ IsLastExact requested seen assembly
  highest : ∀ assembly, choice.highest = some assembly
    ↔ IsFirstHighest (seen.filter (!isExact requested ·)) assembly
  /-- A highest one is missing only where all were exact. -/
  missing : choice.highest = none ↔ ∀ assembly ∈ seen, isExact requested assembly

variable {requested : Identity}
variable {seen : List ReferencedAssembly}
variable {choice : Choice}
variable {candidate : ReferencedAssembly}

theorem weighs_start :
    Weighs requested [] start where
  exact assembly := by simp [start, IsLastExact]
  highest assembly := by simp [start, IsFirstHighest]
  missing := by simp [start]

/-- What is the only one with a property is the one that is given. -/
theorem some_eq_some_iff_of_unique
    {α : Type}
    {property : α → Prop}
    {one other : α}
    (holds : property one)
    (unique : ∀ {other}, property other → one = other) :
    some one = some other ↔ property other := by
  constructor
  · intro same
    exact Option.some.inj same ▸ holds
  · exact fun holds => congrArg some (unique holds)

/-- A candidate above the highest so far is above all that are not exact. -/
theorem Weighs.below_of_isHigher
    (weighs : choice.Weighs requested seen)
    (higher : choice.isHigher candidate)
    {assembly : ReferencedAssembly}
    (member : assembly ∈ seen.filter (!isExact requested ·)) :
    assembly.identity.version < candidate.identity.version := by
  obtain ⟨isSeen, notExact⟩ := List.mem_filter.1 member
  cases known : choice.highest with
  | none =>
      have exact := weighs.missing.1 known assembly isSeen
      rw [exact] at notExact
      exact absurd notExact Bool.false_ne_true
  | some highest =>
      rw [isHigher, known] at higher
      exact Version.lt_of_not_lt_of_lt (((weighs.highest highest).1 known).not_lt member)
        (of_decide_eq_true higher)

/-- One candidate more is weighed rightly. -/
theorem Weighs.consider
    (weighs : choice.Weighs requested seen)
    (candidate : ReferencedAssembly) :
    (choice.consider requested candidate).Weighs requested (seen ++ [candidate]) := by
  rw [Choice.consider]
  split
  · next isExact =>
      have others : (seen ++ [candidate]).filter (!Choice.isExact requested ·)
          = seen.filter (!Choice.isExact requested ·) := by
        simp [isExact]
      refine ⟨fun assembly => ?_, fun assembly => ?_, ?_⟩
      · exact some_eq_some_iff_of_unique (isLastExact_concat isExact)
          (isLastExact_concat isExact).unique
      · rw [others]
        exact weighs.highest assembly
      · rw [List.forall_mem_append, List.forall_mem_singleton, and_iff_left isExact]
        exact weighs.missing
  · next notExact =>
      have others : (seen ++ [candidate]).filter (!Choice.isExact requested ·)
          = seen.filter (!Choice.isExact requested ·) ++ [candidate] := by
        simp [notExact]
      split
      · next higher =>
          have first := isFirstHighest_concat fun _ => weighs.below_of_isHigher higher
          refine ⟨fun assembly => ?_, fun assembly => ?_, ?_⟩
          · rw [isLastExact_concat_iff notExact]
            exact weighs.exact assembly
          · rw [others]
            exact some_eq_some_iff_of_unique first first.unique
          · simp [notExact]
      · next notHigher =>
          obtain ⟨highest, known, notAbove⟩ : ∃ highest, choice.highest = some highest
              ∧ ¬highest.identity.version < candidate.identity.version := by
            simpa [isHigher, Option.all_eq_true] using notHigher
          have first := ((weighs.highest highest).1 known).concat notAbove
          refine ⟨fun assembly => ?_, fun assembly => ?_, ?_⟩
          · rw [isLastExact_concat_iff notExact]
            exact weighs.exact assembly
          · rw [others]
            exact (congrArg (· = some assembly) known).to_iff.trans
              (some_eq_some_iff_of_unique first first.unique)
          · simp [notExact, known]

/-- All candidates are weighed rightly. -/
theorem weighs_foldl
    (requested : Identity)
    (candidates : List ReferencedAssembly) :
    (candidates.foldl (consider requested) start).Weighs requested candidates := by
  induction candidates using List.reverseRecOn with
  | nil => exact weighs_start
  | append_singleton seen candidate ih =>
      rw [List.foldl_append]
      exact ih.consider candidate

end Choice

/-! ## The selected assembly -/

/-- The assembly that is chosen among candidates: the only one; else the last with the requested
version and key; else the first with the highest version. -/
inductive Selected (requested : Identity) (candidates : List ReferencedAssembly) :
    ReferencedAssembly → Prop
  | only {assembly : ReferencedAssembly} :
      candidates = [assembly] →
      Selected requested candidates assembly
  | exact {assembly : ReferencedAssembly} :
      1 < candidates.length →
      IsLastExact requested candidates assembly →
      Selected requested candidates assembly
  | highest {assembly : ReferencedAssembly} :
      1 < candidates.length →
      (∀ candidate ∈ candidates, ¬Choice.isExact requested candidate) →
      IsFirstHighest candidates assembly →
      Selected requested candidates assembly

section Selection

variable {requested : Identity}
variable {candidates : List ReferencedAssembly}

theorem Choice.isExact_iff {assembly : ReferencedAssembly} :
    Choice.isExact requested assembly
      ↔
    assembly.identity.version = requested.version
      ∧ assembly.identity.keyToken = requested.keyToken := by
  simp [isExact]

/-- Among candidates with an exact one there is a last exact one. -/
theorem exists_isLastExact
    (someExact : ∃ candidate ∈ candidates, Choice.isExact requested candidate) :
    ∃ assembly, IsLastExact requested candidates assembly := by
  induction candidates using List.reverseRecOn with
  | nil => simp at someExact
  | append_singleton seen candidate ih =>
      by_cases isExact : Choice.isExact requested candidate
      · exact ⟨candidate, isLastExact_concat isExact⟩
      · obtain ⟨assembly, isLast⟩ := ih (by simpa [isExact] using someExact)
        exact ⟨assembly, (isLastExact_concat_iff isExact).2 isLast⟩

/-- What was weighed has no exact one just where none of the candidates is exact. -/
theorem Choice.Weighs.exact_eq_none_iff
    {choice : Choice}
    (weighs : choice.Weighs requested candidates) :
    choice.exact = none ↔ ∀ candidate ∈ candidates, ¬Choice.isExact requested candidate := by
  constructor
  · intro none candidate member isExact
    obtain ⟨assembly, isLast⟩ := exists_isLastExact ⟨candidate, member, isExact⟩
    rw [(weighs.exact assembly).2 isLast] at none
    exact Option.some_ne_none assembly none
  · intro noneExact
    rw [Option.eq_none_iff_forall_ne_some]
    intro assembly known
    have isLast := (weighs.exact assembly).1 known
    exact noneExact assembly isLast.mem isLast.exact

/-- The choice among several candidates is the selected one. -/
theorem Choice.Weighs.chosen_eq_some_iff
    {choice : Choice}
    (weighs : choice.Weighs requested candidates)
    (several : 1 < candidates.length)
    (assembly : ReferencedAssembly) :
    choice.chosen = some assembly ↔ Selected requested candidates assembly := by
  have others (noneExact : ∀ candidate ∈ candidates, ¬Choice.isExact requested candidate) :
      candidates.filter (!Choice.isExact requested ·) = candidates :=
    List.filter_eq_self.2 fun candidate member => by simp [noneExact candidate member]
  rw [chosen, Option.or_eq_some_iff, weighs.exact, weighs.exact_eq_none_iff, weighs.highest]
  constructor
  · rintro (isLast | ⟨noneExact, isFirst⟩)
    · exact .exact several isLast
    · exact .highest several noneExact (others noneExact ▸ isFirst)
  · intro selected
    cases selected with
    | only single => simp [single] at several
    | exact _ isLast => exact Or.inl isLast
    | highest _ noneExact isFirst =>
        exact Or.inr ⟨noneExact, (others noneExact).symm ▸ isFirst⟩

/-- Among several candidates one is chosen. -/
theorem Choice.Weighs.chosen_ne_none
    {choice : Choice}
    (weighs : choice.Weighs requested candidates)
    (several : 1 < candidates.length) :
    choice.chosen ≠ none := by
  intro unchosen
  rw [chosen, Option.or_eq_none_iff, weighs.exact_eq_none_iff, weighs.missing] at unchosen
  obtain ⟨candidate, member⟩ := List.exists_mem_of_length_pos (Nat.zero_lt_of_lt several)
  exact unchosen.1 candidate member (unchosen.2 candidate member)

/-- One of the candidates is selected. -/
theorem Selected.mem
    {assembly : ReferencedAssembly}
    (selected : Selected requested candidates assembly) :
    assembly ∈ candidates := by
  cases selected with
  | only single => simp [single]
  | exact _ isLast => exact isLast.mem
  | highest _ _ isFirst => exact isFirst.mem

/-- In whatever order the candidates come, the selected one has the same version. -/
theorem Selected.version_eq
    {others : List ReferencedAssembly}
    {one other : ReferencedAssembly}
    (reordered : candidates.Perm others)
    (isOne : Selected requested candidates one)
    (isOther : Selected requested others other) :
    one.identity.version = other.identity.version := by
  have length := reordered.length_eq
  cases isOne with
  | only single =>
      cases isOther with
      | only alone =>
          subst single alone
          rw [List.singleton_perm_singleton.1 reordered]
      | exact several _ => simp [single] at length; omega
      | highest several _ _ => simp [single] at length; omega
  | exact several isLast =>
      cases isOther with
      | only alone => simp [alone] at length; omega
      | exact _ alsoLast =>
          rw [(Choice.isExact_iff.1 isLast.exact).1, (Choice.isExact_iff.1 alsoLast.exact).1]
      | highest _ noneExact _ =>
          exact absurd isLast.exact (noneExact one (reordered.subset isLast.mem))
  | highest several noneExact isFirst =>
      cases isOther with
      | only alone => simp [alone] at length; omega
      | exact _ alsoLast =>
          exact absurd alsoLast.exact
            (noneExact other (reordered.symm.subset alsoLast.mem))
      | highest _ _ alsoFirst =>
          exact Version.eq_of_not_lt (isFirst.not_lt (reordered.symm.subset alsoFirst.mem))
            (alsoFirst.not_lt (reordered.subset isFirst.mem))

end Selection

/-- What is neither empty nor a single element has several. -/
theorem one_lt_length
    {α : Type}
    {elements : List α}
    (notNil : elements ≠ [])
    (notSingle : ∀ element, elements ≠ [element]) :
    1 < elements.length := by
  match elements with
  | [] => exact absurd rfl notNil
  | [element] => exact absurd rfl (notSingle element)
  | _ :: _ :: _ => simp

namespace Resolver

variable (resolver : Resolver) (requested : Identity)

/-- The image is that of a reference: the one in memory, and else the one in its file. -/
inductive Provides (reference : MetadataReference) (image : Image) : Prop
  | memory :
      reference.image = some image →
      Provides reference image
  | file {path : String} :
      reference.image = none →
      reference.filePath = some path →
      resolver.disk.isFile path →
      Image.ofFile resolver.disk path .metadata = .ok image →
      Provides reference image

/-- An assembly is selected from those with the requested name. -/
theorem select_eq_some_iff (assembly : ReferencedAssembly) :
    (resolver.select requested).value = some assembly
      ↔
    Selected requested (resolver.candidates requested.name) assembly := by
  rw [select]
  split
  · next none =>
      rw [none]
      constructor
      · exact fun found => nomatch found
      · exact fun selected => absurd selected.mem List.not_mem_nil
  · next single only =>
      rw [only]
      constructor
      · intro found
        exact .only (by rw [Option.some.inj found])
      · intro selected
        cases selected with
        | only same => exact congrArg some (List.cons_eq_cons.1 same).1
        | exact several _ => simp at several
        | highest several _ _ => simp at several
  · next candidates notNone notSingle =>
      have several := one_lt_length notNone notSingle
      exact (Choice.weighs_foldl requested _).chosen_eq_some_iff several assembly

/-- No assembly is selected just where none has the requested name. -/
theorem select_eq_none_iff :
    (resolver.select requested).value = none ↔ resolver.candidates requested.name = [] := by
  rw [select]
  split
  · next none => simp [none]
  · next single only => simp [only]
  · next candidates notNone notSingle =>
      have several := one_lt_length notNone notSingle
      exact iff_of_false ((Choice.weighs_foldl requested _).chosen_ne_none several) notNone

/-- A reference is loaded if it provides an image. -/
theorem load_eq_some_iff
    (reference : MetadataReference)
    (image : Image) :
    (resolver.load reference .metadata).value = some image
      ↔ resolver.Provides reference image := by
  constructor
  · intro loaded
    rw [load, Traced.after] at loaded
    split at loaded
    · next found => exact .memory (found.trans loaded)
    · exact nomatch loaded
    · next path unloaded isPath =>
        split at loaded
        · next isFile =>
            rw [openFile] at loaded
            split at loaded
            · next opened => exact .file unloaded isPath isFile (Option.some.inj loaded ▸ opened)
            · exact nomatch loaded
        · exact nomatch loaded
  · rintro (loaded | ⟨unloaded, isPath, isFile, opened⟩)
    · simp only [load, Traced.after, loaded]
    · simp only [load, Traced.after, unloaded, isPath, isFile, if_true, openFile, opened]

/-- The image of the selected assembly is that of its reference. -/
theorem resolve_eq_some_iff (image : Image) :
    (resolver.resolve requested).value = some image
      ↔
    ∃ assembly reference, (resolver.select requested).value = some assembly
      ∧ resolver.compilation.reference? assembly = some reference
      ∧ resolver.Provides reference image := by
  rw [resolve, Traced.after, Traced.andThen]
  cases (resolver.select requested).value with
  | none => simp
  | some assembly =>
      cases known : resolver.compilation.reference? assembly with
      | none => simp [known]
      | some reference => simp [known, load_eq_some_iff]

/-- An assembly is selected from those with just the requested name, unless there is none, and its
version does not depend on the order of the compilation. An image is found only for the selected
assembly, in memory if its reference has it there. -/
theorem selection_specified :
    ((resolver.select requested).value = none
        ↔ ∀ assembly ∈ resolver.compilation.assemblies,
            assembly.identity.name ≠ requested.name)
      ∧ (∀ assembly, (resolver.select requested).value = some assembly
          ↔ Selected requested (resolver.candidates requested.name) assembly)
      ∧ (∀ other : Resolver,
          other.compilation.assemblies.Perm resolver.compilation.assemblies →
            (other.select requested).value.map (·.identity.version)
              = (resolver.select requested).value.map (·.identity.version))
      ∧ ∀ image, (resolver.resolve requested).value = some image
          ↔ ∃ assembly reference, (resolver.select requested).value = some assembly
              ∧ resolver.compilation.reference? assembly = some reference
              ∧ resolver.Provides reference image := by
  refine ⟨?_, resolver.select_eq_some_iff requested, fun other reordered => ?_,
    resolver.resolve_eq_some_iff requested⟩
  · rw [select_eq_none_iff, candidates, List.filter_eq_nil_iff]
    simp
  · have candidates : (other.candidates requested.name).Perm (resolver.candidates requested.name) :=
      reordered.filter _
    cases chosen : (resolver.select requested).value with
    | none =>
        rw [select_eq_none_iff] at chosen
        rw [chosen] at candidates
        rw [(other.select_eq_none_iff requested).2 candidates.eq_nil]
    | some assembly =>
        have selected := (resolver.select_eq_some_iff requested assembly).1 chosen
        cases found : (other.select requested).value with
        | none =>
            rw [select_eq_none_iff] at found
            have member := candidates.symm.subset selected.mem
            rw [found] at member
            exact absurd member List.not_mem_nil
        | some another =>
            have alsoSelected := (other.select_eq_some_iff requested another).1 found
            exact congrArg some (alsoSelected.version_eq candidates selected)

/-- A resolver for a compilation with assemblies of one name, which have no references. -/
def ofVersions (versions : List Version) : Resolver :=
  ⟨⟨versions.map fun version => ⟨.ofName "Lib" version, false⟩, fun _ => none⟩, .empty⟩

/-- The highest of three versions is found in whatever order they come. -/
theorem selection_specified_reorderedSample :
    (ofVersions [⟨2, 0, 0, 0⟩, ⟨1, 0, 0, 0⟩, ⟨3, 0, 0, 0⟩]).compilation.assemblies.Perm
        (ofVersions [⟨1, 0, 0, 0⟩, ⟨3, 0, 0, 0⟩, ⟨2, 0, 0, 0⟩]).compilation.assemblies
      ∧ ((ofVersions [⟨2, 0, 0, 0⟩, ⟨1, 0, 0, 0⟩, ⟨3, 0, 0, 0⟩]).select
          (.ofName "Lib" .unspecified)).value.map (·.identity.version) = some ⟨3, 0, 0, 0⟩ := by
  have reordered :
      (ofVersions [⟨2, 0, 0, 0⟩, ⟨1, 0, 0, 0⟩, ⟨3, 0, 0, 0⟩]).compilation.assemblies.Perm
        (ofVersions [⟨1, 0, 0, 0⟩, ⟨3, 0, 0, 0⟩, ⟨2, 0, 0, 0⟩]).compilation.assemblies := by
    decide
  have specified := selection_specified (ofVersions [⟨1, 0, 0, 0⟩, ⟨3, 0, 0, 0⟩, ⟨2, 0, 0, 0⟩])
    (.ofName "Lib" .unspecified)
  refine ⟨reordered, (specified.2.2.1 _ reordered).trans ?_⟩
  decide +kernel

end Resolver

end Reference
end AssemblyAtlas
