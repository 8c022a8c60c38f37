import AssemblyAtlas.Proofs.Declaration.DeclaredTypes
import AssemblyAtlas.Proofs.Sources.Written

/-!
# Included types that are kept

Units are made by paths that are the same but for the case of ASCII letters, while files replace
each other by the lowercase forms of their paths. So an included type can lose its file: to another
unit of its round, to a unit of a later round, or to the file with the attributes of the assembly.

* `Job.Undisturbed` says that the path of no included type is met again in such a way;
* `Job.keeps_included_iff` says that this is what it takes to keep all included types.
-/

namespace AssemblyAtlas
namespace Sources

open Assembly
open Declaration
open Syntax
open Text

namespace Job

variable (job : Job)

/-- The type is in every closed set of types, so each completed run writes it. -/
def Reached (token : Token) : Prop :=
  ∀ types, job.Closed types → token ∈ types

/-- The path of an included type is not that of the attributes of the assembly, and the written
types with its path are included ones whose paths differ in the case of ASCII letters only. -/
def Undisturbed : Prop :=
  ∀ type ∈ job.module.topLevelTypes,
    included job.settings.concealment job.module type = true →
      let path := relativePath job.settings type.space type.name
      lowercase path ≠ lowercase assemblyInfoPath
        ∧ ∀ other otherPath, job.Reached other →
            filePath? job.settings job.module other = some otherPath →
            lowercase otherPath = lowercase path →
            other ∈ job.initialTypes ∧ sameIgnoringCase otherPath path = true

variable {job}

/-! ## The order of the units -/

/-- What is known about the units of a completed run, in the order in which they are worked on. -/
structure Sequence (job : Job) (units : List WorkUnit) : Prop where
  nodup : (units.flatMap (·.types)).Nodup
  reached : ∀ token, token ∈ units.flatMap (·.types) ↔ job.Reached token
  grouped : ∀ unit ∈ units, ∃ tokens, unit ∈ group job.settings job.module tokens
  /-- The units of the included types come first. -/
  first : ∃ behind,
    units = job.order (group job.settings job.module job.initialTypes) ++ behind

/-- The units of a completed run are in such an order. -/
theorem sequence_run
    (order : ∀ units, (job.order units).Perm units)
    {cancelled : Bool}
    {run : Run}
    (completed : job.run cancelled = .ok run) :
    Sequence job (job.worked run) := by
  obtain ⟨explored, -⟩ := explored_run order completed
  have sameUnits : (job.worked run).Perm run.units :=
    List.Perm.flatMap_left _ fun round _ => order round.units
  have sameTypes : ((job.worked run).flatMap (·.types)).Perm run.assigned :=
    sameUnits.flatMap_right _
  refine ⟨?_, ?_, ?_, ?_⟩
  · refine sameTypes.nodup_iff.2 (explored.perm_assigned.nodup_iff.2 ?_)
    exact (List.nodup_append'.1 explored.nodup).1
  · intro token
    obtain ⟨closed, least⟩ := explored.isLeast
    rw [sameTypes.mem_iff]
    constructor
    · intro isAssigned types isClosed
      exact least isClosed isAssigned
    · intro reached
      exact reached _ closed
  · intro unit isUnit
    obtain ⟨round, isRound, inRound⟩ := List.mem_flatMap.1 isUnit
    have shape := explored.shaped round isRound
    rw [(order _).mem_iff, shape] at inRound
    exact ⟨round.types, inRound⟩
  · obtain ⟨⟨rest, rounds⟩, -⟩ := draft_run completed
    refine ⟨rest.flatMap fun round => job.order round.units, ?_⟩
    rw [worked, rounds, List.flatMap_cons]
    rfl

/-- A reached type stands at an index. -/
theorem Sequence.exists_index
    {units : List WorkUnit}
    (sequence : Sequence job units)
    {token : Token}
    (reached : job.Reached token) :
    ∃ (i : Nat) (unit : WorkUnit), units[i]? = some unit ∧ token ∈ unit.types := by
  obtain ⟨unit, isUnit, inUnit⟩ := List.mem_flatMap.1 ((sequence.reached token).2 reached)
  obtain ⟨i, at_i⟩ := List.mem_iff_getElem?.1 isUnit
  exact ⟨i, unit, at_i, inUnit⟩

/-- A unit that comes before one with an included type is of the first round. -/
theorem Sequence.mem_first
    {units : List WorkUnit}
    (sequence : Sequence job units)
    (order : ∀ units, (job.order units).Perm units)
    {i j : Nat}
    {unit earlier : WorkUnit}
    (at_i : units[i]? = some unit)
    (at_j : units[j]? = some earlier)
    (before : j ≤ i)
    {token : Token}
    (inUnit : token ∈ unit.types)
    (isInitial : token ∈ job.initialTypes) :
    earlier ∈ group job.settings job.module job.initialTypes := by
  obtain ⟨behind, split⟩ := sequence.first
  have known : (job.module.type? token).isSome := by
    obtain ⟨type, isType, -, rfl⟩ := mem_initialTypes_iff.1 isInitial
    rw [Module.type?_of_topLevel isType, Option.isSome_some]
  obtain ⟨own, isOwn, inOwn⟩ :=
    (mem_units_iff job.settings job.module job.initialTypes token).2 ⟨isInitial, known⟩
  obtain ⟨k, at_k⟩ := List.mem_iff_getElem?.1 ((order _).mem_iff.2 isOwn)
  have below := (List.getElem?_eq_some_iff.1 at_k).1
  have found : units[k]? = some own := by
    rw [split, List.getElem?_append_left below]
    exact at_k
  obtain rfl : i = k := index_eq_of_nodup sequence.nodup at_i found inUnit inOwn
  rw [split, List.getElem?_append_left (by omega)] at at_j
  exact (order _).mem_iff.1 (List.mem_of_getElem? at_j)

/-! ## The files that stay -/

/-- The file of the unit at the index stays: none behind it has a path with the same lowercase form,
and neither has the file with the attributes of the assembly. -/
structure Stays (units : List WorkUnit) (i : Nat) (unit : WorkUnit) : Prop where
  found : units[i]? = some unit
  apart : lowercase assemblyInfoPath ≠ lowercase unit.path
  last : ∀ j later, i < j → units[j]? = some later → lowercase later.path ≠ lowercase unit.path

/-- A file of the draft that holds a type is that of a unit and stays. -/
theorem mem_draft_iff
    (units : List WorkUnit)
    (token : Token)
    (file : SourceFile) :
    file ∈ (SourceDraft.ofFiles (units.map job.fileOf ++ [job.assemblyInfo])).files
        ∧ token ∈ file.types
      ↔
    ∃ i unit, Stays units i unit ∧ token ∈ unit.types ∧ file = job.fileOf unit := by
  rw [SourceDraft.mem_ofFiles_iff]
  constructor
  · rintro ⟨⟨i, lastAt⟩, inFile⟩
    rcases Nat.lt_or_ge i (units.map job.fileOf).length with inside | beyond
    · obtain ⟨⟨found, last⟩, apart⟩ := (SourceDraft.lastAt_concat_iff inside).1 lastAt
      rw [List.getElem?_map] at found
      obtain ⟨unit, at_i, rfl⟩ := Option.map_eq_some_iff.1 found
      refine ⟨i, unit, ⟨at_i, ?_, ?_⟩, by simpa using inFile, rfl⟩
      · rw [fileOf_path] at apart
        exact apart.symm
      · intro j later behind at_j
        have differs := last j (job.fileOf later) behind (by rw [List.getElem?_map, at_j]; rfl)
        simpa using differs
    · -- The file with the attributes of the assembly holds no type.
      have found := lastAt.1
      rw [List.getElem?_append_right beyond] at found
      obtain rfl : file = job.assemblyInfo := by simpa using List.mem_of_getElem? found
      exact absurd inFile List.not_mem_nil
  · rintro ⟨i, unit, stays, inUnit, rfl⟩
    have inside : i < (units.map job.fileOf).length := by
      rw [List.length_map]
      exact (List.getElem?_eq_some_iff.1 stays.found).1
    refine ⟨⟨i, (SourceDraft.lastAt_concat_iff inside).2 ⟨⟨?_, ?_⟩, ?_⟩⟩, by simpa using inUnit⟩
    · rw [List.getElem?_map, stays.found, Option.map_some]
    · intro j later behind at_j
      rw [List.getElem?_map] at at_j
      obtain ⟨other, found, rfl⟩ := Option.map_eq_some_iff.1 at_j
      simpa using stays.last j other behind found
    · rw [fileOf_path]
      exact stays.apart.symm

/-- The files of a run that hold a type are those that stay. -/
theorem mem_types_iff
    {cancelled : Bool}
    {run : Run}
    (completed : job.run cancelled = .ok run)
    (token : Token)
    (file : SourceFile) :
    file ∈ run.sources.files ∧ token ∈ file.types
      ↔ ∃ i unit, Stays (job.worked run) i unit ∧ token ∈ unit.types
          ∧ file = job.fileOf unit := by
  obtain ⟨-, draft, -⟩ := draft_run completed
  rw [Run.sources, SourceSet.mem_ofDraft_iff, draft]
  exact mem_draft_iff _ token file

/-- Included types that all stay are undisturbed. -/
theorem Sequence.undisturbed
    {units : List WorkUnit}
    (sequence : Sequence job units)
    (order : ∀ units, (job.order units).Perm units)
    (kept : ∀ token ∈ job.initialTypes, ∃ i unit, Stays units i unit ∧ token ∈ unit.types) :
    job.Undisturbed := by
  intro type isType isIncluded
  have isInitial : type.token ∈ job.initialTypes :=
    mem_initialTypes_iff.2 ⟨type, isType, isIncluded, rfl⟩
  obtain ⟨i, unit, stays, inUnit⟩ := kept type.token isInitial
  have ownPath : filePath? job.settings job.module type.token
      = some (relativePath job.settings type.space type.name) := by
    rw [filePath?, Module.type?_of_topLevel isType, Option.map_some]
  have inFirst := sequence.mem_first order stays.found stays.found (Nat.le_refl i) inUnit isInitial
  have grouped := grouped_group job.settings job.module job.initialTypes
  have same := grouped.same_path inFirst inUnit ownPath
  have lower := lowercase_eq_of_sameIgnoringCase same
  constructor
  · rw [← lower]
    exact stays.apart.symm
  intro other otherPath reached known equal
  obtain ⟨j, later, at_j, inLater⟩ := sequence.exists_index reached
  obtain ⟨tokens, isUnit⟩ := sequence.grouped later (List.mem_of_getElem? at_j)
  have otherSame :=
    (grouped_group job.settings job.module tokens).same_path isUnit inLater known
  have otherLower := lowercase_eq_of_sameIgnoringCase otherSame
  rcases Nat.lt_trichotomy i j with behind | here | before
  · -- The later unit would replace the file.
    exact absurd (otherLower.trans (equal.trans lower.symm)) (stays.last j later behind at_j)
  · subst here
    obtain rfl : later = unit := Option.some.inj (at_j.symm.trans stays.found)
    refine ⟨?_, sameIgnoringCase_trans (sameIgnoringCase_symm otherSame) same⟩
    exact ((mem_units_iff job.settings job.module job.initialTypes other).1
      ⟨later, inFirst, inLater⟩).1
  · -- The earlier unit has an included type too, whose file would be replaced.
    have earlier :=
      sequence.mem_first order stays.found at_j (Nat.le_of_lt before) inUnit isInitial
    obtain ⟨head, isHead, -⟩ := grouped.named later earlier
    have inHead : head ∈ later.types := List.mem_of_head? isHead
    have headInitial := ((mem_units_iff job.settings job.module job.initialTypes head).1
      ⟨later, earlier, inHead⟩).1
    obtain ⟨k, own, ownStays, inOwn⟩ := kept head headInitial
    obtain rfl : j = k := index_eq_of_nodup sequence.nodup at_j ownStays.found inHead inOwn
    obtain rfl : later = own := Option.some.inj (at_j.symm.trans ownStays.found)
    exact absurd (lower.trans (equal.symm.trans otherLower.symm))
      (ownStays.last i unit before stays.found)

/-- Undisturbed types all stay. -/
theorem Sequence.stays
    {units : List WorkUnit}
    (sequence : Sequence job units)
    (order : ∀ units, (job.order units).Perm units)
    (undisturbed : job.Undisturbed)
    {type : TypeDefinition}
    (isType : type ∈ job.module.topLevelTypes)
    (isIncluded : included job.settings.concealment job.module type = true) :
    ∃ i unit, Stays units i unit ∧ type.token ∈ unit.types := by
  have isInitial : type.token ∈ job.initialTypes :=
    mem_initialTypes_iff.2 ⟨type, isType, isIncluded, rfl⟩
  have reached : job.Reached type.token :=
    fun types closed => closed.included type isType isIncluded
  have ownPath : filePath? job.settings job.module type.token
      = some (relativePath job.settings type.space type.name) := by
    rw [filePath?, Module.type?_of_topLevel isType, Option.map_some]
  obtain ⟨apart, alone⟩ := undisturbed type isType isIncluded
  obtain ⟨i, unit, at_i, inUnit⟩ := sequence.exists_index reached
  have inFirst := sequence.mem_first order at_i at_i (Nat.le_refl i) inUnit isInitial
  have grouped := grouped_group job.settings job.module job.initialTypes
  have same := grouped.same_path inFirst inUnit ownPath
  have lower := lowercase_eq_of_sameIgnoringCase same
  refine ⟨i, unit, ⟨at_i, ?_, ?_⟩, inUnit⟩
  · rw [lower]
    exact apart.symm
  · intro j later behind at_j equal
    obtain ⟨tokens, isLater⟩ := sequence.grouped later (List.mem_of_getElem? at_j)
    obtain ⟨head, isHead, known⟩ :=
      (grouped_group job.settings job.module tokens).named later isLater
    have inHead : head ∈ later.types := List.mem_of_head? isHead
    have headReached : job.Reached head :=
      (sequence.reached head).1
        (List.mem_flatMap.2 ⟨later, List.mem_of_getElem? at_j, inHead⟩)
    obtain ⟨headInitial, samePath⟩ :=
      alone head later.path headReached known (equal.trans lower)
    have laterFirst :=
      sequence.mem_first order at_j at_j (Nat.le_refl j) inHead headInitial
    -- Two units of the first round with the same path are one, so they are at one index.
    have one : later = unit :=
      grouped.eq_of_same laterFirst inFirst
        (sameIgnoringCase_trans samePath (sameIgnoringCase_symm same))
    subst one
    have index := index_eq_of_nodup sequence.nodup at_j at_i inUnit inUnit
    omega

/-- A completed run keeps all included types, each with its key, if and only if they are
undisturbed. -/
theorem keeps_included_iff
    (job : Job)
    (order : ∀ units, (job.order units).Perm units)
    (cancelled : Bool)
    (run : Run)
    (completed : job.run cancelled = .ok run) :
    (∀ type ∈ job.module.topLevelTypes,
        included job.settings.concealment job.module type = true →
          ∃ file ∈ run.sources.files, type.token ∈ file.types
            ∧ ∃ key, job.module.typeKey? type.token = some key ∧ key ∈ file.symbols.keys)
      ↔
    job.Undisturbed := by
  have sequence := sequence_run order completed
  obtain ⟨-, -, built⟩ := draft_run completed
  have files := mem_types_iff completed
  constructor
  · intro kept
    refine sequence.undisturbed order fun token isInitial => ?_
    obtain ⟨type, isType, isIncluded, rfl⟩ := mem_initialTypes_iff.1 isInitial
    obtain ⟨file, isFile, inFile, -⟩ := kept type isType isIncluded
    obtain ⟨i, unit, stays, inUnit, -⟩ := (files _ file).1 ⟨isFile, inFile⟩
    exact ⟨i, unit, stays, inUnit⟩
  · intro undisturbed type isType isIncluded
    obtain ⟨i, unit, stays, inUnit⟩ := sequence.stays order undisturbed isType isIncluded
    obtain ⟨isFile, inFile⟩ := (files type.token (job.fileOf unit)).2
      ⟨i, unit, stays, inUnit, rfl⟩
    refine ⟨job.fileOf unit, isFile, inFile, ?_⟩
    obtain ⟨tree, isTree⟩ := built unit (List.mem_of_getElem? stays.found)
    obtain ⟨key, known, declares⟩ :=
      Decompiler.declares_own_types job.system job.settings false isTree inUnit
    refine ⟨key, known, ?_⟩
    rw [fileOf, isTree]
    exact (tree.mem_keys_render_iff job.settings.format key).2 declares

/-- The file that holds a type has its path, whatever the case of ASCII letters. -/
theorem sameIgnoringCase_of_mem_types
    (order : ∀ units, (job.order units).Perm units)
    {cancelled : Bool}
    {run : Run}
    (completed : job.run cancelled = .ok run)
    {file : SourceFile}
    (isFile : file ∈ run.sources.files)
    {type : TypeDefinition}
    (isType : type ∈ job.module.topLevelTypes)
    (inFile : type.token ∈ file.types) :
    sameIgnoringCase file.path (relativePath job.settings type.space type.name) = true := by
  obtain ⟨i, unit, stays, inUnit, rfl⟩ := (mem_types_iff completed _ _).1 ⟨isFile, inFile⟩
  obtain ⟨tokens, isUnit⟩ :=
    (sequence_run order completed).grouped unit (List.mem_of_getElem? stays.found)
  rw [fileOf_path]
  refine (grouped_group job.settings job.module tokens).same_path isUnit inUnit ?_
  rw [filePath?, Module.type?_of_topLevel isType, Option.map_some]

/-- Two types with paths that differ in the case of a letter outside ASCII. -/
def accentSample : Module :=
  .ofTypes [
    .bare (.ofRow .typeDefinition 2) "" "\u00c9",
    .bare (.ofRow .typeDefinition 3) "" "\u00e9"]

/-- Of two such types the first is lost. -/
theorem loses_included_accentSample :
    ∃ run, (Job.new ⟨accentSample, []⟩ .default).run false = .ok run
      ∧ ∃ type ∈ accentSample.topLevelTypes,
          included (Concealment.all true) accentSample type = true
            ∧ ∀ file ∈ run.sources.files, type.token ∉ file.types := by
  have passes : ((Job.new ⟨accentSample, []⟩ .default).run false).toOption.any (fun run =>
      decide (run.draft.files.map (·.types) = [[.ofRow .typeDefinition 3], []])) = true := by
    decide +kernel
  obtain ⟨run, completed, shape⟩ := Success.exists_ok_of_any passes
  have first : ∃ type ∈ accentSample.topLevelTypes,
      type.token = .ofRow .typeDefinition 2
        ∧ included (Concealment.all true) accentSample type = true := by
    decide +kernel
  obtain ⟨type, isType, own, isIncluded⟩ := first
  refine ⟨run, completed, type, isType, isIncluded, fun file isFile inFile => ?_⟩
  have types := List.mem_map_of_mem (f := (·.types)) (SourceSet.mem_ofDraft_iff.1 isFile)
  rw [of_decide_eq_true shape] at types
  rw [own] at inFile
  rcases List.mem_cons.1 types with second | none
  · rw [second] at inFile
    exact absurd inFile (by decide)
  · rw [List.mem_singleton.1 none] at inFile
    exact absurd inFile List.not_mem_nil

/-- Types of which two have paths that differ in the case of ASCII letters only. The paths of the
others are nearly the same: by an accent, a letter more, and the case in a namespace. -/
def nearbySample : Module :=
  .ofTypes [
    .bare (.ofRow .typeDefinition 2) "Shop" "Item",
    .bare (.ofRow .typeDefinition 3) "shop" "ITEM",
    .bare (.ofRow .typeDefinition 4) "Shop" "\u00cdtem",
    .bare (.ofRow .typeDefinition 5) "Shop" "Items",
    .bare (.ofRow .typeDefinition 6) "SHOP" "Ite"]

/-- The types in one directory, from the last to the first. -/
def nearbyJob : Job :=
  { Job.new ⟨nearbySample, []⟩ { Settings.default with nestedDirectories := false } with
    order := List.reverse }

/-- The two types share a file, each of the others has one of its own, and no type is disturbed. -/
theorem undisturbed_nearbyJob :
    ∃ run, nearbyJob.run false = .ok run
      ∧ (∃ file ∈ run.sources.files,
          file.types = [.ofRow .typeDefinition 2, .ofRow .typeDefinition 3])
      ∧ run.rounds.map (·.units.length) = [4]
      ∧ nearbyJob.Undisturbed := by
  have passes : (nearbyJob.run false).toOption.any (fun run =>
      run.draft.files.any (fun file => decide
          (file.types = [.ofRow .typeDefinition 2, .ofRow .typeDefinition 3]))
        && decide (run.rounds.map (·.units.length) = [4])
        && nearbySample.topLevelTypes.all fun type => run.draft.files.any fun file =>
          decide (type.token ∈ file.types)
            && (nearbySample.typeKey? type.token).any (· ∈ file.symbols.keys)) = true := by
    decide +kernel
  obtain ⟨run, completed, holds⟩ := Success.exists_ok_of_any passes
  obtain ⟨shape, kept⟩ := Bool.and_eq_true_iff.1 holds
  obtain ⟨shared, units⟩ := Bool.and_eq_true_iff.1 shape
  obtain ⟨file, isFile, types⟩ := List.any_eq_true.1 shared
  refine ⟨run, completed, ⟨file, SourceSet.mem_ofDraft_iff.2 isFile, of_decide_eq_true types⟩,
    of_decide_eq_true units, ?_⟩
  refine (keeps_included_iff nearbyJob (fun units => units.reverse_perm) false run completed).1
    fun type isType _ => ?_
  obtain ⟨file, isFile, holds⟩ := List.any_eq_true.1 (List.all_eq_true.1 kept type isType)
  obtain ⟨inFile, known⟩ := Bool.and_eq_true_iff.1 holds
  obtain ⟨key, isKey, declared⟩ := (Option.any_eq_true _ _).1 known
  exact ⟨file, SourceSet.mem_ofDraft_iff.2 isFile, of_decide_eq_true inFile, key, isKey,
    of_decide_eq_true declared⟩

end Job

end Sources
end AssemblyAtlas
