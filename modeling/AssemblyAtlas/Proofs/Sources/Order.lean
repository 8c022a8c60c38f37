import AssemblyAtlas.Proofs.Sources.Written

/-!
# The order of work

The units of a round may be worked on in any order. Two completed runs over the same types with the
same settings have the same rounds, because the next round is the sorted list of a set that does not
depend on the order; and their files have the same paths. Where the last round with a path has it
once, both runs end with the same file there.

* `Job.Alike` relates two jobs that differ in the order and in the listener only;
* `Job.Alike.rounds_eq` is by induction on the rounds, for which `Run.nextTypes_congr` is the step;
* `Run.WritesAt` says at which paths a run writes, and `Job.exists_only_file` that one file is there;
* `Run.lastUnits` are the units that compete for a path, and `SourceDraft.mem_ofFiles_iff_last` says
  which of them wins.
-/

namespace AssemblyAtlas
namespace Sources

open Assembly
open Declaration
open Syntax
open Text

/-! ## Rounds -/

namespace Run

/-- The next types are in the order of their tokens. -/
theorem pairwise_nextTypes (run : Run) :
    run.nextTypes.Pairwise (· ≤ ·) := by
  have transitive (a b c : Token) (ab : decide (a ≤ b) = true) (bc : decide (b ≤ c) = true) :
      decide (a ≤ c) = true :=
    decide_eq_true (UInt32.le_trans (of_decide_eq_true ab) (of_decide_eq_true bc))
  have total (a b : Token) : (decide (a ≤ b) || decide (b ≤ a)) = true := by
    rw [Bool.or_eq_true, decide_eq_true_iff, decide_eq_true_iff]
    exact UInt32.le_total a.value b.value
  have sorted := List.pairwise_mergeSort transitive total
    (run.pending.filter (!run.processed.contains ·)).eraseDups
  exact sorted.imp of_decide_eq_true

/-- The next types are determined by the set of them. -/
theorem nextTypes_congr
    {left right : Run}
    (same : ∀ token, token ∈ left.nextTypes ↔ token ∈ right.nextTypes) :
    left.nextTypes = right.nextTypes := by
  have perm : left.nextTypes.Perm right.nextTypes :=
    (List.perm_ext_iff_of_nodup (nodup_nextTypes left) (nodup_nextTypes right)).2 same
  refine perm.eq_of_pairwise ?_ (pairwise_nextTypes left) (pairwise_nextTypes right)
  rintro ⟨a⟩ ⟨b⟩ - - ab ba
  exact congrArg Token.mk (UInt32.le_antisymm ab ba)

end Run

namespace Job

/-- The jobs are about the same types and have the same settings. -/
structure Alike (left right : Job) : Prop where
  system : left.system = right.system
  settings : left.settings = right.settings

namespace Alike

variable {left right : Job}

theorem follows_iff
    (alike : left.Alike right)
    (token next : Token) :
    left.Follows token next ↔ right.Follows token next := by
  rw [Follows, Follows, Job.module, Job.module, alike.system, alike.settings]

theorem roundOf_eq
    (alike : left.Alike right)
    (types : List Token) :
    left.roundOf types = right.roundOf types := by
  rw [roundOf, roundOf, Job.module, Job.module, alike.system, alike.settings]

theorem initialTypes_eq (alike : left.Alike right) :
    left.initialTypes = right.initialTypes := by
  rw [initialTypes, initialTypes, Job.module, Job.module, alike.system, alike.settings]

theorem fileOf_eq
    (alike : left.Alike right)
    (unit : WorkUnit) :
    left.fileOf unit = right.fileOf unit := by
  simp only [fileOf, tree, file, alike.system, alike.settings]

theorem assemblyInfo_eq (alike : left.Alike right) :
    left.assemblyInfo = right.assemblyInfo := by
  simp only [assemblyInfo, file, alike.system, alike.settings]

/-- After the same rounds, a further round of the same types leaves the same rounds and the same
next types. -/
theorem workRound
    (alike : left.Alike right)
    (leftOrder : ∀ units, (left.order units).Perm units)
    (rightOrder : ∀ units, (right.order units).Perm units)
    {first second firstNext secondNext : Run}
    {types : List Token}
    (same : first.rounds = second.rounds)
    (firstWorked : left.workRound first types = .ok firstNext)
    (secondWorked : right.workRound second types = .ok secondNext) :
    firstNext.rounds = secondNext.rounds ∧ firstNext.nextTypes = secondNext.nextTypes := by
  obtain ⟨firstRounds, firstTypes⟩ := workRound_eq_ok leftOrder firstWorked
  obtain ⟨secondRounds, secondTypes⟩ := workRound_eq_ok rightOrder secondWorked
  have rounds : firstNext.rounds = secondNext.rounds := by
    rw [firstRounds, secondRounds, same, alike.roundOf_eq]
  have processed : firstNext.processed = secondNext.processed := by
    rw [Run.processed, rounds, Run.processed]
  refine ⟨rounds, Run.nextTypes_congr fun token => ?_⟩
  rw [firstTypes token, secondTypes token, processed, alike.roundOf_eq]
  simp only [alike.follows_iff]

/-- Runs that have the same rounds so far, and the same next types, have the same rounds in the
end. -/
theorem rounds
    (alike : left.Alike right)
    (leftOrder : ∀ units, (left.order units).Perm units)
    (rightOrder : ∀ units, (right.order units).Perm units)
    {limit : Nat}
    {first second firstFinal secondFinal : Run}
    {types : List Token}
    (same : first.rounds = second.rounds)
    (firstWorked : left.rounds limit first types = .ok firstFinal)
    (secondWorked : right.rounds limit second types = .ok secondFinal) :
    firstFinal.rounds = secondFinal.rounds := by
  induction limit generalizing first second types with
  | zero =>
      obtain rfl : first = firstFinal := Except.ok.inj firstWorked
      obtain rfl : second = secondFinal := Except.ok.inj secondWorked
      exact same
  | succ limit ih =>
      obtain ⟨firstNext, firstRound, firstRest⟩ := rounds_succ_eq_ok firstWorked
      obtain ⟨secondNext, secondRound, secondRest⟩ := rounds_succ_eq_ok secondWorked
      obtain ⟨further, next⟩ :=
        alike.workRound leftOrder rightOrder same firstRound secondRound
      rw [next] at firstRest
      rcases firstRest with ⟨none, rfl⟩ | ⟨some, firstRest⟩
      · rcases secondRest with ⟨-, rfl⟩ | ⟨some, -⟩
        · exact further
        · exact absurd none some
      · rcases secondRest with ⟨none, -⟩ | ⟨-, secondRest⟩
        · exact absurd none some
        · exact ih further firstRest secondRest

/-- Completed runs of two jobs that differ in the order only have the same rounds. -/
theorem rounds_eq
    (alike : left.Alike right)
    (leftOrder : ∀ units, (left.order units).Perm units)
    (rightOrder : ∀ units, (right.order units).Perm units)
    {first second : Run}
    (firstCompleted : left.run false = .ok first)
    (secondCompleted : right.run false = .ok second) :
    first.rounds = second.rounds := by
  rw [Job.run, Success.bind_eq_ok_iff] at firstCompleted secondCompleted
  obtain ⟨firstLast, firstWorked, firstFinished⟩ := firstCompleted
  obtain ⟨secondLast, secondWorked, secondFinished⟩ := secondCompleted
  rw [finish_rounds firstFinished, finish_rounds secondFinished]
  rw [Job.module, alike.system, alike.initialTypes_eq] at firstWorked
  exact alike.rounds leftOrder rightOrder rfl firstWorked secondWorked

end Alike

end Job

/-! ## Files -/

/-- The units of the round whose paths have the given lowercase form. -/
def Round.unitsAt (round : Round) (key : String) : List WorkUnit :=
  round.units.filter fun unit => lowercase unit.path == key

/-- A run writes at the lowercase paths of its units, and at that of the file with the attributes of
the assembly. -/
def Run.WritesAt (run : Run) (key : String) : Prop :=
  lowercase assemblyInfoPath = key ∨ ∃ unit ∈ run.units, lowercase unit.path = key

/-- The units with the lowercase path, in the last round that has some. -/
def Run.lastUnits (run : Run) (key : String) : List WorkUnit :=
  ((run.rounds.map (·.unitsAt key)).filter (!·.isEmpty)).getLastD []

namespace SourceDraft

/-- The draft of files has the last of them with each path. -/
theorem mem_ofFiles_iff_last
    (files : List SourceFile)
    (file : SourceFile) :
    file ∈ (ofFiles files).files
      ↔ (files.filter (lowercase ·.path == lowercase file.path)).getLast? = some file := by
  induction files using List.reverseRecOn with
  | nil => simp [ofFiles, empty]
  | append_singleton files last ih =>
      rw [ofFiles_append, List.foldl_cons, List.foldl_nil, mem_insert_iff, ih, List.filter_append]
      by_cases same : lowercase last.path = lowercase file.path
      · have kept : [last].filter (lowercase ·.path == lowercase file.path) = [last] := by
          simp [same]
        rw [kept, List.getLast?_concat, Option.some_inj]
        constructor
        · rintro (rfl | ⟨-, differs⟩)
          · rfl
          · exact absurd same.symm differs
        · rintro rfl
          exact Or.inl rfl
      · have dropped : [last].filter (lowercase ·.path == lowercase file.path) = [] := by
          simp [same]
        rw [dropped, List.append_nil]
        constructor
        · rintro (rfl | ⟨before, -⟩)
          · exact absurd rfl same
          · exact before
        · intro before
          exact Or.inr ⟨before, fun equal => same equal.symm⟩

/-- The draft of files has the paths of all of them. -/
theorem exists_mem_ofFiles_iff
    (files : List SourceFile)
    (key : String) :
    (∃ file ∈ (ofFiles files).files, lowercase file.path = key)
      ↔ ∃ file ∈ files, lowercase file.path = key := by
  constructor
  · rintro ⟨file, kept, path⟩
    have last := List.mem_of_getLast? ((mem_ofFiles_iff_last files file).1 kept)
    exact ⟨file, (List.mem_filter.1 last).1, path⟩
  · rintro ⟨file, isFile, rfl⟩
    have some : files.filter (lowercase ·.path == lowercase file.path) ≠ [] :=
      List.ne_nil_of_mem (List.mem_filter.2 ⟨isFile, beq_self_eq_true _⟩)
    obtain ⟨-, path⟩ := List.mem_filter.1 (List.getLast_mem some)
    refine ⟨_, (mem_ofFiles_iff_last files _).2 ?_, beq_iff_eq.1 path⟩
    rw [beq_iff_eq.1 path]
    exact List.getLast?_eq_some_getLast some

end SourceDraft

/-- Of lists that are put behind each other in two orders of their own, the last elements agree if
the last list that is not empty has one element only. -/
theorem getLast?_flatMap_congr
    {α β : Type}
    {entries : List α}
    {contents one other : α → List β}
    (onePerm : ∀ entry, (one entry).Perm (contents entry))
    (otherPerm : ∀ entry, (other entry).Perm (contents entry))
    (single : (((entries.map contents).filter (!·.isEmpty)).getLastD []).length ≤ 1) :
    (entries.flatMap one).getLast? = (entries.flatMap other).getLast? := by
  induction entries using List.reverseRecOn with
  | nil => rfl
  | append_singleton entries last ih =>
      rw [List.flatMap_append, List.flatMap_append, List.flatMap_singleton, List.flatMap_singleton,
        List.getLast?_append, List.getLast?_append]
      rw [List.map_append, List.map_singleton, List.filter_append] at single
      rcases lastContents : contents last with _ | ⟨element, rest⟩
      · -- The last list is empty, and the one before decides.
        have oneEmpty : one last = [] := (lastContents ▸ onePerm last).eq_nil
        have otherEmpty : other last = [] := (lastContents ▸ otherPerm last).eq_nil
        rw [lastContents] at single
        rw [oneEmpty, otherEmpty, ih (by simpa using single)]
      · rw [lastContents] at single
        obtain rfl : rest = [] := by simpa using single
        have oneLast : one last = [element] := List.perm_singleton.1 (lastContents ▸ onePerm last)
        have otherLast : other last = [element] :=
          List.perm_singleton.1 (lastContents ▸ otherPerm last)
        rw [oneLast, otherLast, List.getLast?_singleton, Option.some_or, Option.some_or]

namespace Job

/-- The units of all rounds with the lowercase path, in the order in which they are worked on. -/
def workedAt (job : Job) (run : Run) (key : String) : List WorkUnit :=
  run.rounds.flatMap fun round => (job.order round.units).filter (lowercase ·.path == key)

theorem filter_files_worked
    (job : Job)
    (run : Run)
    (key : String) :
    ((job.worked run).map job.fileOf).filter (lowercase ·.path == key)
      = (job.workedAt run key).map job.fileOf := by
  rw [List.filter_map, worked, workedAt, List.filter_flatMap]
  simp only [Function.comp_def, fileOf_path]

variable {job : Job} {run : Run}

/-- A completed run ends with the file of the last unit with a path; the file with the attributes of
the assembly comes behind all of them. -/
theorem mem_sources_iff
    (completed : job.run false = .ok run)
    (file : SourceFile) :
    file ∈ run.sources.files
      ↔
    ((job.workedAt run (lowercase file.path)).map job.fileOf
        ++ [job.assemblyInfo].filter (lowercase ·.path == lowercase file.path)).getLast?
      = some file := by
  obtain ⟨-, draft, -⟩ := draft_run completed
  rw [Run.sources, SourceSet.mem_ofDraft_iff, draft, SourceDraft.mem_ofFiles_iff_last,
    List.filter_append, filter_files_worked]

/-- The files of a completed run have the paths at which it writes. -/
theorem exists_mem_sources_iff
    (order : ∀ units, (job.order units).Perm units)
    (completed : job.run false = .ok run)
    (key : String) :
    (∃ file ∈ run.sources.files, lowercase file.path = key) ↔ run.WritesAt key := by
  obtain ⟨-, draft, -⟩ := draft_run completed
  have perm : (job.worked run).Perm run.units :=
    List.Perm.flatMap_left _ fun round _ => order round.units
  simp only [Run.sources, SourceSet.mem_ofDraft_iff]
  rw [draft, SourceDraft.exists_mem_ofFiles_iff]
  simp only [List.mem_append, List.mem_map, List.mem_singleton]
  constructor
  · rintro ⟨file, ⟨unit, isWorked, rfl⟩ | rfl, path⟩
    · rw [fileOf_path] at path
      exact Or.inr ⟨unit, perm.mem_iff.1 isWorked, path⟩
    · exact Or.inl path
  · rintro (path | ⟨unit, isUnit, path⟩)
    · exact ⟨job.assemblyInfo, Or.inr rfl, path⟩
    · refine ⟨job.fileOf unit, Or.inl ⟨unit, perm.mem_iff.2 isUnit, rfl⟩, ?_⟩
      rw [fileOf_path, path]

/-- Where a completed run writes, it ends with one file. -/
theorem exists_only_file
    (order : ∀ units, (job.order units).Perm units)
    (completed : job.run false = .ok run)
    {key : String}
    (writes : run.WritesAt key) :
    ∃ file, ∀ other, other ∈ run.sources.files ∧ lowercase other.path = key ↔ other = file := by
  obtain ⟨file, isFile, path⟩ := (exists_mem_sources_iff order completed key).2 writes
  refine ⟨file, fun other => ⟨fun ⟨isOther, same⟩ => ?_, ?_⟩⟩
  · rw [mem_sources_iff completed, path] at isFile
    rw [mem_sources_iff completed, same, isFile] at isOther
    exact (Option.some.inj isOther).symm
  · rintro rfl
    exact ⟨isFile, path⟩

/-- Where the last round with a path has one unit there, jobs that differ in their orders end with
the same files. -/
theorem Alike.mem_sources_iff
    {left right : Job}
    (alike : left.Alike right)
    (leftOrder : ∀ units, (left.order units).Perm units)
    (rightOrder : ∀ units, (right.order units).Perm units)
    {first second : Run}
    (firstCompleted : left.run false = .ok first)
    (secondCompleted : right.run false = .ok second)
    (rounds : first.rounds = second.rounds)
    (file : SourceFile)
    (single : (first.lastUnits (lowercase file.path)).length ≤ 1) :
    file ∈ first.sources.files ↔ file ∈ second.sources.files := by
  have last : (left.workedAt first (lowercase file.path)).getLast?
      = (right.workedAt second (lowercase file.path)).getLast? := by
    rw [workedAt, workedAt, ← rounds]
    exact getLast?_flatMap_congr (fun round => (leftOrder round.units).filter _)
      (fun round => (rightOrder round.units).filter _) single
  have fileOf : left.fileOf = right.fileOf := funext alike.fileOf_eq
  rw [Job.mem_sources_iff firstCompleted, Job.mem_sources_iff secondCompleted,
    List.getLast?_append, List.getLast?_append, List.getLast?_map, List.getLast?_map, last, fileOf,
    alike.assemblyInfo_eq]

/-- Two completed runs that work on the units of each round in orders of their own have the same
rounds, with the same units. Their files have the same lowercase paths, which are those of the units
and that of the file with the attributes of the assembly. Where the last round with a path has one
unit there, there is one file with this path that both runs end with, and neither has another. -/
theorem run_eq_of_alike
    (left right : Job)
    (alike : left.Alike right)
    (leftOrder : ∀ units, (left.order units).Perm units)
    (rightOrder : ∀ units, (right.order units).Perm units)
    (first second : Run)
    (firstCompleted : left.run false = .ok first)
    (secondCompleted : right.run false = .ok second) :
    first.rounds = second.rounds
      ∧ (∀ key, (∃ file ∈ first.sources.files, lowercase file.path = key) ↔ first.WritesAt key)
      ∧ (∀ key, (∃ file ∈ second.sources.files, lowercase file.path = key) ↔ first.WritesAt key)
      ∧ ∀ key, first.WritesAt key → (first.lastUnits key).length ≤ 1 →
          ∃ file,
            (∀ other, other ∈ first.sources.files ∧ lowercase other.path = key ↔ other = file)
              ∧ ∀ other,
                other ∈ second.sources.files ∧ lowercase other.path = key ↔ other = file := by
  have rounds := alike.rounds_eq leftOrder rightOrder firstCompleted secondCompleted
  have same (key : String) : second.WritesAt key ↔ first.WritesAt key := by
    rw [Run.WritesAt, Run.WritesAt, Run.units, Run.units, rounds]
  refine ⟨rounds, exists_mem_sources_iff leftOrder firstCompleted, fun key => ?_,
    fun key writes single => ?_⟩
  · rw [exists_mem_sources_iff rightOrder secondCompleted, same]
  · obtain ⟨file, only⟩ := exists_only_file leftOrder firstCompleted writes
    refine ⟨file, only, fun other => ?_⟩
    rw [← only other]
    refine and_congr_left ?_
    rintro rfl
    exact (alike.mem_sources_iff leftOrder rightOrder firstCompleted secondCompleted rounds other
      single).symm

/-- A module whose two visible types name a generated one. -/
def twoOrdersSample : Module :=
  .ofTypes [
    .bare (.ofRow .typeDefinition 2) "" "<>c",
    { TypeDefinition.bare (.ofRow .typeDefinition 3) "Shop" "Order" with
      base := some (.reference (.definition (.ofRow .typeDefinition 2))) },
    .bare (.ofRow .typeDefinition 4) "Shop" "Item"]

/-- Forwards or backwards, the first round has the two visible types and the second the generated
one. Both runs end with one file for the order, which has its type. -/
theorem run_eq_of_alike_reversed :
    ∃ forward backward file,
      (Job.new ⟨twoOrdersSample, []⟩ .default).run false = .ok forward
        ∧ { Job.new ⟨twoOrdersSample, []⟩ .default with order := List.reverse }.run false
            = .ok backward
        ∧ forward.rounds.map (·.units.length) = [2, 1]
        ∧ forward.rounds = backward.rounds
        ∧ (forward.lastUnits "shop/order.cs").length = 1
        ∧ file.path = "Shop/Order.cs"
        ∧ file.types = [.ofRow .typeDefinition 3]
        ∧ file ∈ forward.sources.files
        ∧ file ∈ backward.sources.files := by
  have forwardPasses : ((Job.new ⟨twoOrdersSample, []⟩ .default).run false).toOption.any (fun run =>
      decide (run.rounds.map (·.units.length) = [2, 1]
        ∧ (run.lastUnits "shop/order.cs").length = 1
        ∧ run.draft.files.any fun file => file.path = "Shop/Order.cs"
            && file.types = [.ofRow .typeDefinition 3])) = true := by
    decide +kernel
  have backwardPasses : ({ Job.new ⟨twoOrdersSample, []⟩ .default with
      order := List.reverse }.run false).toOption.any (fun _ => true) = true := by
    decide +kernel
  obtain ⟨forward, completed, shape⟩ := Success.exists_ok_of_any forwardPasses
  obtain ⟨backward, alsoCompleted, -⟩ := Success.exists_ok_of_any backwardPasses
  obtain ⟨two, one, some⟩ := of_decide_eq_true shape
  obtain ⟨file, inDraft, own⟩ := List.any_eq_true.1 some
  obtain ⟨path, types⟩ := Bool.and_eq_true_iff.1 own
  have key : lowercase file.path = "shop/order.cs" := by
    rw [of_decide_eq_true path]
    decide +kernel
  have isFile : file ∈ forward.sources.files := SourceSet.mem_ofDraft_iff.2 inDraft
  obtain ⟨rounds, written, -, files⟩ := run_eq_of_alike (.new ⟨twoOrdersSample, []⟩ .default)
    { Job.new ⟨twoOrdersSample, []⟩ .default with order := List.reverse } ⟨rfl, rfl⟩
    List.Perm.refl (fun units => units.reverse_perm) forward backward completed alsoCompleted
  obtain ⟨only, first, second⟩ := files "shop/order.cs" ((written _).1 ⟨file, isFile, key⟩) one.le
  obtain rfl := (first file).1 ⟨isFile, key⟩
  exact ⟨forward, backward, file, completed, alsoCompleted, two, rounds, one,
    of_decide_eq_true path, of_decide_eq_true types, isFile, ((second file).2 rfl).1⟩

end Job

end Sources
end AssemblyAtlas
