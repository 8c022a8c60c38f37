import AssemblyAtlas.Proofs.Sources.Closure
import AssemblyAtlas.Proofs.Sources.Drafts
import AssemblyAtlas.Proofs.Syntax.Declared

/-!
# The files that a run writes

A run puts the files of its units into a draft, in the order in which it works on them, and the file
with the attributes of the assembly behind all of them. The units of the first round, which hold the
included types, come before all others.

* `Job.worked` lists the units in this order, and `Job.fileOf` is the file of a unit;
* `Job.Written` is what each round keeps, and `Job.draft_run` is about a completed run.
-/

namespace AssemblyAtlas
namespace Sources

open Assembly
open Declaration
open Syntax

namespace Job

variable (job : Job)

/-- The file of a unit; that of a unit without a tree has no text. -/
def fileOf (unit : WorkUnit) : SourceFile :=
  match job.tree false unit with
  | .ok tree => job.file unit tree
  | .error _ => ⟨unit.path, "", .empty, unit.types⟩

@[simp] theorem fileOf_path (unit : WorkUnit) :
    (job.fileOf unit).path = unit.path := by
  rw [fileOf]
  split <;> rfl

@[simp] theorem fileOf_types (unit : WorkUnit) :
    (job.fileOf unit).types = unit.types := by
  rw [fileOf]
  split <;> rfl

/-- The units of all rounds in the order in which they are worked on. -/
def worked (run : Run) : List WorkUnit :=
  run.rounds.flatMap fun round => job.order round.units

/-- The draft has the files of all units, and each unit has a tree. -/
structure Written (run : Run) : Prop where
  draft : run.draft = .ofFiles ((job.worked run).map job.fileOf)
  built : ∀ unit ∈ job.worked run, ∃ tree, job.tree false unit = .ok tree

variable {job}

/-- Work on units puts their files into the draft. -/
theorem draft_foldlM_work
    {units : List WorkUnit}
    {run next : Run}
    (worked : units.foldlM job.work run = .ok next) :
    next.draft = (units.map job.fileOf).foldl SourceDraft.insert run.draft
      ∧ ∀ unit ∈ units, ∃ tree, job.tree false unit = .ok tree := by
  induction units generalizing run with
  | nil =>
      obtain rfl : run = next := Except.ok.inj worked
      simp
  | cons unit rest ih =>
      rw [List.foldlM_cons, Success.bind_eq_ok_iff] at worked
      obtain ⟨middle, first, worked⟩ := worked
      obtain ⟨-, tree, built, rfl⟩ := work_eq_ok_iff.1 first
      obtain ⟨draft, later⟩ := ih worked
      have own : job.fileOf unit = job.file unit tree := by
        rw [fileOf, built]
      constructor
      · rw [draft, List.map_cons, List.foldl_cons, own]
        rfl
      · intro other isOther
        rcases List.mem_cons.1 isOther with rfl | behind
        · exact ⟨tree, built⟩
        · exact later other behind

/-- At the start nothing is written. -/
theorem written_start (cancelled : Bool) :
    job.Written (.start cancelled) where
  draft := rfl
  built := fun _ isUnit => absurd isUnit List.not_mem_nil

/-- A round adds the files of its units. -/
theorem Written.workRound
    {run next : Run}
    {types : List Token}
    (written : job.Written run)
    (worked : job.workRound run types = .ok next) :
    next.rounds = run.rounds ++ [job.roundOf types] ∧ job.Written next := by
  rw [Job.workRound, Success.bind_eq_ok_iff] at worked
  obtain ⟨⟨⟩, -, worked⟩ := worked
  have rounds : next.rounds = run.rounds ++ [job.roundOf types] := (foldlM_work worked).1
  obtain ⟨draft, built⟩ := draft_foldlM_work worked
  have units : job.worked next = job.worked run ++ job.order (job.roundOf types).units := by
    rw [Job.worked, rounds, List.flatMap_append, List.flatMap_singleton]
    rfl
  refine ⟨rounds, ?_, ?_⟩
  · rw [units, List.map_append, SourceDraft.ofFiles_append, ← written.draft]
    exact draft
  · intro unit isUnit
    rw [units] at isUnit
    rcases List.mem_append.1 isUnit with old | new
    · exact written.built unit old
    · exact built unit new

/-- Rounds add files, and the rounds that were there come first. -/
theorem Written.rounds
    {limit : Nat}
    {run final : Run}
    {types : List Token}
    (written : job.Written run)
    (worked : job.rounds limit run types = .ok final) :
    run.rounds <+: final.rounds ∧ job.Written final := by
  induction limit generalizing run types with
  | zero =>
      obtain rfl : run = final := Except.ok.inj worked
      exact ⟨List.prefix_rfl, written⟩
  | succ limit ih =>
      obtain ⟨next, round, worked⟩ := rounds_succ_eq_ok worked
      obtain ⟨longer, further⟩ := written.workRound round
      have extends_run : run.rounds <+: next.rounds := by
        rw [longer]
        exact List.prefix_append _ _
      rcases worked with ⟨-, rfl⟩ | ⟨-, worked⟩
      · exact ⟨extends_run, further⟩
      · obtain ⟨behind, last⟩ := ih further worked
        exact ⟨extends_run.trans behind, last⟩

/-- A completed run starts with the round of the included types. It has written the files of its
units, and behind them that with the attributes of the assembly. -/
theorem draft_run
    {cancelled : Bool}
    {run : Run}
    (completed : job.run cancelled = .ok run) :
    (∃ rest, run.rounds = job.roundOf job.initialTypes :: rest)
      ∧ run.draft = .ofFiles ((job.worked run).map job.fileOf ++ [job.assemblyInfo])
      ∧ ∀ unit ∈ job.worked run, ∃ tree, job.tree false unit = .ok tree := by
  rw [Job.run, Success.bind_eq_ok_iff] at completed
  obtain ⟨last, worked, finished⟩ := completed
  have same := finish_rounds finished
  have units : job.worked run = job.worked last := by
    rw [Job.worked, same, Job.worked]
  have all := ((written_start cancelled).rounds worked).2
  refine ⟨?_, ?_, ?_⟩
  · -- The first round is worked on in any case.
    obtain ⟨next, round, worked⟩ := rounds_succ_eq_ok worked
    obtain ⟨first, further⟩ := (written_start cancelled).workRound round
    obtain ⟨rest, longer⟩ : next.rounds <+: last.rounds := by
      rcases worked with ⟨-, rfl⟩ | ⟨-, worked⟩
      · exact List.prefix_rfl
      · exact (further.rounds worked).1
    rw [first] at longer
    exact ⟨rest, same.trans longer.symm⟩
  · rw [finish, Success.bind_eq_ok_iff] at finished
    obtain ⟨⟨⟩, -, finished⟩ := finished
    rw [units, SourceDraft.ofFiles_append, ← all.draft, ← Except.ok.inj finished]
    rfl
  · rw [units]
    exact all.built

/-- The file with the attributes of the assembly declares nothing. -/
theorem assemblyInfo_symbols (job : Job) :
    job.assemblyInfo.symbols = .empty :=
  SourceUnit.symbols_render_of_members rfl _

/-- A file of a completed run has the symbols of the tree of its types. -/
theorem tree_of_mem_sources
    {cancelled : Bool}
    {run : Run}
    (completed : job.run cancelled = .ok run)
    {file : SourceFile}
    (isFile : file ∈ run.sources.files) :
    ∃ tree,
      (Decompiler.new job.system job.settings).types false file.types = .ok tree
        ∧ file.symbols = (tree.render job.settings.format).symbols := by
  obtain ⟨-, draft, built⟩ := draft_run completed
  rw [Run.sources, SourceSet.mem_ofDraft_iff, draft, SourceDraft.mem_ofFiles_iff] at isFile
  obtain ⟨i, found, -⟩ := isFile
  rcases List.mem_append.1 (List.mem_of_getElem? found) with isUnit | isInfo
  · obtain ⟨unit, isWorked, rfl⟩ := List.mem_map.1 isUnit
    obtain ⟨tree, isTree⟩ := built unit isWorked
    refine ⟨tree, ?_, ?_⟩
    · rw [fileOf_types]
      exact isTree
    · rw [fileOf, isTree]
      rfl
  · obtain rfl : file = job.assemblyInfo := List.mem_singleton.1 isInfo
    refine ⟨⟨[], []⟩, rfl, ?_⟩
    rw [assemblyInfo_symbols, SourceUnit.symbols_render_of_members rfl]

end Job

end Sources
end AssemblyAtlas
