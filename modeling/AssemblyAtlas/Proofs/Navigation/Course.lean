import AssemblyAtlas.Proofs.Navigation.Outcome

/-!
# The course of a request

A request ends at the first step that refuses it: where its assembly is looked for, where the file
of its type is, and where this file is written to the disk.

* `Provider.Course` has the four ways with the step at which each of them ends;
* `Provider.completed_of_fileOf` says that the sources of a new project come from a run that nobody
  cancelled.
-/

namespace AssemblyAtlas
namespace Navigation

open Assembly
open Sources

namespace Provider

variable (provider : Provider)

/-- The ways that a request may go. -/
inductive Course
    (workspace : Workspace)
    (request : Request)
    (context : Context)
    (cancellation : Cancellation) :
    Workspace × Except Failure (Option Destination) → Prop
  /-- Looking for the assembly fails. -/
  | refused
      {failure : Failure}
      (targeted : provider.target workspace.disk request context = .error failure) :
      Course workspace request context cancellation (workspace, .error failure)
  /-- There is no assembly. -/
  | unknown
      (targeted : provider.target workspace.disk request context = .ok none) :
      Course workspace request context cancellation (workspace, .ok none)
  /-- There is no file for the type. -/
  | failed
      {target : Target}
      {middle : Workspace}
      {failure : Failure}
      (targeted : provider.target workspace.disk request context = .ok (some target))
      (looked : provider.fileOf workspace target request.topLevel cancellation
        = (middle, .error failure)) :
      Course workspace request context cancellation (middle, .error failure)
  /-- The file is written, or was there. -/
  | reached
      {target : Target}
      {middle : Workspace}
      {file : GeneratedFile}
      (targeted : provider.target workspace.disk request context = .ok (some target))
      (looked : provider.fileOf workspace target request.topLevel cancellation
        = (middle, .ok file)) :
      Course workspace request context cancellation
        ({ middle with disk := (file.materialize middle.disk provider.options.mayWait).1 },
          (file.materialize middle.disk provider.options.mayWait).2.map fun _ =>
            some (destination request.symbol file))

variable {provider}

theorem course_navigate
    (workspace : Workspace)
    (request : Request)
    (context : Context)
    (cancellation : Cancellation) :
    provider.Course workspace request context cancellation
      (provider.navigate workspace request context cancellation) := by
  rw [navigate]
  split
  · next targeted => exact .refused targeted
  · next targeted => exact .unknown targeted
  · next target targeted =>
      split
      · next looked => exact .failed targeted looked
      · next middle file looked =>
          have reached : provider.Course workspace request context cancellation _ :=
            .reached targeted looked
          dsimp only
          split
          · next refused =>
              rw [refused] at reached
              exact reached
          · next written =>
              rw [written] at reached
              exact reached

/-- Only the disk fails where a file is written to it. -/
theorem file_of_materialize
    {file : GeneratedFile}
    {disk : Disk}
    {mayWait : Bool}
    {failure : Failure}
    (failed : (file.materialize disk mayWait).2 = .error failure) :
    ∃ fault, failure = .file fault := by
  rw [GeneratedFile.materialize, writeOnce] at failed
  split at failed
  · dsimp only at failed
    split at failed
    · split at failed
      · cases failed
      · next refused =>
          rw [Writing.create] at refused
          split at refused
          · cases refused
          · cases refused
          · next fault _ _ =>
              cases failed
              cases refused
              exact ⟨fault, rfl⟩
    · cases failed
  · cases failed

/-- Nobody has cancelled when a project is made. -/
theorem not_cancelled_of_createProject
    {workspace after : Workspace}
    {target : Target}
    {topLevel : SymbolKey}
    {sources : Option SourceSet}
    {cancelled : Bool}
    {file : GeneratedFile}
    (created : provider.createProject workspace target topLevel sources cancelled
      = (after, .ok file)) :
    cancelled = false := by
  cases cancelled with
  | false => rfl
  | true =>
      rw [createProject] at created
      split at created
      · cases created
      · rw [fill] at created
        split at created
        · cases created
        · rw [if_pos rfl] at created
          cases created

/-- Where the file of a new project comes from a run, nobody has cancelled the run. -/
theorem completed_of_fileOf
    {workspace after : Workspace}
    {target : Target}
    {topLevel : SymbolKey}
    {cancellation : Cancellation}
    {file : GeneratedFile}
    (looked : provider.fileOf workspace target topLevel cancellation = (after, .ok file))
    (absent : workspace.project? target.key = none)
    (shows : target.decompilation = true) :
    (provider.decompile target cancellation).1.cancelled = false := by
  rw [fileOf, absent] at looked
  dsimp only at looked
  rw [firstFile, if_pos shows] at looked
  dsimp only at looked
  split at looked
  · cases looked
  · exact not_cancelled_of_createProject looked

end Provider

end Navigation
end AssemblyAtlas
