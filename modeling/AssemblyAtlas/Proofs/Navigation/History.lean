import AssemblyAtlas.Proofs.Navigation.Course
import AssemblyAtlas.Proofs.Navigation.Origin
import AssemblyAtlas.Proofs.Navigation.Places
import AssemblyAtlas.Proofs.Sources.Paths

/-!
# Operations in a row

A provider is asked for symbols, told to clean up, and told to write files, while others change the
disk. Each of these operations leaves projects and files as they are, or adds a file to a project,
or makes a project, or drops one or all of them.

* `Operation` has what may be done, and `Provider.after` is the workspace after operations in a row,
  which by `Provider.reachable_iff` is any workspace that the provider comes to;
* `Provider.Change` has the five ways in which an operation may change a workspace, and
  `Provider.change_perform` says that there are no others;
* `Provider.invariant_after` is about what every change keeps.
-/

namespace AssemblyAtlas
namespace Navigation

open Assembly
open FileName
open Sources

/-- What may be done with a provider, and what others may do to its disk. -/
inductive Operation where
  | navigate (request : Request) (context : Context) (cancellation : Cancellation)
  | cleanUp (key : AssemblyKey)
  | cleanUpAll
  | ensure (path : String)
  | elsewhere (disk : Disk)

namespace Provider

variable (provider : Provider)

/-- The workspace after an operation. -/
def perform (workspace : Workspace) : Operation → Workspace
  | .navigate request context cancellation =>
      (provider.navigate workspace request context cancellation).1
  | .cleanUp key => (workspace.cleanUp key).1
  | .cleanUpAll => workspace.cleanUpAll
  | .ensure path => (workspace.ensure path provider.options.mayWait).1
  | .elsewhere disk => { workspace with disk := disk }

/-- The workspace of a new provider after operations in a row. -/
def after (disk : Disk) (operations : List Operation) : Workspace :=
  operations.foldl provider.perform (.new disk)

/-- The operation asks for a type of an assembly. -/
def Asks
    (workspace : Workspace)
    (operation : Operation)
    (target : Target)
    (topLevel : SymbolKey)
    (cancellation : Cancellation) :
    Prop :=
  ∃ request context, operation = .navigate request context cancellation
    ∧ provider.target workspace.disk request context = .ok (some target)
    ∧ request.topLevel = topLevel

/-- What an operation may do to projects and files. -/
inductive Change (workspace : Workspace) (operation : Operation) : Workspace → Prop
  | still
      {after : Workspace}
      (projects : after.projects = workspace.projects)
      (index : after.index = workspace.index)
      (last : after.lastProject = workspace.lastProject) :
      Change workspace operation after
  /-- A project gets the file of a type. -/
  | grown
      {after : Workspace}
      {target : Target}
      {topLevel : SymbolKey}
      {cancellation : Cancellation}
      {project : Project}
      {stub : SourceFile}
      {document : DocumentId}
      (asked : provider.Asks workspace operation target topLevel cancellation)
      (present : workspace.project? target.key = some project)
      (lacking : ∀ path, project.primary? (provider.expectedPath topLevel) = some path →
        workspace.index.find? (project.absolute path) = none)
      (bare : project.signaturesOnly = true)
      (made : provider.stub target.module topLevel cancellation.early = .ok stub)
      (found : (project.add stub.path).find? stub.path = some document)
      (projects : after.projects = (workspace.replace (project.add stub.path)).projects)
      (index : after.index = workspace.index.register
        (generated (project.add stub.path) target.key document stub))
      (last : after.lastProject = workspace.lastProject) :
      Change workspace operation after
  /-- A project is made. -/
  | created
      {after : Workspace}
      {target : Target}
      {topLevel : SymbolKey}
      {cancellation : Cancellation}
      {sources : Option SourceSet}
      {files : List SourceFile}
      {project : Project}
      (asked : provider.Asks workspace operation target topLevel cancellation)
      (absent : workspace.project? target.key = none)
      (supplied : sources = provider.sources? target cancellation)
      (complete : target.decompilation = true →
        (provider.decompile target cancellation).1.cancelled = false)
      (made : provider.projectFiles (provider.emptyProject workspace target sources)
        target.module topLevel sources false = .ok files)
      (filled : project =
        (provider.emptyProject workspace target sources).addAll (files.map (·.path)))
      (projects : after.projects = workspace.projects ++ [project])
      (index : after.index = (files.filterMap (record? project target.key)).foldl
        FileIndex.register workspace.index)
      (last : after.lastProject = workspace.lastProject + 1) :
      Change workspace operation after
  /-- A project is dropped. -/
  | dropped
      {after : Workspace}
      {key : AssemblyKey}
      {project : Project}
      (asked : operation = .cleanUp key)
      (present : workspace.project? key = some project)
      (projects : after.projects = workspace.projects.filter (·.id ≠ project.id))
      (index : after.index = workspace.index.removeProject project.id)
      (last : after.lastProject = workspace.lastProject) :
      Change workspace operation after
  /-- All projects are dropped. -/
  | cleared
      {after : Workspace}
      (asked : operation = .cleanUpAll)
      (projects : after.projects = [])
      (index : after.index = .empty)
      (last : after.lastProject = workspace.lastProject) :
      Change workspace operation after

variable {provider}

/-- A request changes projects and files as its outcome says. -/
theorem change_navigate
    (workspace : Workspace)
    (request : Request)
    (context : Context)
    (cancellation : Cancellation) :
    provider.Change workspace (.navigate request context cancellation)
      (provider.navigate workspace request context cancellation).1 := by
  have course : provider.Course workspace request context cancellation _ :=
    course_navigate workspace request context cancellation
  generalize provider.navigate workspace request context cancellation = navigated at course
  have outcome (target : Target) : provider.Outcome workspace target request.topLevel cancellation
      (provider.fileOf workspace target request.topLevel cancellation) :=
    outcome_fileOf workspace target request.topLevel cancellation
  cases course with
  | refused targeted => exact .still rfl rfl rfl
  | unknown targeted => exact .still rfl rfl rfl
  | @failed target middle failure targeted looked =>
      have came := outcome target
      rw [looked] at came
      cases came
      exact .still rfl rfl rfl
  | @reached target middle file targeted looked =>
      have came := outcome target
      rw [looked] at came
      have asked : provider.Asks workspace (.navigate request context cancellation) target
          request.topLevel cancellation :=
        ⟨request, context, rfl, targeted, rfl⟩
      cases came with
      | known => exact .still rfl rfl rfl
      | grown present lacking bare made found =>
          exact .grown asked present lacking bare made found rfl rfl rfl
      | created _ _ absent supplied made filled =>
          exact .created asked absent supplied (completed_of_fileOf looked absent) made filled
            rfl rfl rfl

/-- Dropping projects issues no number. -/
theorem lastProject_foldl_dropProject
    (projects : List Project)
    (workspace : Workspace) :
    (projects.foldl (fun current project => current.dropProject project) workspace).lastProject
      = workspace.lastProject := by
  induction projects generalizing workspace with
  | nil => rfl
  | cons project rest ih => exact ih (workspace.dropProject project)

/-- An operation changes projects and files in one of the five ways. -/
theorem change_perform
    (workspace : Workspace)
    (operation : Operation) :
    provider.Change workspace operation (provider.perform workspace operation) := by
  cases operation with
  | navigate request context cancellation =>
      exact change_navigate workspace request context cancellation
  | cleanUp key =>
      rw [perform, Workspace.cleanUp]
      split
      · next project present => exact .dropped rfl present rfl rfl rfl
      · exact .still rfl rfl rfl
  | cleanUpAll =>
      exact .cleared rfl rfl rfl (lastProject_foldl_dropProject workspace.projects workspace)
  | ensure path => exact .still rfl rfl rfl
  | elsewhere disk => exact .still rfl rfl rfl

/-! ## Runs -/

theorem after_concat
    (disk : Disk)
    (operations : List Operation)
    (operation : Operation) :
    provider.after disk (operations ++ [operation])
      = provider.perform (provider.after disk operations) operation := by
  rw [after, List.foldl_append]
  rfl

/-- What holds at first and is kept by every change holds after all operations. -/
theorem invariant_after
    {holds : Workspace → Prop}
    (first : ∀ disk, holds (.new disk))
    (step : ∀ {workspace operation after}, holds workspace →
      provider.Change workspace operation after → holds after)
    (disk : Disk)
    (operations : List Operation) :
    holds (provider.after disk operations) := by
  induction operations using List.reverseRecOn with
  | nil => exact first disk
  | append_singleton earlier operation ih =>
      rw [after_concat]
      exact step ih (change_perform _ operation)

/-- The workspaces that a provider comes to are those after operations in a row. -/
theorem reachable_iff
    {workspace : Workspace} :
    provider.Reachable workspace
      ↔ ∃ disk operations, workspace = provider.after disk operations := by
  constructor
  · have more {before : Workspace} (operation : Operation)
        (known : ∃ disk operations, before = provider.after disk operations) :
        ∃ disk operations, provider.perform before operation = provider.after disk operations := by
      obtain ⟨disk, operations, rfl⟩ := known
      exact ⟨disk, operations ++ [operation], (after_concat disk operations operation).symm⟩
    intro reachable
    induction reachable with
    | new disk => exact ⟨disk, [], rfl⟩
    | navigate request context cancellation before ih =>
        exact more (.navigate request context cancellation) ih
    | cleanUp key before ih => exact more (.cleanUp key) ih
    | cleanUpAll before ih => exact more .cleanUpAll ih
    | ensure path before ih => exact more (.ensure path) ih
    | elsewhere disk before ih => exact more (.elsewhere disk) ih
  · rintro ⟨disk, operations, rfl⟩
    induction operations using List.reverseRecOn with
    | nil => exact .new disk
    | append_singleton earlier operation ih =>
        rw [after_concat]
        cases operation with
        | navigate request context cancellation =>
            exact .navigate request context cancellation ih
        | cleanUp key => exact .cleanUp key ih
        | cleanUpAll => exact .cleanUpAll ih
        | ensure path => exact .ensure path ih
        | elsewhere disk => exact .elsewhere disk ih

/-! ## Files of a new project -/

theorem isExtension_projectFile :
    IsExtension ".csproj".toList where
  dotted := ⟨"csproj".toList, rfl, by decide, List.all_eq_true.1 (by decide)⟩
  short := by decide

/-- The path of a project file leads down. -/
theorem safePath_projectFile (text : String) :
    SafePath (withExtension text ".csproj") := by
  obtain ⟨safe, stem, someStem, name⟩ := safeSegment_withExtension text isExtension_projectFile
  refine safe.safePath ?_
  rw [name]
  intro empty
  exact someStem (String.append_eq_empty_iff.1 empty).1

theorem safePath_expectedPath (topLevel : SymbolKey) :
    SafePath (provider.expectedPath topLevel) :=
  (safePath_relativePath _ _ _).1

/-- The files of a new project have paths that lead down. -/
theorem safePath_of_projectFiles
    {project : Project}
    {target : Target}
    {topLevel : SymbolKey}
    {cancellation : Cancellation}
    {files : List SourceFile}
    (made : provider.projectFiles project target.module topLevel
      (provider.sources? target cancellation) false = .ok files)
    {file : SourceFile}
    (isFile : file ∈ files) :
    SafePath file.path := by
  cases supplied : provider.sources? target cancellation with
  | some sources =>
      rw [supplied, projectFiles_some] at made
      obtain rfl : _ = files := Except.ok.inj made
      rcases List.mem_append.1 isFile with source | extra
      · obtain ⟨run, completed, rfl⟩ := run_of_sources? supplied
        rcases Job.path_of_mem_sources List.Perm.refl completed source with path | path
        · exact path ▸ safePath_assemblyInfoPath
        · obtain ⟨space, name, path⟩ := path
          exact path ▸ (safePath_relativePath _ space name).1
      · rw [extraFiles] at extra
        split at extra
        · rw [List.mem_singleton.1 extra]
          exact safePath_projectFile _
        · exact absurd extra List.not_mem_nil
  | none =>
      rw [supplied] at made
      obtain ⟨stub, isStub, h⟩ := Success.bind_eq_ok_iff.1 made
      cases h
      rcases List.mem_cons.1 isFile with rfl | second
      · exact (stub_eq_ok isStub).1 ▸ safePath_expectedPath topLevel
      · rw [List.mem_singleton.1 second]
        exact safePath_assemblyInfoPath

end Provider

end Navigation
end AssemblyAtlas
