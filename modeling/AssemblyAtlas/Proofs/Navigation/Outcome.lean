import AssemblyAtlas.Navigation.Provider
import AssemblyAtlas.Proofs.Navigation.Lookup
import AssemblyAtlas.Proofs.Navigation.ProjectFiles

/-!
# What comes of a request

A request finds a file of a project that is there, adds a file to such a project, makes a project,
or is refused. A refused request leaves projects and files alone.

* `Provider.Outcome` has these four cases with all that is known in each of them;
* `Provider.outcome_fileOf` and `Provider.navigate_cases` are where the steps of a request are taken
  apart.
-/

namespace AssemblyAtlas
namespace Navigation

open Assembly
open Reference
open Sources

namespace Provider

variable (provider : Provider)

/-- The job of writing the assembly of a target. -/
def job (target : Target) (cancellation : Cancellation) : Job :=
  { Job.new (target.resolver.typeSystem provider.read target.module).value
      provider.options.settings with
    cancelsAt := cancellation.cancelsAt }

/-- The sources of a new project, if bodies may be shown and the assembly can be written. -/
def sources? (target : Target) (cancellation : Cancellation) : Option SourceSet :=
  if target.decompilation then (provider.decompile target cancellation).1.sources else none

/-- The next project of a workspace, without documents. -/
def emptyProject
    (workspace : Workspace)
    (target : Target)
    (sources : Option SourceSet) :
    Project :=
  Project.new ⟨workspace.lastProject + 1⟩ target.key target.module.identity
    (Path.join provider.root target.key.directoryName) sources.isNone

/-- The generated file of a source file that is a document of the project. -/
def record? (project : Project) (key : AssemblyKey) (file : SourceFile) : Option GeneratedFile :=
  (project.find? file.path).map fun document => generated project key document file

/-- The text of the project file of a module. -/
def projectText (module : Module) : String :=
  (projectFile provider.markup module.identity module.references).toOption.getD ""

theorem projectFile_eq_projectText (module : Module) :
    projectFile provider.markup module.identity module.references
      = .ok (provider.projectText module) := by
  obtain ⟨text, -, written, -⟩ :=
    projectFile_eq_ok provider.documented module.identity module.references
  rw [projectText, written]
  rfl

/-- What a project has besides the sources of the whole assembly. -/
def extraFiles (project : Project) (module : Module) : List SourceFile :=
  if provider.options.projectFile then
    [plainFile project.projectFilePath (provider.projectText module)]
  else
    []

/-- The files of a project with all sources can always be made. -/
theorem projectFiles_some
    (project : Project)
    (module : Module)
    (topLevel : SymbolKey)
    (sources : SourceSet)
    (cancelled : Bool) :
    provider.projectFiles project module topLevel (some sources) cancelled
      = .ok (sources.files ++ provider.extraFiles project module) := by
  rw [projectFiles, extraFiles, projectFile_eq_projectText]
  split
  · rfl
  · rw [List.append_nil]

/-- What may come of looking for the file of a type. -/
inductive Outcome
    (workspace : Workspace)
    (target : Target)
    (topLevel : SymbolKey)
    (cancellation : Cancellation) :
    Workspace × Except Failure GeneratedFile → Prop
  /-- There is no file. At most an assembly was written in vain. -/
  | refused
      (decompilations : Nat)
      (reports : List Report)
      (failure : Failure) :
      Outcome workspace target topLevel cancellation
        ({ workspace with decompilations := decompilations, reports := reports }, .error failure)
  /-- The project shows a file. -/
  | known
      {project : Project}
      {path : String}
      {file : GeneratedFile}
      (present : workspace.project? target.key = some project)
      (shown : project.primary? (provider.expectedPath topLevel) = some path)
      (registered : workspace.index.find? (project.absolute path) = some file) :
      Outcome workspace target topLevel cancellation (workspace, .ok file)
  /-- The project shows no file and gets one. -/
  | grown
      {project : Project}
      {stub : SourceFile}
      {document : DocumentId}
      (present : workspace.project? target.key = some project)
      (lacking : ∀ path, project.primary? (provider.expectedPath topLevel) = some path →
        workspace.index.find? (project.absolute path) = none)
      (bare : project.signaturesOnly = true)
      (made : provider.stub target.module topLevel cancellation.early = .ok stub)
      (found : (project.add stub.path).find? stub.path = some document) :
      Outcome workspace target topLevel cancellation
        (workspace.addFile (project.add stub.path)
            (generated (project.add stub.path) target.key document stub),
          .ok (generated (project.add stub.path) target.key document stub))
  /-- There is no project and one is made. -/
  | created
      {sources : Option SourceSet}
      {files : List SourceFile}
      {project : Project}
      {primary : String}
      {file : SourceFile}
      {document : DocumentId}
      (decompilations : Nat)
      (reports : List Report)
      (absent : workspace.project? target.key = none)
      (supplied : sources = provider.sources? target cancellation)
      (made : provider.projectFiles (provider.emptyProject workspace target sources)
        target.module topLevel sources false = .ok files)
      (filled : project =
        (provider.emptyProject workspace target sources).addAll (files.map (·.path)))
      (shown : project.primary? (provider.expectedPath topLevel) = some primary)
      (last : (files.filter (·.path == primary)).getLast? = some file)
      (found : project.find? file.path = some document) :
      Outcome workspace target topLevel cancellation
        ({ workspace with decompilations := decompilations, reports := reports }.addProject project
            (files.filterMap (record? project target.key)),
          .ok (generated project target.key document file))

variable {provider}

/-- A project that is there shows a file or grows. -/
theorem outcome_cachedFile
    {workspace : Workspace}
    {project : Project}
    {target : Target}
    (topLevel : SymbolKey)
    (cancellation : Cancellation)
    (present : workspace.project? target.key = some project) :
    provider.Outcome workspace target topLevel cancellation
      (provider.cachedFile workspace project target topLevel cancellation.early) := by
  have refuse (failure : Failure) :
      provider.Outcome workspace target topLevel cancellation (workspace, .error failure) :=
    .refused workspace.decompilations workspace.reports failure
  rw [cachedFile]
  split
  · next file known =>
      obtain ⟨path, shown, registered⟩ := Option.bind_eq_some_iff.1 known
      exact .known present shown registered
  · next unknown =>
      split
      · next bare =>
          split
          · exact refuse _
          · next stub made =>
              obtain ⟨document, found⟩ :=
                Option.isSome_iff_exists.1 (project.isSome_find?_add stub.path)
              simp only [found]
              refine .grown present (fun path shown => ?_) bare made found
              rw [shown] at unknown
              exact unknown
      · exact refuse _

/-- The wanted file of a new project is one of its files. -/
theorem exists_wanted
    {empty : Project}
    (isEmpty : empty.documents = [])
    {files : List SourceFile}
    {expected primary : String}
    (shown : (empty.addAll (files.map (·.path))).primary? expected = some primary) :
    ∃ file document,
      (files.filter (·.path == primary)).getLast? = some file
        ∧ (empty.addAll (files.map (·.path))).find? file.path = some document := by
  obtain ⟨document, member, path⟩ := Project.mem_of_primary? shown
  have added : primary ∈ files.map (·.path) := by
    rcases Project.mem_of_addAll member with old | new
    · rw [isEmpty] at old
      exact absurd old List.not_mem_nil
    · exact path ▸ new
  obtain ⟨some_file, isFile, own⟩ := List.mem_map.1 added
  have inFilter : some_file ∈ files.filter (·.path == primary) :=
    List.mem_filter.2 ⟨isFile, by simpa using own⟩
  obtain ⟨file, last⟩ : ∃ file, (files.filter (·.path == primary)).getLast? = some file :=
    ⟨_, List.getLast?_eq_some_getLast (List.ne_nil_of_mem inFilter)⟩
  have isLast := (List.mem_filter.1 (List.mem_of_getLast? last)).1
  obtain ⟨id, found⟩ := Option.isSome_iff_exists.1
    (empty.isSome_find?_addAll (List.mem_map_of_mem (f := (·.path)) isLast))
  exact ⟨file, id, last, found⟩

/-- A project is made, or the request is refused. -/
theorem outcome_createProject
    {workspace : Workspace}
    {target : Target}
    (topLevel : SymbolKey)
    (cancellation : Cancellation)
    (decompilations : Nat)
    (reports : List Report)
    (cancelled : Bool)
    (absent : workspace.project? target.key = none) :
    provider.Outcome workspace target topLevel cancellation
      (provider.createProject
        { workspace with decompilations := decompilations, reports := reports }
        target topLevel (provider.sources? target cancellation) cancelled) := by
  have refuse (failure : Failure) :
      provider.Outcome workspace target topLevel cancellation
        ({ workspace with decompilations := decompilations, reports := reports },
          .error failure) :=
    .refused decompilations reports failure
  rw [createProject]
  cases made : provider.projectFiles
      (provider.emptyProject workspace target (provider.sources? target cancellation))
      target.module topLevel (provider.sources? target cancellation) cancelled with
  | error failure =>
      rw [emptyProject] at made
      simp only [made]
      exact refuse failure
  | ok files =>
      cases shown : ((provider.emptyProject workspace target
          (provider.sources? target cancellation)).addAll (files.map (·.path))).primary?
          (provider.expectedPath topLevel) with
      | none =>
          rw [emptyProject] at made shown
          simp only [made, fill, shown]
          exact refuse _
      | some primary =>
          cases cancelled with
          | true =>
              rw [emptyProject] at made shown
              simp only [made, fill, shown]
              exact refuse .cancelled
          | false =>
              obtain ⟨file, document, last, found⟩ := exists_wanted rfl shown
              have named := made
              have listed := shown
              have numbered := found
              rw [emptyProject] at named listed numbered
              simp only [named, fill, listed, last, numbered, Option.bind_some, Option.map_some]
              exact .created decompilations reports absent rfl made rfl shown last found

/-- The file of a type is found, added or made with a project, or the request is refused. -/
theorem outcome_fileOf
    (workspace : Workspace)
    (target : Target)
    (topLevel : SymbolKey)
    (cancellation : Cancellation) :
    provider.Outcome workspace target topLevel cancellation
      (provider.fileOf workspace target topLevel cancellation) := by
  rw [fileOf]
  cases present : workspace.project? target.key with
  | some project => exact outcome_cachedFile topLevel cancellation present
  | none =>
      have create (decompilations : Nat) (reports : List Report) (cancelled : Bool) :=
        @outcome_createProject provider _ _ topLevel cancellation decompilations reports cancelled
          present
      show provider.Outcome _ _ _ _ (provider.firstFile _ _ _ _)
      rw [firstFile]
      cases shows : target.decompilation with
      | false =>
          have none : provider.sources? target cancellation = none := by
            simp [sources?, shows]
          have outcome := create workspace.decompilations workspace.reports cancellation.early
          rw [none] at outcome
          exact outcome
      | true =>
          cases written : provider.decompile target cancellation with
          | mk decompilation result =>
              have sources : provider.sources? target cancellation = decompilation.sources := by
                rw [sources?, shows, if_pos rfl, written]
              rw [if_pos rfl]
              cases result with
              | error failure => exact .refused _ _ failure
              | ok done =>
                  have outcome := create (workspace.decompilations + 1)
                    (workspace.reports ++ decompilation.reports) decompilation.cancelled
                  rw [sources] at outcome
                  exact outcome

/-- A request without a target changes nothing. Any other has an outcome; the file that came of it
is where the answer leads, and after that only the disk is changed. -/
theorem navigate_cases
    {workspace after : Workspace}
    {request : Request}
    {context : Context}
    {cancellation : Cancellation}
    {answer : Except Failure (Option Destination)}
    (navigated : provider.navigate workspace request context cancellation = (after, answer)) :
    (after = workspace ∧ ∀ place, answer ≠ .ok (some place))
    ∨ ∃ target middle result disk,
        provider.target workspace.disk request context = .ok (some target)
          ∧ provider.Outcome workspace target request.topLevel cancellation (middle, result)
          ∧ after = { middle with disk := disk }
          ∧ ∀ place, answer = .ok (some place) →
              ∃ file, result = .ok file ∧ place = destination request.symbol file := by
  rw [navigate] at navigated
  split at navigated
  · cases navigated
    exact Or.inl ⟨rfl, by simp⟩
  · cases navigated
    exact Or.inl ⟨rfl, by simp⟩
  · next target targeted =>
      right
      have outcome : provider.Outcome workspace target request.topLevel cancellation _ :=
        outcome_fileOf workspace target request.topLevel cancellation
      split at navigated
      · next middle failure looked =>
          cases navigated
          rw [looked] at outcome
          exact ⟨target, _, _, after.disk, targeted, outcome, rfl, by simp⟩
      · next middle file looked =>
          rw [looked] at outcome
          refine ⟨target, middle, _, (file.materialize middle.disk provider.options.mayWait).1,
            targeted, outcome, ?_⟩
          dsimp only at navigated
          split at navigated
          · cases navigated
            exact ⟨rfl, by simp⟩
          · cases navigated
            refine ⟨rfl, fun place same => ⟨file, rfl, ?_⟩⟩
            simpa using same.symm

end Provider

end Navigation
end AssemblyAtlas
