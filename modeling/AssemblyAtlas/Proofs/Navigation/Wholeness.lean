import AssemblyAtlas.Proofs.Navigation.Bookkeeping
import AssemblyAtlas.Proofs.Navigation.Finding
import AssemblyAtlas.Proofs.Sources.Quiet

/-!
# Projects with bodies

A project with bodies has the files of its whole assembly from the start, and never gets others.

* `Provider.wholeFiles` has these files, and `Provider.pairwise_wholeFiles` says that no two have
  the same path in lower case;
* `Provider.Complete` is what is known of a project with bodies, and `Provider.settled_after` says
  that it stays known;
* `Provider.Complete.exists_source` is about the file that is registered for a document.
-/

namespace AssemblyAtlas
namespace Navigation

open Assembly
open Sources
open Text

namespace Provider

variable
  {provider : Provider}
  {context : Context}
  {disk : Disk}
  {workspace after : Workspace}
  {operation : Operation}

/-! ## Files of a whole assembly -/

/-- The files of a project with the sources of a module. -/
def wholeFiles (provider : Provider) (module : Module) (sources : SourceSet) : List SourceFile :=
  sources.files ++
    if provider.options.projectFile then
      [plainFile (FileName.withExtension module.identity.name ".csproj")
        (provider.projectText module)]
    else
      []

/-- A project with sources has all files of the assembly, whatever type was wanted. -/
theorem projectFiles_of_sources
    {project : Project}
    {module : Module}
    (identity : project.identity = module.identity)
    (topLevel : SymbolKey)
    (sources : SourceSet)
    (cancelled : Bool) :
    provider.projectFiles project module topLevel (some sources) cancelled
      = .ok (provider.wholeFiles module sources) := by
  rw [projectFiles_some, extraFiles, wholeFiles, Project.projectFilePath, identity]

/-- The files of a whole assembly differ in their paths, also in lower case. -/
theorem pairwise_wholeFiles
    {job : Job}
    (order : ∀ units, (job.order units).Perm units)
    {cancelled : Bool}
    {run : Run}
    (completed : job.run cancelled = .ok run)
    (module : Module) :
    (provider.wholeFiles module run.sources).Pairwise fun left right =>
      lowercase left.path ≠ lowercase right.path := by
  rw [wholeFiles, List.pairwise_append]
  refine ⟨Job.pairwise_sources completed, ?_, ?_⟩
  · split
    · exact List.pairwise_singleton _ _
    · exact List.Pairwise.nil
  · intro source isSource extra isExtra same
    split at isExtra
    · rw [List.mem_singleton.1 isExtra] at same
      -- The one path ends in the last letter of `.cs`, and the other in that of `.csproj`.
      have sourceEnd : (lowercase source.path).toList.getLast? = some 's' := by
        refine getLast?_lowercase ?_ (by decide +kernel) (by decide)
        rcases Job.path_of_mem_sources order completed isSource with path | ⟨space, name, path⟩
        · rw [path]
          decide
        · obtain ⟨start, split⟩ := exists_relativePath_eq job.settings space name
          rw [path, split, String.toList_append]
          exact List.getLast?_append_of_ne_nil _ (by decide)
      have extraEnd : (lowercase (plainFile
          (FileName.withExtension module.identity.name ".csproj")
          (provider.projectText module)).path).toList.getLast? = some 'j' := by
        refine getLast?_lowercase ?_ (by decide +kernel) (by decide)
        obtain ⟨-, stem, -, name⟩ :=
          FileName.safeSegment_withExtension module.identity.name isExtension_projectFile
        rw [plainFile, name, String.toList_append]
        exact List.getLast?_append_of_ne_nil _ (by decide)
      rw [same, extraEnd] at sourceEnd
      cases sourceEnd
    · exact absurd isExtra List.not_mem_nil

/-- Without a listener the job depends only on what is found. -/
theorem quiet_job (target : Target) (cancellation : Cancellation) :
    (provider.job target cancellation).quiet
      = .new (provider.foundAt target).system provider.options.settings :=
  rfl

/-- Where the run of a job is completed, it gives the sources. -/
theorem decompile_of_run
    {target : Target}
    {cancellation : Cancellation}
    {run : Run}
    (completed : (provider.job target cancellation).run cancellation.early = .ok run) :
    provider.decompile target cancellation
      = (⟨some run.sources, run.reports, run.cancelled⟩, .ok ()) := by
  rw [job] at completed
  rw [decompile]
  dsimp only
  rw [completed]

/-! ## Projects with bodies -/

/-- The project has the whole assembly: its documents are the files of a run that nobody cancelled,
and no other files are registered for it. -/
structure Complete
    (provider : Provider)
    (index : FileIndex)
    (project : Project)
    (found : Found)
    (run : Run) :
    Prop where
  key : project.key = found.key
  completed : (Job.new found.system provider.options.settings).run false = .ok run
  going : run.cancelled = false
  filled : ∃ empty : Project, empty.documents = [] ∧ empty.nextDocument = 0
    ∧ project = empty.addAll
        ((provider.wholeFiles found.system.main run.sources).map (·.path))
  files : ∀ file ∈ index.files, file.project = project.id →
    ∃ source ∈ provider.wholeFiles found.system.main run.sources,
      record? project project.key source = some file

/-- Every project with bodies has a whole assembly that some request finds. -/
def Settled
    (provider : Provider)
    (context : Context)
    (disk : Disk)
    (workspace : Workspace) :
    Prop :=
  ∀ project ∈ workspace.projects, project.signaturesOnly = false →
    ∃ request found run, provider.found disk request context = .ok (some found)
      ∧ provider.Complete workspace.index project found run

/-- It counts only which files are registered for the project. -/
theorem Complete.congr
    {index other : FileIndex}
    {project : Project}
    {found : Found}
    {run : Run}
    (complete : provider.Complete index project found run)
    (files : ∀ file ∈ other.files, file.project = project.id → file ∈ index.files) :
    provider.Complete other project found run :=
  { complete with
    files := fun file isFile own => complete.files file (files file isFile own) own }

/-- A new project with bodies has the whole assembly. -/
theorem complete_of_created
    {target : Target}
    {topLevel : SymbolKey}
    {cancellation : Cancellation}
    {files : List SourceFile}
    {project : Project}
    (complete : target.decompilation = true →
      (provider.decompile target cancellation).1.cancelled = false)
    (made : provider.projectFiles
      (provider.emptyProject workspace target (provider.sources? target cancellation))
      target.module topLevel (provider.sources? target cancellation) false = .ok files)
    (filled : project = (provider.emptyProject workspace target
      (provider.sources? target cancellation)).addAll (files.map (·.path)))
    (bodies : project.signaturesOnly = false)
    {index : FileIndex}
    (recorded : ∀ file ∈ index.files, file.project = project.id →
      ∃ source ∈ files, record? project target.key source = some file) :
    ∃ run, provider.Complete index project (provider.foundAt target) run := by
  cases supplied : provider.sources? target cancellation with
  | none =>
      rw [filled, Project.addAll_signaturesOnly, supplied] at bodies
      cases bodies
  | some sources =>
      have shows : target.decompilation = true := by
        by_contra hidden
        rw [sources?, if_neg hidden] at supplied
        cases supplied
      obtain ⟨run, completed, rfl⟩ := run_of_sources? supplied
      have going : run.cancelled = false := by
        have ended := complete shows
        rwa [decompile_of_run completed] at ended
      have key : project.key = target.key := filled ▸ Project.addAll_key _ _
      rw [supplied, projectFiles_of_sources rfl] at made
      obtain rfl : _ = files := Except.ok.inj made
      have quiet := Job.run_quiet completed going
      rw [quiet_job] at quiet
      rw [← key] at recorded
      exact ⟨run, key, quiet, going, ⟨_, rfl, rfl, filled⟩, recorded⟩

/-- Every change keeps projects with bodies complete, as long as requests find what they found at
first. -/
theorem Change.settled
    (change : provider.Change workspace operation after)
    (consistent : workspace.Consistent provider.root)
    (asks : ∀ request other cancellation, operation = .navigate request other cancellation →
      other = context)
    (same : provider.SameAssemblies context disk workspace.disk)
    (settled : provider.Settled context disk workspace) :
    provider.Settled context disk after := by
  cases change with
  | still projects index last =>
      rw [Settled, projects, index]
      exact settled
  | @grown target topLevel _ grown stub document _ present _ bare _ found projects index last =>
      obtain ⟨isGrown, -⟩ := consistent.project?_eq_some_iff.1 present
      intro project isProject bodies
      rw [projects, Workspace.mem_replace_iff isGrown (grown.add_id _).symm, grown.add_id]
        at isProject
      rcases isProject with rfl | ⟨isOld, differs⟩
      · rw [grown.add_signaturesOnly, bare] at bodies
        cases bodies
      · obtain ⟨request, system, run, sought, complete⟩ := settled project isOld bodies
        refine ⟨request, system, run, sought, complete.congr fun file isFile own => ?_⟩
        rw [index] at isFile
        rcases FileIndex.of_mem_register isFile with old | rfl
        · exact old
        · have sameId : grown.id = project.id := by
            rw [← grown.add_id stub.path]
            exact (Project.project_of_find? found).symm.trans own
          exact absurd sameId.symm differs
  | @created target topLevel cancellation sources files made asked absent supplied complete listed
      filled projects index last =>
      subst supplied
      obtain ⟨request, other, rfl, targeted, -⟩ := asked
      obtain rfl := asks request other cancellation rfl
      obtain ⟨id, ownKey⟩ := id_of_filled filled
      intro project isProject bodies
      rw [projects, List.mem_append, List.mem_singleton] at isProject
      rcases isProject with isOld | rfl
      · obtain ⟨first, system, run, sought, known⟩ := settled project isOld bodies
        refine ⟨first, system, run, sought, known.congr fun file isFile own => ?_⟩
        rw [index] at isFile
        rcases FileIndex.of_mem_registerAll isFile with old | isNew
        · exact old
        · obtain ⟨source, -, record⟩ := List.mem_filterMap.1 isNew
          have sameId : project.id = made.id := own.symm.trans (of_record? record).1
          exact absurd (sameId.trans id) (consistent.id_ne_next isOld)
      · have own_files : ∀ file ∈ after.index.files, file.project = project.id →
            ∃ source ∈ files, record? project target.key source = some file := by
          intro file isFile own
          rw [index] at isFile
          rcases FileIndex.of_mem_registerAll isFile with old | isNew
          · exact absurd (own.trans id) (consistent.project_ne_next old)
          · exact List.mem_filterMap.1 isNew
        have sought := found_of_target targeted
        rw [← same request] at sought
        obtain ⟨run, whole⟩ := complete_of_created complete listed filled bodies own_files
        exact ⟨request, _, run, sought, whole⟩
  | dropped _ present projects index last =>
      intro project isProject bodies
      rw [projects] at isProject
      obtain ⟨request, system, run, sought, complete⟩ :=
        settled project (List.mem_filter.1 isProject).1 bodies
      refine ⟨request, system, run, sought, complete.congr fun file isFile _ => ?_⟩
      rw [index, FileIndex.mem_removeProject_iff] at isFile
      exact isFile.1
  | cleared _ projects index last =>
      intro project isProject
      rw [projects] at isProject
      exact absurd isProject List.not_mem_nil

/-- Projects with bodies are complete after operations in a row. -/
theorem settled_after
    {operations : List Operation}
    (steady : provider.Steady context disk operations) :
    provider.Settled context disk (provider.after disk operations) := by
  induction operations using List.reverseRecOn with
  | nil => exact fun project isProject => absurd isProject List.not_mem_nil
  | append_singleton earlier operation ih =>
      have isPrefix : earlier <+: earlier ++ [operation] := List.prefix_append _ _
      rw [after_concat]
      refine (change_perform _ operation).settled (provider.consistent_after disk earlier) ?_
        (steady.disks earlier isPrefix) (ih (steady.of_prefix isPrefix))
      rintro request other cancellation rfl
      exact steady.contexts request other cancellation (by simp)

/-- What is registered for a document of a complete project is made from the file with its path, as
no other file has this path in lower case. -/
theorem Complete.exists_source
    {project : Project}
    {found : Found}
    {run : Run}
    (complete : provider.Complete workspace.index project found run)
    (consistent : workspace.Consistent provider.root)
    (isProject : project ∈ workspace.projects)
    {document : Document}
    (isDocument : document ∈ project.documents)
    {file : GeneratedFile}
    (isFound : workspace.index.find? (project.absolute document.path) = some file)
    (own : file.project = project.id) :
    ∃ source ∈ provider.wholeFiles found.system.main run.sources, ∃ id,
      source.path = document.path ∧ file = generated project project.key id source := by
  obtain ⟨source, isSource, record⟩ := complete.files file (FileIndex.mem_of_find? isFound) own
  obtain ⟨id, listed, made⟩ := Option.map_eq_some_iff.1 record
  refine ⟨source, isSource, id, ?_, made.symm⟩
  obtain ⟨wanted, isWanted, path⟩ :
      ∃ wanted ∈ provider.wholeFiles found.system.main run.sources,
        wanted.path = document.path := by
    obtain ⟨empty, isEmpty, -, filled⟩ := complete.filled
    rw [filled] at isDocument
    rcases Project.mem_of_addAll isDocument with old | added
    · rw [isEmpty] at old
      exact absurd old List.not_mem_nil
    · exact List.mem_map.1 added
  have small : lowercase source.path = lowercase document.path := by
    obtain ⟨near, isNear, -, same, -⟩ := Project.exists_of_find? listed
    have beside : GeneratedFile.indexKey (project.absolute near.path)
        = GeneratedFile.indexKey (project.absolute source.path) :=
      lowercase_eq_of_sameIgnoringCase (sameIgnoringCase_join project.directory same)
    have filePath : file.path = project.absolute source.path := made ▸ rfl
    have place := beside.trans (filePath ▸ FileIndex.indexKey_of_find? isFound)
    rw [Project.absolute, Project.absolute, consistent.housed project isProject] at place
    have inside := ((GeneratedFile.indexKey_inj
      (consistent.safe project isProject near isNear).relative
      (consistent.safe project isProject document isDocument).relative).1 place).2
    rw [← lowercase_eq_of_sameIgnoringCase same, inside]
  rw [← path] at small ⊢
  exact congrArg SourceFile.path (SourceFile.eq_of_lowercase
    (pairwise_wholeFiles List.Perm.refl complete.completed _) isSource isWanted small)

end Provider

end Navigation
end AssemblyAtlas
