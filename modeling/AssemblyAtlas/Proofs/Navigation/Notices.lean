import AssemblyAtlas.Proofs.Navigation.Bookkeeping

/-!
# What is told of a project

Whoever watches a workspace is told of a project when it is made, and again when it is cleaned up:
of each of its files, and then of the project. Nothing is told of it before, in between, or after.

* `Workspace.Unheard`, `Workspace.Announced` and `Workspace.Dismissed` are the three states in which
  the number of a project may be, each with all that was told so far;
* `Provider.Fate` has the three ways in which an operation may change the state, and
  `Provider.fate_perform` says that there are no others;
* `Provider.Told` has the courses of operations in a row, and `Provider.notified_after` says that
  each number takes one of them.
-/

namespace AssemblyAtlas
namespace Navigation

open Assembly
open Sources

theorem FileIndex.mem_filesOf_iff
    {index : FileIndex}
    {id : ProjectId}
    {file : GeneratedFile} :
    file ∈ index.filesOf id ↔ file ∈ index.files ∧ file.project = id := by
  rw [filesOf, List.mem_filter, decide_eq_true_eq]

namespace Notice

/-- The number of the project that a notice is about. -/
def project : Notice → ProjectId
  | added project _ _ => project
  | closed document _ => document.project
  | removed project => project

/-- What is told of a new project. -/
def welcome (project : Project) : Notice :=
  .added project.id project.identity.name project.documents.length

/-- What is told of a file that goes with its project. -/
def closing (file : GeneratedFile) : Notice :=
  .closed file.document file.path

end Notice

namespace Workspace

/-- What was told of the project with a number. -/
def noticesOf (workspace : Workspace) (id : ProjectId) : List Notice :=
  workspace.notices.filter (·.project = id)

/-- There is a project with the number and the key. -/
def Has (workspace : Workspace) (id : ProjectId) (key : AssemblyKey) : Prop :=
  ∃ project ∈ workspace.projects, project.id = id ∧ project.key = key

/-! ## The three states -/

/-- No project has the number, and nothing was told of one. -/
structure Unheard (id : ProjectId) (workspace : Workspace) : Prop where
  absent : ∀ key, ¬ workspace.Has id key
  silent : workspace.noticesOf id = []

/-- The project is there, and all that was told is that it was made. -/
structure Announced (project : Project) (workspace : Workspace) : Prop where
  present : workspace.Has project.id project.key
  told : workspace.noticesOf project.id = [.welcome project]

/-- The project is gone with its files, and this was told last. -/
structure Dismissed
    (project : Project)
    (files : List GeneratedFile)
    (workspace : Workspace) :
    Prop where
  absent : ∀ key, ¬ workspace.Has project.id key
  told : workspace.noticesOf project.id
    = .welcome project :: (files.map Notice.closing ++ [.removed project.id])
  emptied : workspace.index.filesOf project.id = []

variable {root : String} {workspace after : Workspace}

/-- A number without a project has no files. -/
theorem Consistent.filesOf_eq_nil
    (consistent : workspace.Consistent root)
    {id : ProjectId}
    (absent : ∀ key, ¬ workspace.Has id key) :
    workspace.index.filesOf id = [] := by
  refine List.eq_nil_iff_forall_not_mem.2 fun file member => ?_
  obtain ⟨isFile, own⟩ := FileIndex.mem_filesOf_iff.1 member
  obtain ⟨project, isProject, belongs⟩ := consistent.filed file isFile
  exact absent project.key ⟨project, isProject, belongs.project_eq.symm.trans own, rfl⟩

/-! ## Dropped projects -/

theorem has_dropProject_iff
    {project : Project}
    {id : ProjectId}
    {key : AssemblyKey} :
    (workspace.dropProject project).Has id key ↔ workspace.Has id key ∧ project.id ≠ id := by
  rw [Has, dropProject]
  constructor
  · rintro ⟨other, isOther, rfl, rfl⟩
    obtain ⟨old, differs⟩ := List.mem_filter.1 isOther
    exact ⟨⟨other, old, rfl, rfl⟩, fun same => of_decide_eq_true differs same.symm⟩
  · rintro ⟨⟨other, isOther, rfl, rfl⟩, differs⟩
    exact ⟨other, List.mem_filter.2 ⟨isOther, decide_eq_true differs.symm⟩, rfl, rfl⟩

/-- What is told of a project that goes is about its number. -/
theorem project_of_mem_farewell
    {index : FileIndex}
    {project : Project}
    {notice : Notice}
    (member : notice ∈ farewell project (index.filesOf project.id)) :
    notice.project = project.id := by
  rw [farewell] at member
  split at member
  · exact absurd member List.not_mem_nil
  · rcases List.mem_append.1 member with closed | removed
    · obtain ⟨file, isFile, rfl⟩ := List.mem_map.1 closed
      exact (FileIndex.mem_filesOf_iff.1 isFile).2
    · rw [List.mem_singleton.1 removed]
      rfl

/-- A project is told farewell when it is dropped. -/
theorem noticesOf_dropProject
    (workspace : Workspace)
    (project : Project) :
    (workspace.dropProject project).noticesOf project.id
      = workspace.noticesOf project.id
        ++ farewell project (workspace.index.filesOf project.id) := by
  rw [noticesOf, dropProject, List.filter_append, noticesOf]
  congr 1
  exact List.filter_eq_self.2 fun notice member =>
    decide_eq_true (project_of_mem_farewell member)

/-- Nothing is told of others then, and their files stay. -/
theorem noticesOf_dropProject_of_ne
    (workspace : Workspace)
    {project : Project}
    {id : ProjectId}
    (other : project.id ≠ id) :
    (workspace.dropProject project).noticesOf id = workspace.noticesOf id
      ∧ (workspace.dropProject project).index.filesOf id = workspace.index.filesOf id := by
  refine ⟨?_, FileIndex.filesOf_removeProject other.symm⟩
  rw [noticesOf, dropProject, List.filter_append, noticesOf]
  refine (congrArg _ (List.filter_eq_nil_iff.2 fun notice member => ?_)).trans
    (List.append_nil _)
  rw [decide_eq_true_eq, project_of_mem_farewell member]
  exact other

/-- Nothing is told of a number that none of the dropped projects has. -/
theorem noticesOf_dropAll_of_ne
    {projects : List Project}
    {id : ProjectId}
    (others : ∀ project ∈ projects, project.id ≠ id)
    (workspace : Workspace) :
    (projects.foldl (fun current project => current.dropProject project) workspace).noticesOf id
      = workspace.noticesOf id := by
  induction projects generalizing workspace with
  | nil => rfl
  | cons project rest ih =>
      rw [List.foldl_cons, ih fun other isOther => others other (List.mem_cons_of_mem _ isOther),
        (noticesOf_dropProject_of_ne workspace (others project List.mem_cons_self)).1]

/-- Of projects that are dropped one after the other, each is told farewell with the files that it
had at first. -/
theorem noticesOf_dropAll
    {projects : List Project}
    (distinct : (projects.map (·.id)).Nodup)
    {project : Project}
    (isProject : project ∈ projects)
    (workspace : Workspace) :
    (projects.foldl (fun current project => current.dropProject project) workspace).noticesOf
        project.id
      = workspace.noticesOf project.id
        ++ farewell project (workspace.index.filesOf project.id) := by
  induction projects generalizing workspace with
  | nil => exact absurd isProject List.not_mem_nil
  | cons first rest ih =>
      obtain ⟨apart, distinct⟩ := List.nodup_cons.1 distinct
      have differs (other : Project) (isOther : other ∈ rest) : other.id ≠ first.id :=
        fun same => apart (List.mem_map.2 ⟨other, isOther, same⟩)
      rw [List.foldl_cons]
      rcases List.mem_cons.1 isProject with rfl | later
      · rw [noticesOf_dropAll_of_ne differs, noticesOf_dropProject]
      · obtain ⟨notices, files⟩ :=
          noticesOf_dropProject_of_ne workspace (differs project later).symm
        rw [ih distinct later, notices, files]

/-! ## Registered projects -/

/-- Each project has a document. -/
def Stocked (workspace : Workspace) : Prop :=
  ∀ project ∈ workspace.projects, project.documents ≠ []

/-- A project with registered documents has files, so it is told farewell. -/
theorem Registered.farewell_eq
    (registered : workspace.Registered)
    (stocked : workspace.Stocked)
    {project : Project}
    (isProject : project ∈ workspace.projects) :
    farewell project (workspace.index.filesOf project.id)
      = (workspace.index.filesOf project.id).map Notice.closing ++ [.removed project.id] := by
  obtain ⟨document, isDocument⟩ := List.exists_mem_of_ne_nil _ (stocked project isProject)
  obtain ⟨file, found, own⟩ := registered.occupied project isProject document isDocument
  have member : file ∈ workspace.index.filesOf project.id :=
    FileIndex.mem_filesOf_iff.2 ⟨(FileIndex.find?_eq_some_iff.1 found).1, own⟩
  rw [farewell, if_neg (by simpa using List.ne_nil_of_mem member)]
  rfl

/-- No two files of a project are for one document. -/
theorem Registered.nodup_documents
    (registered : workspace.Registered)
    (consistent : workspace.Consistent root)
    {project : Project}
    (isProject : project ∈ workspace.projects) :
    ((workspace.index.filesOf project.id).map (·.document)).Nodup := by
  have numbers := (consistent.numbered project isProject).indices.nodup_iff.2 List.nodup_range
  have paths : (workspace.index.filesOf project.id).Pairwise fun left right =>
      left.path ≠ right.path :=
    (workspace.index.distinct.imp fun differ same => differ (by rw [same])).sublist
      List.filter_sublist
  refine List.pairwise_map.2 (paths.imp_of_mem fun {left right} isLeft isRight differ same => ?_)
  obtain ⟨isLeft, ownLeft⟩ := FileIndex.mem_filesOf_iff.1 isLeft
  obtain ⟨isRight, ownRight⟩ := FileIndex.mem_filesOf_iff.1 isRight
  obtain ⟨first, isFirst, number, path⟩ :=
    registered.exactly left isLeft project isProject ownLeft
  obtain ⟨second, isSecond, otherNumber, otherPath⟩ :=
    registered.exactly right isRight project isProject ownRight
  have index : first.index = second.index :=
    congrArg DocumentId.index (number.symm.trans (same.trans otherNumber))
  obtain rfl := List.inj_on_of_nodup_map numbers isFirst isSecond index
  exact differ (path.trans otherPath.symm)

end Workspace

namespace Provider

variable {provider : Provider} {workspace after : Workspace} {operation : Operation}

/-! ## Documents of new projects -/

/-- A new project has a file. -/
theorem exists_mem_projectFiles
    {project : Project}
    {target : Target}
    {topLevel : SymbolKey}
    {cancellation : Cancellation}
    {files : List SourceFile}
    (made : provider.projectFiles project target.module topLevel
      (provider.sources? target cancellation) false = .ok files) :
    ∃ file, file ∈ files := by
  cases supplied : provider.sources? target cancellation with
  | some sources =>
      rw [supplied, projectFiles_some] at made
      obtain rfl : _ = files := Except.ok.inj made
      obtain ⟨run, completed, rfl⟩ := run_of_sources? supplied
      exact ⟨_, List.mem_append_left _ (Job.assemblyInfo_mem_sources completed)⟩
  | none =>
      rw [supplied] at made
      obtain ⟨stub, -, h⟩ := Success.bind_eq_ok_iff.1 made
      cases h
      exact ⟨stub, List.mem_cons_self⟩

/-- A path that was added has a document. -/
theorem documents_ne_nil
    {project : Project}
    {path : String}
    (found : (project.find? path).isSome) :
    project.documents ≠ [] := by
  obtain ⟨document, isDocument, -⟩ := Project.isSome_find?_iff.1 found
  exact List.ne_nil_of_mem isDocument

/-- Every project that is there gets at least one document, and none is taken from it. -/
theorem Change.stocked
    (change : provider.Change workspace operation after)
    (stocked : workspace.Stocked) :
    after.Stocked := by
  intro project isProject
  cases change with
  | still projects => exact stocked project (projects ▸ isProject)
  | @grown _ _ _ grown stub _ _ _ _ _ _ _ projects =>
      rw [projects, Workspace.replace] at isProject
      obtain ⟨old, isOld, rfl⟩ := List.mem_map.1 isProject
      split
      · exact documents_ne_nil (grown.isSome_find?_add stub.path)
      · exact stocked old isOld
  | created _ _ supplied _ made filled projects =>
      rw [projects] at isProject
      rcases List.mem_append.1 isProject with old | new
      · exact stocked project old
      · subst supplied
        obtain ⟨file, isFile⟩ := exists_mem_projectFiles made
        rw [List.mem_singleton.1 new, filled]
        exact documents_ne_nil (Project.isSome_find?_addAll _ (List.mem_map_of_mem isFile))
  | dropped _ _ projects =>
      rw [projects] at isProject
      exact stocked project (List.mem_filter.1 isProject).1
  | cleared _ projects =>
      rw [projects] at isProject
      exact absurd isProject List.not_mem_nil

theorem stocked_after
    (provider : Provider)
    (disk : Disk)
    (operations : List Operation) :
    (provider.after disk operations).Stocked :=
  invariant_after (fun _ _ isProject => absurd isProject List.not_mem_nil)
    (fun stocked change => change.stocked stocked) disk operations

/-! ## One operation -/

/-- The operation cleans up projects with the key. -/
def CleansUp (operation : Operation) (key : AssemblyKey) : Prop :=
  operation = .cleanUpAll ∨ ∃ asked, operation = .cleanUp asked ∧ key.Same asked

/-- What an operation may do with the number of a project. -/
inductive Fate
    (workspace : Workspace)
    (operation : Operation)
    (id : ProjectId)
    (after : Workspace) :
    Prop
  /-- A project with the number stays if there is one, and nothing is told of it. -/
  | quiet
      (unasked : ∀ project ∈ workspace.projects, project.id = id → ¬ CleansUp operation project.key)
      (same : ∀ key, after.Has id key ↔ workspace.Has id key)
      (told : after.noticesOf id = workspace.noticesOf id)
  /-- The next project gets the number. -/
  | made
      {project : Project}
      (next : id = ⟨workspace.lastProject + 1⟩)
      (isProject : project ∈ after.projects)
      (number : project.id = id)
      (told : after.noticesOf id = workspace.noticesOf id ++ [.welcome project])
  /-- The project with the number goes. -/
  | gone
      {project : Project}
      (isProject : project ∈ workspace.projects)
      (number : project.id = id)
      (asked : CleansUp operation project.key)
      (absent : ∀ key, ¬ after.Has id key)
      (told : after.noticesOf id
        = workspace.noticesOf id ++ Workspace.farewell project (workspace.index.filesOf id))

/-- Where projects and notices stay, all is quiet. -/
theorem Fate.of_same
    {id : ProjectId}
    (unasked : ∀ project ∈ workspace.projects, ¬ CleansUp operation project.key)
    (owners : after.projects.map (fun project => (project.id, project.key))
      = workspace.projects.map fun project => (project.id, project.key))
    (notices : after.notices = workspace.notices) :
    Fate workspace operation id after := by
  have has {some_workspace : Workspace} {key : AssemblyKey} : some_workspace.Has id key
      ↔ (id, key) ∈ some_workspace.projects.map fun project => (project.id, project.key) := by
    simp [Workspace.Has]
  refine .quiet (fun project isProject _ => unasked project isProject) (fun key => ?_) ?_
  · rw [has, has, owners]
  · rw [Workspace.noticesOf, notices, Workspace.noticesOf]

/-- A request makes at most one project, and tells of that one only. -/
theorem fate_navigate
    (consistent : workspace.Consistent provider.root)
    (request : Request)
    (context : Context)
    (cancellation : Cancellation)
    (id : ProjectId) :
    Fate workspace (.navigate request context cancellation) id
      (provider.navigate workspace request context cancellation).1 := by
  have unasked (key : AssemblyKey) : ¬ CleansUp (.navigate request context cancellation) key := by
    simp [CleansUp]
  have still (other : Project) (_ : other ∈ workspace.projects) := unasked other.key
  cases navigated : provider.navigate workspace request context cancellation with
  | mk after answer =>
      rcases navigate_cases navigated with ⟨rfl, -⟩ | h
      · exact .of_same still rfl rfl
      · obtain ⟨target, middle, result, disk, -, outcome, rfl, -⟩ := h
        cases outcome with
        | refused => exact .of_same still rfl rfl
        | known => exact .of_same still rfl rfl
        | @grown project stub document present =>
            obtain ⟨isProject, -⟩ := consistent.project?_eq_some_iff.1 present
            refine .of_same still ?_ rfl
            exact consistent.map_replace isProject (project.add_id _) _
              (by rw [project.add_id, project.add_key])
        | @created sources files project primary file document _ _ _ _ _ filled =>
            have next : project.id = ⟨workspace.lastProject + 1⟩ := (id_of_filled filled).1
            by_cases own : project.id = id
            · refine .made (own.symm.trans next) ?_ own ?_
              · exact List.mem_append_right _ (List.mem_singleton_self _)
              · simp [Workspace.noticesOf, Workspace.addProject, Notice.welcome, Notice.project, own]
            · refine .quiet (fun other _ _ => unasked other.key) (fun key => ?_) ?_
              · simp [Workspace.Has, Workspace.addProject, or_and_right, exists_or, own]
              · simp [Workspace.noticesOf, Workspace.addProject, Notice.project, own]

/-- An operation does one of these three things with a number. -/
theorem fate_perform
    (consistent : workspace.Consistent provider.root)
    (operation : Operation)
    (id : ProjectId) :
    Fate workspace operation id (provider.perform workspace operation) := by
  cases operation with
  | navigate request context cancellation =>
      exact fate_navigate consistent request context cancellation id
  | cleanUp key =>
      rw [perform, Workspace.cleanUp]
      split
      · next project present =>
          obtain ⟨isProject, same⟩ := consistent.project?_eq_some_iff.1 present
          by_cases own : project.id = id
          · subst own
            exact .gone isProject rfl (Or.inr ⟨key, rfl, same⟩)
              (fun key has => (Workspace.has_dropProject_iff.1 has).2 rfl)
              (workspace.noticesOf_dropProject project)
          · refine .quiet ?_ (fun key => ?_) (workspace.noticesOf_dropProject_of_ne own).1
            · rintro other isOther ownOther (all | ⟨asked, one, sameOther⟩)
              · cases all
              · cases one
                obtain rfl := consistent.eq_of_key isOther isProject
                  (sameOther.trans same.symm)
                exact own ownOther
            · rw [Workspace.has_dropProject_iff, and_iff_left own]
      · next absent =>
          refine .of_same ?_ rfl rfl
          rintro project isProject (all | ⟨asked, one, same⟩)
          · cases all
          · cases one
            exact Workspace.Consistent.project?_eq_none_iff.1 absent project isProject same
  | cleanUpAll =>
      have nobody (key : AssemblyKey) : ¬ workspace.cleanUpAll.Has id key := by
        rintro ⟨project, isProject, -⟩
        exact absurd isProject List.not_mem_nil
      by_cases present : ∃ project ∈ workspace.projects, project.id = id
      · obtain ⟨project, isProject, rfl⟩ := present
        exact .gone isProject rfl (Or.inl rfl) nobody
          (Workspace.noticesOf_dropAll consistent.ids isProject workspace)
      · have others : ∀ project ∈ workspace.projects, project.id ≠ id :=
          fun project isProject own => present ⟨project, isProject, own⟩
        refine .quiet (fun project isProject own => absurd own (others project isProject))
          (fun key => iff_of_false (nobody key) ?_)
          (Workspace.noticesOf_dropAll_of_ne others workspace)
        rintro ⟨project, isProject, own, -⟩
        exact others project isProject own
  | ensure path => exact .of_same (fun _ _ => by simp [CleansUp]) rfl rfl
  | elsewhere disk => exact .of_same (fun _ _ => by simp [CleansUp]) rfl rfl

/-! ## Operations in a row -/

variable (provider)

/-- The workspace is such after some operations, and after each of further ones. -/
def Throughout
    (disk : Disk)
    (start further : List Operation)
    (holds : Workspace → Prop) :
    Prop :=
  ∀ later, later <+: further → holds (provider.after disk (start ++ later))

/-- The courses that the number of a project may take, with all that is told of it and when. -/
inductive Told (disk : Disk) (id : ProjectId) : List Operation → Prop
  /-- No project had the number so far. -/
  | unheard
      {operations : List Operation}
      (never : provider.Throughout disk [] operations (Workspace.Unheard id)) :
      Told disk id operations
  /-- A project was made with it, and is there since, as it was not cleaned up. -/
  | announced
      {before during : List Operation}
      {creation : Operation}
      {project : Project}
      (never : provider.Throughout disk [] before (Workspace.Unheard id))
      (made : project ∈ (provider.after disk (before ++ [creation])).projects)
      (number : project.id = id)
      (since : provider.Throughout disk (before ++ [creation]) during
        (Workspace.Announced project))
      (unasked : ∀ operation ∈ during, ¬ CleansUp operation project.key) :
      Told disk id (before ++ [creation] ++ during)
  /-- A project was made with it, and later cleaned up, for the first time, with the files that it
  had then. -/
  | dismissed
      {before during since : List Operation}
      {creation cleaning : Operation}
      {project : Project}
      {files : List GeneratedFile}
      (never : provider.Throughout disk [] before (Workspace.Unheard id))
      (made : project ∈ (provider.after disk (before ++ [creation])).projects)
      (number : project.id = id)
      (meanwhile : provider.Throughout disk (before ++ [creation]) during
        (Workspace.Announced project))
      (unasked : ∀ operation ∈ during, ¬ CleansUp operation project.key)
      (asked : CleansUp cleaning project.key)
      (all : files
        = (provider.after disk (before ++ [creation] ++ during)).index.filesOf project.id)
      (once : (files.map (·.document)).Nodup)
      (gone : provider.Throughout disk (before ++ [creation] ++ during ++ [cleaning]) since
        (Workspace.Dismissed project files)) :
      Told disk id (before ++ [creation] ++ during ++ [cleaning] ++ since)

variable {provider} {disk : Disk}

section Throughout

variable {start further : List Operation} {holds : Workspace → Prop}

theorem throughout_nil
    (now : holds (provider.after disk start)) :
    provider.Throughout disk start [] holds := by
  intro later isPrefix
  rw [List.prefix_nil.1 isPrefix, List.append_nil]
  exact now

theorem Throughout.last
    (always : provider.Throughout disk start further holds) :
    holds (provider.after disk (start ++ further)) :=
  always further List.prefix_rfl

theorem Throughout.concat
    (always : provider.Throughout disk start further holds)
    {operation : Operation}
    (now : holds (provider.after disk (start ++ further ++ [operation]))) :
    provider.Throughout disk start (further ++ [operation]) holds := by
  intro later isPrefix
  rcases List.prefix_concat_iff.1 isPrefix with rfl | earlier
  · rw [← List.append_assoc]
    exact now
  · exact always later earlier

end Throughout

/-- The number of a project that was made is not the next one any more. -/
theorem id_ne_next_of_made
    {operations : List Operation}
    {project : Project}
    (made : project ∈ (provider.after disk operations).projects)
    (further : List Operation) :
    project.id ≠ ⟨(provider.after disk (operations ++ further)).lastProject + 1⟩ := by
  intro same
  have issued := (provider.consistent_after disk operations).issued project made
  have later : (provider.after disk operations).lastProject
      ≤ (provider.after disk (operations ++ further)).lastProject :=
    (precedes_after disk operations further).last
  rw [same] at issued
  exact absurd (Nat.le_trans issued later) (Nat.not_succ_le_self _)

/-! ## One operation more -/

section Step

variable {before during since : List Operation} {creation cleaning : Operation} {id : ProjectId}
  {project : Project} {files : List GeneratedFile}

theorem fate_after
    (provider : Provider)
    (disk : Disk)
    (operations : List Operation)
    (operation : Operation)
    (id : ProjectId) :
    Fate (provider.after disk operations) operation id
      (provider.after disk (operations ++ [operation])) := by
  rw [after_concat]
  exact fate_perform (provider.consistent_after disk operations) operation id

/-- A number of which nothing was told stays so, or a project is made with it. -/
theorem told_of_unheard
    (never : provider.Throughout disk [] before (Workspace.Unheard id))
    (operation : Operation) :
    provider.Told disk id (before ++ [operation]) := by
  have now := never.last
  rw [List.nil_append] at now
  cases provider.fate_after disk before operation id with
  | quiet _ same told =>
      exact .unheard (never.concat
        ⟨fun key has => now.absent key ((same key).1 has), told.trans now.silent⟩)
  | @made project next isProject number told =>
      rw [now.silent, List.nil_append, ← number] at told
      rw [← List.append_nil (before ++ [operation])]
      exact .announced never isProject number
        (throughout_nil ⟨⟨project, isProject, rfl, rfl⟩, told⟩)
        fun _ isOperation => absurd isOperation List.not_mem_nil
  | @gone project isProject number =>
      exact absurd ⟨project, isProject, number, rfl⟩ (now.absent project.key)

/-- A project that is there stays, or it is cleaned up. -/
theorem told_of_announced
    (never : provider.Throughout disk [] before (Workspace.Unheard project.id))
    (made : project ∈ (provider.after disk (before ++ [creation])).projects)
    (since : provider.Throughout disk (before ++ [creation]) during
      (Workspace.Announced project))
    (unasked : ∀ operation ∈ during, ¬ CleansUp operation project.key)
    (registered : (provider.after disk (before ++ [creation] ++ during)).Registered)
    (operation : Operation) :
    provider.Told disk project.id (before ++ [creation] ++ during ++ [operation]) := by
  have now := since.last
  have consistent := provider.consistent_after disk (before ++ [creation] ++ during)
  obtain ⟨current, isCurrent, sameId, sameKey⟩ := now.present
  cases provider.fate_after disk (before ++ [creation] ++ during) operation project.id with
  | quiet still same told =>
      have stillUnasked : ¬ CleansUp operation project.key :=
        sameKey ▸ still current isCurrent sameId
      rw [List.append_assoc _ during]
      exact .announced never made rfl
        (since.concat ⟨(same _).2 now.present, told.trans now.told⟩)
        (List.forall_mem_append.2 ⟨unasked, List.forall_mem_singleton.2 stillUnasked⟩)
  | made next => exact absurd next (id_ne_next_of_made made during)
  | @gone other isOther own asked absent told =>
      obtain rfl := consistent.eq_of_id isOther isCurrent (own.trans sameId.symm)
      have once := registered.nodup_documents consistent isOther
      have last := registered.farewell_eq (provider.stocked_after disk _) isOther
      have emptied := (provider.consistent_after disk
        (before ++ [creation] ++ during ++ [operation])).filesOf_eq_nil absent
      rw [own] at once last
      rw [last, now.told] at told
      rw [← List.append_nil (before ++ [creation] ++ during ++ [operation])]
      exact .dismissed never made rfl since unasked (sameKey ▸ asked) rfl once
        (throughout_nil ⟨absent, told, emptied⟩)

/-- A project that is gone does not come back, and no other project gets its number. -/
theorem told_of_dismissed
    (never : provider.Throughout disk [] before (Workspace.Unheard project.id))
    (made : project ∈ (provider.after disk (before ++ [creation])).projects)
    (meanwhile : provider.Throughout disk (before ++ [creation]) during
      (Workspace.Announced project))
    (unasked : ∀ operation ∈ during, ¬ CleansUp operation project.key)
    (asked : CleansUp cleaning project.key)
    (all : files
      = (provider.after disk (before ++ [creation] ++ during)).index.filesOf project.id)
    (once : (files.map (·.document)).Nodup)
    (gone : provider.Throughout disk (before ++ [creation] ++ during ++ [cleaning]) since
      (Workspace.Dismissed project files))
    (operation : Operation) :
    provider.Told disk project.id
      (before ++ [creation] ++ during ++ [cleaning] ++ since ++ [operation]) := by
  have now := gone.last
  cases provider.fate_after disk (before ++ [creation] ++ during ++ [cleaning] ++ since) operation
      project.id with
  | quiet _ same told =>
      have absent (key : AssemblyKey) : ¬ (provider.after disk
          (before ++ [creation] ++ during ++ [cleaning] ++ since ++ [operation])).Has
            project.id key :=
        fun has => now.absent key ((same key).1 has)
      have emptied := (provider.consistent_after disk
        (before ++ [creation] ++ during ++ [cleaning] ++ since ++ [operation])).filesOf_eq_nil
          absent
      rw [List.append_assoc _ since]
      exact .dismissed never made rfl meanwhile unasked asked all once
        (gone.concat ⟨absent, told.trans now.told, emptied⟩)
  | made next =>
      rw [List.append_assoc _ [cleaning], List.append_assoc _ during] at next
      exact absurd next (id_ne_next_of_made made _)
  | @gone other isOther own =>
      exact absurd ⟨other, isOther, own, rfl⟩ (now.absent other.key)

end Step

/-- As long as directories of different assemblies have different names, each number takes one of
the courses. -/
theorem told_after
    (disk : Disk)
    (operations : List Operation)
    (apart : ∀ earlier, earlier <+: operations → (provider.after disk earlier).Apart)
    (id : ProjectId) :
    provider.Told disk id operations := by
  induction operations using List.reverseRecOn with
  | nil =>
      refine .unheard (throughout_nil ⟨?_, rfl⟩)
      rintro key ⟨project, isProject, -⟩
      exact absurd isProject List.not_mem_nil
  | append_singleton earlier operation ih =>
      have before : ∀ first, first <+: earlier → (provider.after disk first).Apart :=
        fun first isFirst => apart first (isFirst.trans (List.prefix_append _ _))
      cases ih before with
      | unheard never => exact told_of_unheard never operation
      | announced never made number since unasked =>
          subst number
          exact told_of_announced never made since unasked (registered_after disk _ before)
            operation
      | dismissed never made number meanwhile unasked asked all once gone =>
          subst number
          exact told_of_dismissed never made meanwhile unasked asked all once gone operation

/-- What those who watch are told, and what cleaning up does, after operations in a row. -/
structure Notified (provider : Provider) (disk : Disk) (operations : List Operation) : Prop where
  told : ∀ id, provider.Told disk id operations
  /-- Cleaning up says whether there was a project. -/
  answered : ∀ key, ((provider.after disk operations).cleanUp key).2 = true
    ↔ ∃ project, (provider.after disk operations).project? key = some project
  /-- The project and its files are gone after that, and other files are not. -/
  cleaned : ∀ key project, (provider.after disk operations).project? key = some project →
    (∀ other, ¬ ((provider.after disk operations).cleanUp key).1.Has project.id other)
      ∧ ((provider.after disk operations).cleanUp key).1.index.filesOf project.id = []
      ∧ ∀ id, id ≠ project.id →
          ((provider.after disk operations).cleanUp key).1.index.filesOf id
            = (provider.after disk operations).index.filesOf id

/-- As long as directories of different assemblies have different names, those who watch are told
of each project when it is made, when its files are closed and when it is removed, and nothing
else. -/
theorem notified_after
    (provider : Provider)
    (disk : Disk)
    (operations : List Operation)
    (apart : ∀ earlier, earlier <+: operations → (provider.after disk earlier).Apart) :
    provider.Notified disk operations where
  told := told_after disk operations apart
  answered := by
    intro key
    rw [Workspace.cleanUp]
    cases (provider.after disk operations).project? key with
    | some project => exact iff_of_true rfl ⟨project, rfl⟩
    | none => exact iff_of_false Bool.false_ne_true (by simp)
  cleaned := by
    intro key project present
    have cleaned : ((provider.after disk operations).cleanUp key).1
        = (provider.after disk operations).dropProject project := by
      rw [Workspace.cleanUp, present]
    have consistent : ((provider.after disk operations).dropProject project).Consistent
        provider.root :=
      (provider.consistent_after disk operations).drop rfl rfl rfl
    have absent (other : AssemblyKey) :
        ¬ ((provider.after disk operations).dropProject project).Has project.id other :=
      fun has => (Workspace.has_dropProject_iff.1 has).2 rfl
    rw [cleaned]
    exact ⟨absent, consistent.filesOf_eq_nil absent, fun id other =>
      ((provider.after disk operations).noticesOf_dropProject_of_ne other.symm).2⟩

end Provider

/-! ## A project that comes and goes -/

/-- A type is wanted, and its project is cleaned up. -/
def twinOperations : List Operation :=
  [.navigate (twinRequest "A") twinContext .never, .cleanUp ⟨"lib/Foo.dll", twinSample.mvid⟩]

/-- Those who watch are told when the project comes and when it goes with both of its files. -/
theorem notified_twinOperations :
    (twinProvider.after twinDisk twinOperations).notices.map Notice.display
        = ["added Project#1 Sample (2 documents)",
          "closed Project#1/Document#0 out/0dddb8d72135797e/A/Widget.cs",
          "closed Project#1/Document#1 out/0dddb8d72135797e/Properties/AssemblyInfo.cs",
          "removed Project#1"]
      ∧ twinProvider.Notified twinDisk twinOperations := by
  have single : (twinOperations.inits.all fun earlier =>
      decide ((twinProvider.after twinDisk earlier).projects.length ≤ 1)) = true := by
    decide +kernel
  refine ⟨by decide +kernel, Provider.notified_after _ _ _ fun earlier isEarlier => ?_⟩
  exact Workspace.apart_of_length_le_one
    (of_decide_eq_true (List.all_eq_true.1 single earlier ((List.mem_inits _ _).2 isEarlier)))

end Navigation
end AssemblyAtlas
