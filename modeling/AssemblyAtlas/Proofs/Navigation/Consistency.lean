import AssemblyAtlas.Proofs.Navigation.Documents
import AssemblyAtlas.Proofs.Navigation.History

/-!
# Projects and their files

A workspace keeps its projects and the files of all projects apart. Whatever is done, the two agree:
each file belongs to one project, and is one of its documents.

* `Workspace.Consistent` is what every operation keeps, and `Provider.Change.consistent` is where it
  is kept;
* `Provider.consistent_after` is about the workspace after operations in a row.
-/

namespace AssemblyAtlas
namespace Navigation

open Assembly
open FileName
open Sources
open Text

/-! ## Keys -/

namespace AssemblyKey

theorem same_refl (key : AssemblyKey) :
    key.Same key :=
  ⟨rfl, rfl⟩

theorem Same.symm
    {left right : AssemblyKey}
    (same : left.Same right) :
    right.Same left :=
  ⟨same.1.symm, same.2.symm⟩

theorem Same.trans
    {left middle right : AssemblyKey}
    (first : left.Same middle)
    (second : middle.Same right) :
    left.Same right :=
  ⟨first.1.trans second.1, first.2.trans second.2⟩

end AssemblyKey

/-! ## What every operation keeps -/

/-- The file is one of the project: it is for the same assembly, has bodies if the project has, and
is registered at the path of a document and under its number. The letters of the path may differ in
ASCII case from those of the document. -/
structure Belongs (project : Project) (file : GeneratedFile) : Prop where
  key : project.key.Same file.key
  bare : file.signaturesOnly = project.signaturesOnly
  document : ∃ document ∈ project.documents, ∃ path,
    SafePath path
      ∧ sameIgnoringCase document.path path = true
      ∧ file.document = ⟨project.id, document.index⟩
      ∧ file.path = project.absolute path

/-- A file has the number of the project that it belongs to. -/
theorem Belongs.project_eq
    {project : Project}
    {file : GeneratedFile}
    (belongs : Belongs project file) :
    file.project = project.id := by
  obtain ⟨document, -, path, -, -, number, -⟩ := belongs.document
  exact congrArg DocumentId.project number

namespace Workspace

/-- Projects and files agree. -/
structure Consistent (root : String) (workspace : Workspace) : Prop where
  keys : (workspace.projects.map (·.key)).Pairwise fun left right => ¬ left.Same right
  ids : (workspace.projects.map (·.id)).Nodup
  /-- Numbers are issued in their order. -/
  issued : ∀ project ∈ workspace.projects, project.id.number ≤ workspace.lastProject
  numbered : ∀ project ∈ workspace.projects, project.Numbered
  /-- The directory of a project is named by its key. -/
  housed : ∀ project ∈ workspace.projects,
    project.directory = Path.join root project.key.directoryName
  safe : ∀ project ∈ workspace.projects, ∀ document ∈ project.documents, SafePath document.path
  filed : ∀ file ∈ workspace.index.files, ∃ project ∈ workspace.projects, Belongs project file

variable {root : String} {workspace : Workspace}

namespace Consistent

/-- Projects with the same number are one. -/
theorem eq_of_id
    (consistent : workspace.Consistent root)
    {left right : Project}
    (isLeft : left ∈ workspace.projects)
    (isRight : right ∈ workspace.projects)
    (same : left.id = right.id) :
    left = right :=
  List.inj_on_of_nodup_map consistent.ids isLeft isRight same

/-- Projects for the same assembly are one. -/
theorem eq_of_key
    (consistent : workspace.Consistent root)
    {left right : Project}
    (isLeft : left ∈ workspace.projects)
    (isRight : right ∈ workspace.projects)
    (same : left.key.Same right.key) :
    left = right := by
  by_contra differ
  have apart := List.pairwise_map.1 consistent.keys
  have either_way : Std.Symm fun left right : Project => ¬ left.key.Same right.key :=
    ⟨fun _ _ distinct same => distinct same.symm⟩
  exact apart.forall isLeft isRight differ same

/-- The project of an assembly is the one with its key. -/
theorem project?_eq_some_iff
    (consistent : workspace.Consistent root)
    {key : AssemblyKey}
    {project : Project} :
    workspace.project? key = some project
      ↔ project ∈ workspace.projects ∧ project.key.Same key := by
  constructor
  · intro found
    exact ⟨List.mem_of_find?_eq_some found, by simpa using List.find?_some found⟩
  · rintro ⟨isProject, same⟩
    obtain ⟨other, found⟩ : ∃ other, workspace.project? key = some other :=
      Option.isSome_iff_exists.1 (List.find?_isSome.2 ⟨project, isProject, by simpa using same⟩)
    have isOther := List.mem_of_find?_eq_some found
    have sameOther : other.key.Same key := by simpa using List.find?_some found
    rw [found, consistent.eq_of_key isOther isProject (sameOther.trans same.symm)]

theorem project?_eq_none_iff
    {key : AssemblyKey} :
    workspace.project? key = none
      ↔ ∀ project ∈ workspace.projects, ¬ project.key.Same key := by
  simp [project?, List.find?_eq_none]

/-- The next number is no project's. -/
theorem id_ne_next
    (consistent : workspace.Consistent root)
    {project : Project}
    (isProject : project ∈ workspace.projects) :
    project.id ≠ ⟨workspace.lastProject + 1⟩ := by
  intro same
  have issued := consistent.issued project isProject
  rw [same] at issued
  exact absurd issued (Nat.not_succ_le_self _)

/-- No file has the next number. -/
theorem project_ne_next
    (consistent : workspace.Consistent root)
    {file : GeneratedFile}
    (isFile : file ∈ workspace.index.files) :
    file.project ≠ ⟨workspace.lastProject + 1⟩ := by
  obtain ⟨owner, isOwner, owns⟩ := consistent.filed file isFile
  exact owns.project_eq ▸ consistent.id_ne_next isOwner

end Consistent

/-! ## The five changes -/

/-- The projects after one is replaced. -/
theorem mem_replace_iff
    {old project other : Project}
    (isProject : old ∈ workspace.projects)
    (sameId : old.id = project.id) :
    other ∈ (workspace.replace project).projects
      ↔ other = project ∨ other ∈ workspace.projects ∧ other.id ≠ project.id := by
  rw [replace, List.mem_map]
  constructor
  · rintro ⟨before, isBefore, rfl⟩
    split
    · exact Or.inl rfl
    · next differs => exact Or.inr ⟨isBefore, differs⟩
  · rintro (rfl | ⟨isOther, differs⟩)
    · exact ⟨old, isProject, if_pos sameId⟩
    · exact ⟨other, isOther, if_neg differs⟩

namespace Consistent

/-- Only projects, files and the last number count. -/
theorem congr
    {after : Workspace}
    (consistent : workspace.Consistent root)
    (projects : after.projects = workspace.projects)
    (index : after.index = workspace.index)
    (last : after.lastProject = workspace.lastProject) :
    after.Consistent root where
  keys := projects ▸ consistent.keys
  ids := projects ▸ consistent.ids
  issued := by
    rw [projects, last]
    exact consistent.issued
  numbered := projects ▸ consistent.numbered
  housed := projects ▸ consistent.housed
  safe := projects ▸ consistent.safe
  filed := by
    rw [projects, index]
    exact consistent.filed

/-- What a project shares with the one in its place stays as it was. -/
theorem map_replace
    (consistent : workspace.Consistent root)
    {project other : Project}
    (isProject : project ∈ workspace.projects)
    (sameId : other.id = project.id)
    {α : Type}
    (value : Project → α)
    (same : value other = value project) :
    (workspace.replace other).projects.map value = workspace.projects.map value := by
  rw [replace, List.map_map]
  refine List.map_congr_left fun old isOld => ?_
  rw [Function.comp_apply]
  split
  · next own => rw [consistent.eq_of_id isOld isProject (own.trans sameId), same]
  · rfl

/-- What a project is like, apart from its documents, stays when a document is added. -/
theorem grow
    {after : Workspace}
    (consistent : workspace.Consistent root)
    {project : Project}
    (isProject : project ∈ workspace.projects)
    {path : String}
    (safe : SafePath path)
    {file : GeneratedFile}
    (belongs : Belongs (project.add path) file)
    (projects : after.projects = (workspace.replace (project.add path)).projects)
    (index : after.index = workspace.index.register file)
    (last : after.lastProject = workspace.lastProject) :
    after.Consistent root := by
  have member {other : Project} : other ∈ after.projects
      ↔ other = project.add path ∨ other ∈ workspace.projects ∧ other.id ≠ project.id := by
    rw [projects, mem_replace_iff isProject (project.add_id path).symm, project.add_id]
  have keep {α : Type} (value : Project → α)
      (same : value (project.add path) = value project) :
      after.projects.map value = workspace.projects.map value := by
    rw [projects]
    exact consistent.map_replace isProject (project.add_id path) value same
  refine ⟨?_, ?_, ?_, ?_, ?_, ?_, ?_⟩
  · rw [keep (·.key) (project.add_key path)]
    exact consistent.keys
  · rw [keep (·.id) (project.add_id path)]
    exact consistent.ids
  · intro other isOther
    rw [last]
    rcases member.1 isOther with rfl | ⟨old, -⟩
    · rw [project.add_id]
      exact consistent.issued project isProject
    · exact consistent.issued other old
  · intro other isOther
    rcases member.1 isOther with rfl | ⟨old, -⟩
    · exact (consistent.numbered project isProject).add path
    · exact consistent.numbered other old
  · intro other isOther
    rcases member.1 isOther with rfl | ⟨old, -⟩
    · rw [project.add_directory, project.add_key]
      exact consistent.housed project isProject
    · exact consistent.housed other old
  · intro other isOther document isDocument
    rcases member.1 isOther with rfl | ⟨old, -⟩
    · rcases Project.mem_add_iff.1 isDocument with isDocument | ⟨-, rfl⟩
      · exact consistent.safe project isProject document isDocument
      · exact safe
    · exact consistent.safe other old document isDocument
  · intro found isFound
    rw [index] at isFound
    rcases FileIndex.of_mem_register isFound with old | rfl
    · obtain ⟨owner, isOwner, owns⟩ := consistent.filed found old
      by_cases own : owner.id = project.id
      · obtain rfl := consistent.eq_of_id isOwner isProject own
        obtain ⟨document, isDocument, path', rest⟩ := owns.document
        refine ⟨owner.add path, member.2 (Or.inl rfl), ?_, ?_, document, ?_, path', ?_⟩
        · rw [owner.add_key]
          exact owns.key
        · rw [owner.add_signaturesOnly]
          exact owns.bare
        · exact Project.mem_add_iff.2 (Or.inl isDocument)
        · rw [owner.add_id, owner.add_absolute]
          exact rest
      · exact ⟨owner, member.2 (Or.inr ⟨isOwner, own⟩), owns⟩
    · exact ⟨project.add path, member.2 (Or.inl rfl), belongs⟩

/-- A project with the next number is added, and with it files that belong to it. -/
theorem create
    {after : Workspace}
    (consistent : workspace.Consistent root)
    {project : Project}
    (absent : workspace.project? project.key = none)
    (id : project.id = ⟨workspace.lastProject + 1⟩)
    (numbered : project.Numbered)
    (housed : project.directory = Path.join root project.key.directoryName)
    (safe : ∀ document ∈ project.documents, SafePath document.path)
    {files : List GeneratedFile}
    (belong : ∀ file ∈ files, Belongs project file)
    (projects : after.projects = workspace.projects ++ [project])
    (index : after.index = files.foldl FileIndex.register workspace.index)
    (last : after.lastProject = workspace.lastProject + 1) :
    after.Consistent root := by
  have each {holds : Project → Prop} (old : ∀ other ∈ workspace.projects, holds other)
      (new : holds project) : ∀ other ∈ after.projects, holds other := by
    intro other isOther
    rw [projects] at isOther
    rcases List.mem_append.1 isOther with isOld | isNew
    · exact old other isOld
    · exact List.mem_singleton.1 isNew ▸ new
  refine ⟨?_, ?_, ?_, each consistent.numbered numbered, each consistent.housed housed,
    each consistent.safe safe, ?_⟩
  · rw [projects, List.map_append, List.pairwise_append]
    refine ⟨consistent.keys, List.pairwise_singleton _ _, ?_⟩
    intro key isKey other isOther
    obtain ⟨owner, isOwner, rfl⟩ := List.mem_map.1 isKey
    rw [List.mem_singleton.1 isOther]
    exact project?_eq_none_iff.1 absent owner isOwner
  · rw [projects, List.map_append, List.nodup_append]
    refine ⟨consistent.ids, List.nodup_singleton _, ?_⟩
    rintro number isNumber other isOther rfl
    obtain ⟨owner, isOwner, rfl⟩ := List.mem_map.1 isNumber
    have own : owner.id = project.id := List.mem_singleton.1 isOther
    exact consistent.id_ne_next isOwner (own.trans id)
  · refine each (fun other isOther => ?_) ?_
    · rw [last]
      exact Nat.le_succ_of_le (consistent.issued other isOther)
    · rw [id, last]
  · intro file isFile
    rw [index] at isFile
    rcases FileIndex.of_mem_registerAll isFile with old | new
    · obtain ⟨owner, isOwner, owns⟩ := consistent.filed file old
      exact ⟨owner, by rw [projects]; exact List.mem_append_left _ isOwner, owns⟩
    · exact ⟨project, by rw [projects]; simp, belong file new⟩

/-- A project is dropped with all its files. -/
theorem drop
    {after : Workspace}
    (consistent : workspace.Consistent root)
    {project : Project}
    (projects : after.projects = workspace.projects.filter (·.id ≠ project.id))
    (index : after.index = workspace.index.removeProject project.id)
    (last : after.lastProject = workspace.lastProject) :
    after.Consistent root := by
  have fewer : after.projects.Sublist workspace.projects := by
    rw [projects]
    exact List.filter_sublist
  refine ⟨?_, ?_, ?_, ?_, ?_, ?_, ?_⟩
  · exact consistent.keys.sublist (fewer.map _)
  · exact consistent.ids.sublist (fewer.map _)
  · intro other isOther
    rw [last]
    exact consistent.issued other (fewer.subset isOther)
  · exact fun other isOther => consistent.numbered other (fewer.subset isOther)
  · exact fun other isOther => consistent.housed other (fewer.subset isOther)
  · exact fun other isOther => consistent.safe other (fewer.subset isOther)
  · intro file isFile
    rw [index, FileIndex.mem_removeProject_iff] at isFile
    obtain ⟨owner, isOwner, owns⟩ := consistent.filed file isFile.1
    have other : owner.id ≠ project.id := owns.project_eq ▸ isFile.2
    exact ⟨owner, by rw [projects]; exact List.mem_filter.2 ⟨isOwner, by simpa using other⟩, owns⟩

/-- A workspace without projects is consistent. -/
theorem of_empty
    (projects : workspace.projects = [])
    (index : workspace.index = .empty) :
    workspace.Consistent root := by
  have none (project : Project) : project ∉ workspace.projects := by
    rw [projects]
    exact List.not_mem_nil
  refine ⟨?_, ?_, ?_, ?_, ?_, ?_, ?_⟩
  · rw [projects]
    exact List.Pairwise.nil
  · rw [projects]
    exact List.nodup_nil
  · exact fun project isProject => absurd isProject (none project)
  · exact fun project isProject => absurd isProject (none project)
  · exact fun project isProject => absurd isProject (none project)
  · exact fun project isProject => absurd isProject (none project)
  · intro file isFile
    rw [index] at isFile
    exact absurd isFile List.not_mem_nil

end Consistent

end Workspace

namespace Provider

variable {provider : Provider} {workspace after : Workspace} {operation : Operation}

/-- A file that is made for a document belongs to its project. -/
theorem belongs_generated
    {project : Project}
    {key : AssemblyKey}
    (same : project.key.Same key)
    {file : SourceFile}
    (safe : SafePath file.path)
    {document : DocumentId}
    (found : project.find? file.path = some document) :
    Belongs project (generated project key document file) := by
  obtain ⟨own, isOwn, number, near, -⟩ := Project.exists_of_find? found
  exact ⟨same, rfl, own, isOwn, file.path, safe, near, number, rfl⟩

/-- What is recorded for a project has its number, and a path in its directory. -/
theorem of_record?
    {project : Project}
    {key : AssemblyKey}
    {source : SourceFile}
    {file : GeneratedFile}
    (record : record? project key source = some file) :
    file.project = project.id ∧ file.path = project.absolute source.path := by
  obtain ⟨document, found, rfl⟩ := Option.map_eq_some_iff.1 record
  exact ⟨Project.project_of_find? found, rfl⟩

/-- The documents of a new project have the paths of its files. -/
theorem safe_of_filled
    {target : Target}
    {topLevel : SymbolKey}
    {cancellation : Cancellation}
    {files : List SourceFile}
    (made : provider.projectFiles
      (provider.emptyProject workspace target (provider.sources? target cancellation))
      target.module topLevel (provider.sources? target cancellation) false = .ok files)
    {document : Document}
    (isDocument : document ∈ ((provider.emptyProject workspace target
      (provider.sources? target cancellation)).addAll (files.map (·.path))).documents) :
    SafePath document.path := by
  rcases Project.mem_of_addAll isDocument with old | new
  · exact absurd old List.not_mem_nil
  · obtain ⟨file, isFile, path⟩ := List.mem_map.1 new
    exact path ▸ safePath_of_projectFiles made isFile

/-- Every change keeps projects and files in agreement. -/
theorem Change.consistent
    (change : provider.Change workspace operation after)
    (consistent : workspace.Consistent provider.root) :
    after.Consistent provider.root := by
  cases change with
  | still projects index last => exact consistent.congr projects index last
  | @grown target topLevel _ project stub document _ present _ _ made found projects index last =>
      obtain ⟨isProject, same⟩ := consistent.project?_eq_some_iff.1 present
      have safe : SafePath stub.path := by
        rw [(stub_eq_ok made).1]
        exact safePath_expectedPath topLevel
      refine consistent.grow isProject safe (belongs_generated ?_ safe found) projects index last
      rw [project.add_key]
      exact same
  | @created target topLevel cancellation sources files project _ absent supplied _ made filled
      projects index last =>
      subst supplied
      subst filled
      have key : ((provider.emptyProject workspace target
          (provider.sources? target cancellation)).addAll (files.map (·.path))).key = target.key :=
        Project.addAll_key _ _
      refine consistent.create ?_ (Project.addAll_id _ _)
        ((Project.numbered_of_empty rfl rfl).addAll _) ?_ (fun _ => safe_of_filled made) ?_ projects
        index last
      · rw [key]
        exact absent
      · rw [key]
        exact Project.addAll_directory _ _
      · intro file isFile
        obtain ⟨source, isSource, recorded⟩ := List.mem_filterMap.1 isFile
        obtain ⟨document, found, rfl⟩ := Option.map_eq_some_iff.1 recorded
        refine belongs_generated ?_ (safePath_of_projectFiles made isSource) found
        rw [key]
        exact target.key.same_refl
  | dropped _ present projects index last => exact consistent.drop projects index last
  | cleared _ projects index last => exact .of_empty projects index

/-- Projects and files agree after operations in a row. -/
theorem consistent_after
    (provider : Provider)
    (disk : Disk)
    (operations : List Operation) :
    (provider.after disk operations).Consistent provider.root :=
  invariant_after (fun _ => .of_empty rfl rfl)
    (fun consistent change => change.consistent consistent) disk operations

end Provider

end Navigation
end AssemblyAtlas
