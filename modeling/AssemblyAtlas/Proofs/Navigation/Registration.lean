import AssemblyAtlas.Proofs.Navigation.Consistency
import AssemblyAtlas.Proofs.Navigation.Landing

/-!
# Registered documents

A document is registered when its project gets it, unless its place is taken. A place is taken by a
file of another project only if the two directories have the same name, which keys of different
assemblies may have. As long as there are no such keys, each document of each project is registered,
and at its own path.

* `Workspace.Apart` says that there are no such keys, and `Workspace.Registered` is what follows;
* `Provider.Change.registered` is about one change, and `Provider.registered_after` about operations
  in a row.
-/

namespace AssemblyAtlas
namespace Navigation

open FileName
open Sources
open Text

/-- A file is found under every path that counts like its own. -/
theorem FileIndex.find?_eq_some_iff
    {index : FileIndex}
    {path : String}
    {file : GeneratedFile} :
    index.find? path = some file
      ↔ file ∈ index.files ∧ GeneratedFile.indexKey file.path = GeneratedFile.indexKey path := by
  constructor
  · exact fun found => ⟨mem_of_find? found, indexKey_of_find? found⟩
  · rintro ⟨isFile, same⟩
    obtain ⟨other, found⟩ : ∃ other, index.find? path = some other :=
      Option.isSome_iff_exists.1 (List.find?_isSome.2 ⟨file, isFile, by simpa using same⟩)
    have either_way : Std.Symm fun left right : GeneratedFile =>
        GeneratedFile.indexKey left.path ≠ GeneratedFile.indexKey right.path :=
      ⟨fun _ _ differ => differ.symm⟩
    have one : other = file := by
      by_contra differ
      exact index.distinct.forall (mem_of_find? found) isFile differ
        ((indexKey_of_find? found).trans same.symm)
    rw [found, one]

namespace Workspace

/-- Projects for different assemblies have directories of different names. -/
def Apart (workspace : Workspace) : Prop :=
  ∀ left ∈ workspace.projects, ∀ right ∈ workspace.projects,
    left.key.directoryName = right.key.directoryName → left.key.Same right.key

/-- The file is registered at the path of the document that it belongs to. -/
def StandsAt (project : Project) (file : GeneratedFile) : Prop :=
  ∃ document ∈ project.documents,
    file.document = ⟨project.id, document.index⟩ ∧ file.path = project.absolute document.path

/-- Each document has a registered file of its project, and each file has the path of its
document. -/
structure Registered (workspace : Workspace) : Prop where
  occupied : ∀ project ∈ workspace.projects, ∀ document ∈ project.documents,
    ∃ file, workspace.index.find? (project.absolute document.path) = some file
      ∧ file.project = project.id
  exactly : ∀ file ∈ workspace.index.files, ∀ project ∈ workspace.projects,
    file.project = project.id → StandsAt project file

variable {root : String} {workspace after : Workspace}

/-- A workspace with one project at most has no two directories with one name. -/
theorem apart_of_length_le_one
    (single : workspace.projects.length ≤ 1) :
    workspace.Apart := by
  intro left isLeft right isRight _
  obtain ⟨i, inLeft, rfl⟩ := List.getElem_of_mem isLeft
  obtain ⟨j, inRight, rfl⟩ := List.getElem_of_mem isRight
  obtain rfl : i = j := by omega
  exact AssemblyKey.same_refl _

/-- A file that takes a place in the directory of a project belongs to a project whose directory has
the same name. -/
theorem Consistent.exists_owner
    (consistent : workspace.Consistent root)
    {project : Project}
    (housed : project.directory = Path.join root project.key.directoryName)
    {path : String}
    (safe : SafePath path)
    {file : GeneratedFile}
    (found : workspace.index.find? (project.absolute path) = some file) :
    ∃ owner ∈ workspace.projects, Belongs owner file
      ∧ owner.key.directoryName = project.key.directoryName := by
  obtain ⟨isFile, same⟩ := FileIndex.find?_eq_some_iff.1 found
  obtain ⟨owner, isOwner, owns⟩ := consistent.filed file isFile
  obtain ⟨-, -, inside, safeInside, -, -, place⟩ := owns.document
  rw [place, Project.absolute, Project.absolute, consistent.housed owner isOwner, housed] at same
  exact ⟨owner, isOwner, owns,
    ((GeneratedFile.indexKey_inj safeInside.relative safe.relative).1 same).1⟩

namespace Registered

/-- Only projects and files count. -/
theorem congr
    (registered : workspace.Registered)
    (projects : after.projects = workspace.projects)
    (index : after.index = workspace.index) :
    after.Registered where
  occupied := by
    rw [projects, index]
    exact registered.occupied
  exactly := by
    rw [projects, index]
    exact registered.exactly

/-- A workspace without projects has no documents. -/
theorem of_empty
    (projects : workspace.projects = [])
    (index : workspace.index = .empty) :
    workspace.Registered where
  occupied := by
    intro project isProject
    rw [projects] at isProject
    exact absurd isProject List.not_mem_nil
  exactly := by
    intro file isFile
    rw [index] at isFile
    exact absurd isFile List.not_mem_nil

/-- A project is dropped with the files that are registered for it. -/
theorem drop
    (registered : workspace.Registered)
    {project : Project}
    (projects : after.projects = workspace.projects.filter (·.id ≠ project.id))
    (index : after.index = workspace.index.removeProject project.id) :
    after.Registered := by
  have stays {other : Project} (isOther : other ∈ after.projects) :
      other ∈ workspace.projects ∧ other.id ≠ project.id := by
    rw [projects] at isOther
    simpa using isOther
  constructor
  · intro other isOther document isDocument
    obtain ⟨old, differs⟩ := stays isOther
    obtain ⟨file, found, own⟩ := registered.occupied other old document isDocument
    obtain ⟨isFile, same⟩ := FileIndex.find?_eq_some_iff.1 found
    refine ⟨file, FileIndex.find?_eq_some_iff.2 ⟨?_, same⟩, own⟩
    rw [index, FileIndex.mem_removeProject_iff, own]
    exact ⟨isFile, differs⟩
  · intro file isFile other isOther own
    rw [index, FileIndex.mem_removeProject_iff] at isFile
    exact registered.exactly file isFile.1 other (stays isOther).1 own

/-- A project that lacks a document gets it at a free place, or at one that it has taken itself. -/
theorem grow
    (registered : workspace.Registered)
    (consistent : workspace.Consistent root)
    (apart : workspace.Apart)
    {project : Project}
    (isProject : project ∈ workspace.projects)
    {path : String}
    (free : project.find? path = none)
    (safe : SafePath path)
    {file : GeneratedFile}
    (number : file.document = ⟨project.id, project.nextDocument⟩)
    (place : file.path = project.absolute path)
    (projects : after.projects = (workspace.replace (project.add path)).projects)
    (index : after.index = workspace.index.register file) :
    after.Registered := by
  have member {other : Project} : other ∈ after.projects
      ↔ other = project.add path ∨ other ∈ workspace.projects ∧ other.id ≠ project.id := by
    rw [projects, mem_replace_iff isProject (project.add_id path).symm, project.add_id]
  have own : file.project = project.id := congrArg DocumentId.project number
  have keeps {inside : String} {old : GeneratedFile}
      (found : workspace.index.find? inside = some old) :
      after.index.find? inside = some old := by
    rw [index, FileIndex.find?_register, found, Option.some_or]
  have isNew : (⟨path, project.nextDocument⟩ : Document) ∈ (project.add path).documents :=
    Project.mem_add_iff.2 (Or.inr ⟨free, rfl⟩)
  constructor
  · intro other isOther document isDocument
    rcases member.1 isOther with rfl | ⟨old, -⟩
    · rw [project.add_absolute, project.add_id]
      rcases Project.mem_add_iff.1 isDocument with isDocument | ⟨-, rfl⟩
      · obtain ⟨old, found, isOwn⟩ := registered.occupied project isProject document isDocument
        exact ⟨old, keeps found, isOwn⟩
      · cases found : workspace.index.find? (project.absolute path) with
        | some old =>
            obtain ⟨owner, isOwner, owns, sameName⟩ :=
              consistent.exists_owner (consistent.housed project isProject) safe found
            obtain rfl : owner = project := consistent.eq_of_key isOwner isProject
              (apart owner isOwner project isProject sameName)
            exact ⟨old, keeps found, owns.project_eq⟩
        | none =>
            refine ⟨file, ?_, own⟩
            rw [index, FileIndex.find?_register, found, Option.none_or, List.find?_singleton,
              place, beq_self_eq_true, if_pos rfl]
    · obtain ⟨occupant, found, isOwn⟩ := registered.occupied other old document isDocument
      exact ⟨occupant, keeps found, isOwn⟩
  · intro found isFound other isOther isOwn
    rw [index] at isFound
    rcases FileIndex.of_mem_register isFound with old | rfl
    · rcases member.1 isOther with rfl | ⟨isOld, -⟩
      · rw [project.add_id] at isOwn
        obtain ⟨document, isDocument, rest⟩ := registered.exactly found old project isProject isOwn
        refine ⟨document, Project.mem_add_iff.2 (Or.inl isDocument), ?_⟩
        rw [project.add_id, project.add_absolute]
        exact rest
      · exact registered.exactly found old other isOld isOwn
    · rcases member.1 isOther with rfl | ⟨-, differs⟩
      · refine ⟨⟨path, project.nextDocument⟩, isNew, ?_⟩
        rw [project.add_id, project.add_absolute]
        exact ⟨number, place⟩
      · exact absurd (isOwn.symm.trans own) differs

end Registered

end Workspace

namespace Provider

variable {provider : Provider} {workspace after : Workspace} {operation : Operation}

section Created

variable {empty project : Project} {files : List SourceFile}

/-- At a free place of a new project the first of the files that come to it is registered. -/
theorem exists_registered
    (filled : project = empty.addAll (files.map (·.path)))
    (key : AssemblyKey)
    {file : SourceFile}
    (isFile : file ∈ files)
    (free : workspace.index.find? (project.absolute file.path) = none) :
    ∃ first made, firstAt? project files file.path = some first
      ∧ record? project key first = some made
      ∧ ((files.filterMap (record? project key)).foldl FileIndex.register workspace.index).find?
          (project.absolute file.path) = some made := by
  have listed : ∀ file ∈ files, (project.find? file.path).isSome := by
    intro file isFile
    rw [filled]
    exact Project.isSome_find?_addAll _ (List.mem_map_of_mem (f := (·.path)) isFile)
  obtain ⟨first, isFirst⟩ : ∃ first, firstAt? project files file.path = some first :=
    Option.isSome_iff_exists.1 (List.find?_isSome.2 ⟨file, isFile, by simp⟩)
  obtain ⟨document, found⟩ :=
    Option.isSome_iff_exists.1 (listed first (List.mem_of_find?_eq_some isFirst))
  have record : record? project key first = some (generated project key document first) := by
    rw [record?, found, Option.map_some]
  refine ⟨first, _, isFirst, record, ?_⟩
  rw [FileIndex.find?_registerAll, find?_records listed, free, Option.none_or, isFirst,
    Option.bind_some, record]

/-- The first file that comes to a place has the path of its document, since no file in front of it
differs in the case of ASCII letters only. -/
theorem standsAt_of_first
    (isEmpty : empty.documents = [])
    (filled : project = empty.addAll (files.map (·.path)))
    {key : AssemblyKey}
    {path : String}
    {first : SourceFile}
    (isFirst : firstAt? project files path = some first)
    {file : GeneratedFile}
    (record : record? project key first = some file) :
    Workspace.StandsAt project file := by
  obtain ⟨-, front, behind, split, earlier⟩ := List.find?_eq_some_iff_append.1 isFirst
  have sameClass : GeneratedFile.indexKey (project.absolute first.path)
      = GeneratedFile.indexKey (project.absolute path) := by
    simpa using List.find?_some isFirst
  have apart : ∀ path ∈ front.map (·.path), sameIgnoringCase path first.path = false := by
    intro path isPath
    obtain ⟨before, isBefore, rfl⟩ := List.mem_map.1 isPath
    rw [Bool.eq_false_iff]
    intro same
    have joined : GeneratedFile.indexKey (project.absolute before.path)
        = GeneratedFile.indexKey (project.absolute first.path) :=
      lowercase_eq_of_sameIgnoringCase (sameIgnoringCase_join project.directory same)
    exact absurd (joined.trans sameClass) (by simpa using earlier before isBefore)
  obtain ⟨own, isOwn, ownPath⟩ : ∃ document ∈ project.documents,
      document.path = first.path := by
    rw [filled, split, List.map_append, List.map_cons]
    exact Project.exists_document_of_first isEmpty apart
  obtain ⟨id, isFound, rfl⟩ := Option.map_eq_some_iff.1 record
  obtain ⟨document, isDocument, number, -, whole⟩ := Project.exists_of_find? isFound
  have samePath := whole own isOwn ownPath
  refine ⟨document, isDocument, number, ?_⟩
  rw [samePath]
  rfl

/-- The documents of a new project are registered. -/
theorem registered_create
    (isEmpty : empty.documents = [])
    (filled : project = empty.addAll (files.map (·.path)))
    (key : AssemblyKey)
    (registered : workspace.Registered)
    (free : ∀ file ∈ files, workspace.index.find? (project.absolute file.path) = none)
    (new : ∀ file ∈ workspace.index.files, file.project ≠ project.id)
    (others : ∀ other ∈ workspace.projects, other.id ≠ project.id)
    (projects : after.projects = workspace.projects ++ [project])
    (index : after.index = (files.filterMap (record? project key)).foldl FileIndex.register
      workspace.index) :
    after.Registered := by
  have member {other : Project} : other ∈ after.projects
      ↔ other ∈ workspace.projects ∨ other = project := by
    rw [projects, List.mem_append, List.mem_singleton]
  constructor
  · intro other isOther document isDocument
    rw [index]
    rcases member.1 isOther with old | rfl
    · obtain ⟨occupant, found, own⟩ := registered.occupied other old document isDocument
      refine ⟨occupant, ?_, own⟩
      rw [FileIndex.find?_registerAll, found, Option.some_or]
    · rw [filled] at isDocument
      rcases Project.mem_of_addAll isDocument with old | added
      · rw [isEmpty] at old
        exact absurd old List.not_mem_nil
      · obtain ⟨file, isFile, path⟩ := List.mem_map.1 added
        obtain ⟨first, made, -, record, found⟩ :=
          exists_registered filled key isFile (free file isFile)
        exact ⟨made, path ▸ found, (of_record? record).1⟩
  · intro file isFile other isOther own
    have fromFiles := index ▸ isFile
    rcases FileIndex.of_mem_registerAll fromFiles with old | made
    · rcases member.1 isOther with isOld | rfl
      · exact registered.exactly file old other isOld own
      · exact absurd own (new file old)
    · obtain ⟨source, isSource, record⟩ := List.mem_filterMap.1 made
      obtain ⟨isNew, path⟩ := of_record? record
      obtain rfl : other = project := by
        rcases member.1 isOther with isOld | isProject
        · exact absurd (own.symm.trans isNew) (others other isOld)
        · exact isProject
      obtain ⟨first, made, isFirst, isMade, found⟩ :=
        exists_registered filled key isSource (free source isSource)
      have here : after.index.find? (other.absolute source.path) = some file :=
        FileIndex.find?_eq_some_iff.2 ⟨isFile, by rw [path]⟩
      rw [index, found] at here
      exact Option.some.inj here ▸ standsAt_of_first isEmpty filled isFirst isMade

end Created

/-- As long as directories of different assemblies have different names, every change keeps
documents registered. -/
theorem Change.registered
    (change : provider.Change workspace operation after)
    (consistent : workspace.Consistent provider.root)
    (apart : workspace.Apart)
    (apartAfter : after.Apart)
    (registered : workspace.Registered) :
    after.Registered := by
  have consistentAfter := change.consistent consistent
  cases change with
  | still projects index last => exact registered.congr projects index
  | @grown target topLevel _ project stub document _ present lacking _ made found projects index =>
      obtain ⟨isProject, same⟩ := consistent.project?_eq_some_iff.1 present
      obtain ⟨path, -⟩ := stub_eq_ok made
      -- A document at the expected path would be shown, and it would be registered.
      have free : project.find? stub.path = none := by
        by_contra taken
        obtain ⟨shown, isShown, -⟩ := Project.exists_primary?
          (path ▸ Option.ne_none_iff_isSome.1 taken)
        obtain ⟨own, isOwn, rfl⟩ := Project.mem_of_primary? isShown
        obtain ⟨occupant, occupied, -⟩ := registered.occupied project isProject own isOwn
        cases (lacking _ isShown).symm.trans occupied
      have safe : SafePath stub.path := path ▸ safePath_expectedPath topLevel
      have number : document = ⟨project.id, project.nextDocument⟩ := by
        obtain ⟨own, isOwn, number, near, -⟩ := Project.exists_of_find? found
        rcases Project.mem_add_iff.1 isOwn with old | ⟨-, rfl⟩
        · exact absurd near (by simp [Project.find?_eq_none_iff.1 free own old])
        · rw [number, project.add_id]
      refine registered.grow consistent apart isProject free safe number ?_ projects index
      exact project.add_absolute _ _
  | @created target topLevel cancellation sources files project _ absent supplied _ made filled
      projects index last =>
      subst supplied
      have isNew : project ∈ after.projects := by
        rw [projects]
        simp
      have id : project.id = ⟨workspace.lastProject + 1⟩ := filled ▸ Project.addAll_id _ _
      have key : project.key = target.key := filled ▸ Project.addAll_key _ _
      refine registered_create rfl filled target.key registered ?_
        (fun file isFile => id ▸ consistent.project_ne_next isFile)
        (fun other isOther => id ▸ consistent.id_ne_next isOther) projects index
      intro file isFile
      by_contra taken
      obtain ⟨old, found⟩ := Option.ne_none_iff_exists'.1 taken
      obtain ⟨owner, isOwner, -, sameName⟩ := consistent.exists_owner
        (consistentAfter.housed project isNew) (safePath_of_projectFiles made isFile) found
      have isOld : owner ∈ after.projects := by
        rw [projects]
        exact List.mem_append_left _ isOwner
      have same := apartAfter owner isOld project isNew sameName
      rw [key] at same
      exact Workspace.Consistent.project?_eq_none_iff.1 absent owner isOwner same
  | dropped _ present projects index => exact registered.drop projects index
  | cleared _ projects index => exact .of_empty projects index

/-- Documents are registered after operations in a row, if all the time directories of different
assemblies have different names. -/
theorem registered_after
    (disk : Disk)
    (operations : List Operation)
    (apart : ∀ earlier, earlier <+: operations → (provider.after disk earlier).Apart) :
    (provider.after disk operations).Registered := by
  induction operations using List.reverseRecOn with
  | nil => exact .of_empty rfl rfl
  | append_singleton earlier operation ih =>
      have before : ∀ first, first <+: earlier → (provider.after disk first).Apart :=
        fun first isFirst => apart first (isFirst.trans (List.prefix_append _ _))
      have change : provider.Change (provider.after disk earlier) operation
          (provider.after disk (earlier ++ [operation])) := by
        rw [after_concat]
        exact change_perform _ operation
      exact change.registered (provider.consistent_after disk earlier)
        (before earlier List.prefix_rfl) (apart _ List.prefix_rfl) (ih before)

end Provider

end Navigation
end AssemblyAtlas
