import AssemblyAtlas.Proofs.Navigation.Registration

/-!
# Bookkeeping

After operations in a row, each file belongs to the project of its assembly and to one of its
documents. The numbers of projects and documents are never used twice, and an operation for one
assembly leaves the projects of all others alone.

* `Workspace.Precedes` is about numbers of projects, and `Provider.Change.precedes` keeps it;
* `Provider.Concerns` has the assemblies that an operation is about, and
  `Provider.Change.project?_eq` and `Provider.Change.filesOf_eq` are about all others;
* `Provider.orderly_after` puts all of it together;
* `collidingWorkspace` has two assemblies whose directories have the same name, and a file at the
  path of no document.
-/

namespace AssemblyAtlas
namespace Navigation

open Assembly
open Reference
open Sources

/-! ## Numbers -/

/-- Numbers of projects that were issued in a workspace are not issued again later. -/
structure Workspace.Precedes (workspace later : Workspace) : Prop where
  last : workspace.lastProject ≤ later.lastProject
  former : ∀ project ∈ later.projects, project.id.number ≤ workspace.lastProject →
    ∃ old ∈ workspace.projects, old.id = project.id ∧ old.key = project.key

namespace Workspace

theorem precedes_refl (workspace : Workspace) :
    workspace.Precedes workspace :=
  ⟨Nat.le_refl _, fun project isProject _ => ⟨project, isProject, rfl, rfl⟩⟩

theorem Precedes.trans
    {first second third : Workspace}
    (early : first.Precedes second)
    (late : second.Precedes third) :
    first.Precedes third := by
  refine ⟨Nat.le_trans early.last late.last, fun project isProject issued => ?_⟩
  obtain ⟨middle, isMiddle, middleId, middleKey⟩ :=
    late.former project isProject (Nat.le_trans issued early.last)
  obtain ⟨old, isOld, id, key⟩ := early.former middle isMiddle (by rw [middleId]; exact issued)
  exact ⟨old, isOld, id.trans middleId, key.trans middleKey⟩

end Workspace

/-! ## Files of a project -/

namespace FileIndex

/-- A file of another project makes no difference. -/
theorem filesOf_register
    {index : FileIndex}
    {file : GeneratedFile}
    {id : ProjectId}
    (other : file.project ≠ id) :
    (index.register file).filesOf id = index.filesOf id := by
  cases found : index.find? file.path with
  | some taken => rw [register_of_find? found]
  | none =>
      rw [filesOf, files_register_of_free found, List.filter_append,
        List.filter_cons_of_neg (by simpa using other), List.filter_nil, List.append_nil, filesOf]

theorem filesOf_registerAll
    {files : List GeneratedFile}
    {index : FileIndex}
    {id : ProjectId}
    (others : ∀ file ∈ files, file.project ≠ id) :
    (files.foldl register index).filesOf id = index.filesOf id := by
  induction files generalizing index with
  | nil => rfl
  | cons file rest ih =>
      rw [List.foldl_cons, ih fun other isOther => others other (List.mem_cons_of_mem _ isOther),
        filesOf_register (others file List.mem_cons_self)]

theorem filesOf_removeProject
    {index : FileIndex}
    {project id : ProjectId}
    (other : id ≠ project) :
    (index.removeProject project).filesOf id = index.filesOf id := by
  rw [filesOf, removeProject, List.filter_filter, filesOf]
  refine List.filter_congr fun file _ => ?_
  by_cases own : file.project = id
  · simp [own, other]
  · simp [own]

end FileIndex

namespace Provider

variable (provider : Provider)

/-! ## Operations for one assembly -/

/-- The operation is for the assembly. Cleaning up everything is for all assemblies, and writing to
the disk is for none. -/
def Concerns (workspace : Workspace) : Operation → AssemblyKey → Prop
  | .navigate request context _, key =>
      ∃ target, provider.target workspace.disk request context = .ok (some target)
        ∧ target.key.Same key
  | .cleanUp other, key => other.Same key
  | .cleanUpAll, _ => True
  | .ensure _, _ => False
  | .elsewhere _, _ => False

variable {provider} {workspace after : Workspace} {operation : Operation}

/-- A request for a type concerns its assembly. -/
theorem Asks.concerns
    {target : Target}
    {topLevel : SymbolKey}
    {cancellation : Cancellation}
    (asked : provider.Asks workspace operation target topLevel cancellation)
    {key : AssemblyKey}
    (same : target.key.Same key) :
    provider.Concerns workspace operation key := by
  obtain ⟨request, context, rfl, targeted, -⟩ := asked
  exact ⟨target, targeted, same⟩

/-- A new project has the next number. -/
theorem id_of_filled
    {target : Target}
    {sources : Option SourceSet}
    {paths : List String}
    {project : Project}
    (filled : project = (provider.emptyProject workspace target sources).addAll paths) :
    project.id = ⟨workspace.lastProject + 1⟩
      ∧ project.key = target.key :=
  ⟨filled ▸ Project.addAll_id _ _, filled ▸ Project.addAll_key _ _⟩

/-- A change issues no number twice. -/
theorem Change.precedes
    (change : provider.Change workspace operation after)
    (consistent : workspace.Consistent provider.root) :
    workspace.Precedes after := by
  cases change with
  | still projects index last =>
      refine ⟨Nat.le_of_eq last.symm, fun project isProject _ => ?_⟩
      exact ⟨project, projects ▸ isProject, rfl, rfl⟩
  | @grown _ _ _ project stub _ _ present _ _ _ _ projects index last =>
      obtain ⟨isProject, -⟩ := consistent.project?_eq_some_iff.1 present
      refine ⟨Nat.le_of_eq last.symm, fun other isOther _ => ?_⟩
      rw [projects, Workspace.mem_replace_iff isProject (project.add_id _).symm] at isOther
      rcases isOther with rfl | ⟨isOld, -⟩
      · exact ⟨project, isProject, (project.add_id _).symm, (project.add_key _).symm⟩
      · exact ⟨other, isOld, rfl, rfl⟩
  | created _ _ _ _ _ filled projects index last =>
      refine ⟨by rw [last]; exact Nat.le_succ _, fun other isOther issued => ?_⟩
      rw [projects] at isOther
      rcases List.mem_append.1 isOther with isOld | isNew
      · exact ⟨other, isOld, rfl, rfl⟩
      · rw [List.mem_singleton.1 isNew, (id_of_filled filled).1] at issued
        exact absurd issued (Nat.not_succ_le_self _)
  | dropped _ present projects index last =>
      refine ⟨Nat.le_of_eq last.symm, fun other isOther _ => ?_⟩
      rw [projects] at isOther
      exact ⟨other, (List.mem_filter.1 isOther).1, rfl, rfl⟩
  | cleared _ projects index last =>
      refine ⟨Nat.le_of_eq last.symm, fun other isOther _ => ?_⟩
      rw [projects] at isOther
      exact absurd isOther List.not_mem_nil

/-- A project with the key that a request asks for is of no assembly the request is not about. -/
theorem Asks.not_same
    {target : Target}
    {topLevel : SymbolKey}
    {cancellation : Cancellation}
    (asked : provider.Asks workspace operation target topLevel cancellation)
    {key : AssemblyKey}
    (other : ¬ provider.Concerns workspace operation key)
    {project : Project}
    (own : project.key.Same target.key) :
    ¬ project.key.Same key :=
  fun same => other (asked.concerns (own.symm.trans same))

/-- An operation for other assemblies leaves the project of an assembly alone. -/
theorem Change.project?_eq
    (change : provider.Change workspace operation after)
    (consistent : workspace.Consistent provider.root)
    {key : AssemblyKey}
    (other : ¬ provider.Concerns workspace operation key) :
    after.project? key = workspace.project? key := by
  have consistentAfter := change.consistent consistent
  -- It is enough to know which projects have the key.
  refine Option.ext fun project => ?_
  rw [consistentAfter.project?_eq_some_iff, consistent.project?_eq_some_iff]
  refine and_congr_left fun sameKey => ?_
  cases change with
  | still projects index last => rw [projects]
  | @grown target _ _ grown stub document asked present _ _ _ found projects index last =>
      obtain ⟨isGrown, ownKey⟩ := consistent.project?_eq_some_iff.1 present
      have differs := asked.not_same other ownKey
      rw [projects, Workspace.mem_replace_iff isGrown (grown.add_id _).symm, grown.add_id]
      constructor
      · rintro (rfl | ⟨isOld, -⟩)
        · rw [grown.add_key] at sameKey
          exact absurd sameKey differs
        · exact isOld
      · intro isOld
        refine Or.inr ⟨isOld, fun equal => ?_⟩
        obtain rfl := consistent.eq_of_id isOld isGrown equal
        exact differs sameKey
  | @created target _ _ sources files made asked absent _ _ _ filled projects index last =>
      rw [projects, List.mem_append, List.mem_singleton, or_iff_left]
      rintro rfl
      exact other (asked.concerns ((id_of_filled filled).2 ▸ sameKey))
  | @dropped _ dropped asked present projects index last =>
      obtain ⟨isDropped, ownKey⟩ := consistent.project?_eq_some_iff.1 present
      rw [projects, List.mem_filter, and_iff_left_iff_imp]
      intro isOld
      refine decide_eq_true fun equal => ?_
      obtain rfl := consistent.eq_of_id isOld isDropped equal
      subst asked
      exact other (ownKey.symm.trans sameKey)
  | cleared asked projects index last =>
      subst asked
      exact absurd trivial other

/-- It leaves the files of this project alone. -/
theorem Change.filesOf_eq
    (change : provider.Change workspace operation after)
    (consistent : workspace.Consistent provider.root)
    {key : AssemblyKey}
    (other : ¬ provider.Concerns workspace operation key)
    {project : Project}
    (isProject : workspace.project? key = some project) :
    after.index.filesOf project.id = workspace.index.filesOf project.id := by
  obtain ⟨isOld, sameKey⟩ := consistent.project?_eq_some_iff.1 isProject
  cases change with
  | still projects index last => rw [index]
  | @grown target _ _ grown stub document asked present _ _ _ found projects index last =>
      obtain ⟨isGrown, ownKey⟩ := consistent.project?_eq_some_iff.1 present
      rw [index]
      refine FileIndex.filesOf_register fun equal => ?_
      have sameId : grown.id = project.id := by
        rw [← grown.add_id stub.path]
        exact (Project.project_of_find? found).symm.trans equal
      obtain rfl := consistent.eq_of_id isGrown isOld sameId
      exact asked.not_same other ownKey sameKey
  | @created target _ _ sources files made asked absent _ _ _ filled projects index last =>
      rw [index]
      refine FileIndex.filesOf_registerAll fun file isFile equal => ?_
      obtain ⟨source, -, record⟩ := List.mem_filterMap.1 isFile
      have sameId : made.id = project.id := (of_record? record).1.symm.trans equal
      exact consistent.id_ne_next isOld (sameId.symm.trans (id_of_filled filled).1)
  | @dropped _ dropped asked present projects index last =>
      obtain ⟨isDropped, ownKey⟩ := consistent.project?_eq_some_iff.1 present
      rw [index]
      refine FileIndex.filesOf_removeProject fun equal => ?_
      obtain rfl := consistent.eq_of_id isOld isDropped equal
      subst asked
      exact other (ownKey.symm.trans sameKey)
  | cleared asked projects index last =>
      subst asked
      exact absurd trivial other

/-- Numbers that were issued stay issued through further operations. -/
theorem precedes_after
    (disk : Disk)
    (operations more : List Operation) :
    (provider.after disk operations).Precedes (provider.after disk (operations ++ more)) := by
  induction more using List.reverseRecOn with
  | nil =>
      rw [List.append_nil]
      exact Workspace.precedes_refl _
  | append_singleton earlier operation ih =>
      rw [← List.append_assoc, after_concat]
      exact ih.trans ((change_perform _ operation).precedes (provider.consistent_after disk _))

/-! ## All of it -/

/-- What is true of projects and files after operations in a row. -/
structure Orderly (provider : Provider) (disk : Disk) (operations : List Operation) : Prop where
  /-- Each file belongs to the project of its assembly. -/
  filed : ∀ file ∈ (provider.after disk operations).index.files,
    ∃ project, (provider.after disk operations).project? file.key = some project
      ∧ file.project = project.id
      ∧ Belongs project file
  /-- It stands at the very path of its document, if all the time directories of different
  assemblies have different names. -/
  exactly : (∀ earlier, earlier <+: operations → (provider.after disk earlier).Apart) →
    ∀ file ∈ (provider.after disk operations).index.files,
      ∀ project, (provider.after disk operations).project? file.key = some project →
        Workspace.StandsAt project file
  /-- There is one project for an assembly. -/
  keys : ∀ left ∈ (provider.after disk operations).projects,
    ∀ right ∈ (provider.after disk operations).projects,
      left.key.Same right.key → left = right
  ids : ((provider.after disk operations).projects.map (·.id)).Nodup
  issued : ∀ project ∈ (provider.after disk operations).projects,
    project.id.number ≤ (provider.after disk operations).lastProject
  /-- No number is issued again. -/
  precedes : ∀ more,
    (provider.after disk operations).Precedes (provider.after disk (operations ++ more))
  numbered : ∀ project ∈ (provider.after disk operations).projects, project.Numbered
  /-- A further operation for other assemblies leaves a project and its files alone. -/
  isolated : ∀ operation key, ¬ provider.Concerns (provider.after disk operations) operation key →
    (provider.after disk (operations ++ [operation])).project? key
        = (provider.after disk operations).project? key
      ∧ ∀ project, (provider.after disk operations).project? key = some project →
          (provider.after disk (operations ++ [operation])).index.filesOf project.id
            = (provider.after disk operations).index.filesOf project.id

/-- Projects and files are in order after operations in a row. -/
theorem orderly_after
    (provider : Provider)
    (disk : Disk)
    (operations : List Operation) :
    provider.Orderly disk operations := by
  have consistent := provider.consistent_after disk operations
  refine ⟨?_, ?_, ?_, consistent.ids, consistent.issued, precedes_after disk operations,
    consistent.numbered, ?_⟩
  · intro file isFile
    obtain ⟨project, isProject, belongs⟩ := consistent.filed file isFile
    exact ⟨project, consistent.project?_eq_some_iff.2 ⟨isProject, belongs.key⟩, belongs.project_eq,
      belongs⟩
  · intro apart file isFile project isProject
    obtain ⟨member, sameKey⟩ := consistent.project?_eq_some_iff.1 isProject
    obtain ⟨owner, isOwner, belongs⟩ := consistent.filed file isFile
    obtain rfl := consistent.eq_of_key isOwner member (belongs.key.trans sameKey.symm)
    exact (registered_after disk operations apart).exactly file isFile owner member
      belongs.project_eq
  · exact fun left isLeft right isRight => consistent.eq_of_key isLeft isRight
  · intro operation key other
    rw [after_concat]
    exact ⟨(change_perform _ operation).project?_eq consistent other,
      fun project => (change_perform _ operation).filesOf_eq consistent other⟩

end Provider

/-! ## Two directories with one name -/

/-- The first of two modules whose directories have the same name. -/
def leftModule : Module :=
  { Module.ofTypes [.bare (.ofRow .typeDefinition 2) "A" "widget"] with
    mvid := .ofBytes [0x10, 0x20, 0x30, 0x40, 0x50, 0x60, 0x47, 0x80,
      0xec, 0x8a, 0xc9, 0x79, 0x68, 0x68, 0x2e, 0x18] }

/-- The second of them has a type whose name differs in the case of a letter. -/
def rightModule : Module :=
  { Module.ofTypes [
      .bare (.ofRow .typeDefinition 2) "A" "widget",
      .bare (.ofRow .typeDefinition 3) "A" "Widget"] with
    mvid := .ofBytes [0x10, 0x20, 0x30, 0x40, 0x50, 0x60, 0x47, 0x80,
      0x4b, 0xa0, 0xd7, 0x05, 0xec, 0x78, 0xd6, 0x46] }

/-- A provider that finds each module in its own file. -/
def collidingProvider : Provider :=
  ⟨"out", .default, fun image =>
    .ok (if image.path = some "lib/Foo.dll" then leftModule else rightModule),
    .indenting, Markup.Library.documented_indenting⟩

/-- The assembly files of the two modules. -/
def collidingDisk : Disk :=
  { Disk.empty with
    entries := [(["lib"], .directory), (["lib", "Foo.dll"], .file "foo" false),
      (["lib", "Bar.dll"], .file "bar" false)] }

/-- The assembly with a name. -/
def plainAssembly (name : String) : ReferencedAssembly :=
  ⟨.ofName name .unspecified, false⟩

/-- A program that refers to both files. -/
def collidingContext : Context :=
  ⟨.ofList [(plainAssembly "Foo", some (.ofFile "lib/Foo.dll")),
    (plainAssembly "Bar", some (.ofFile "lib/Bar.dll"))], .csharp⟩

/-- Asks for a type without bodies. -/
def askFor (context : Context) (assembly space name : String) : Operation :=
  .navigate ⟨.ofTypePath space [name], plainAssembly assembly, true⟩ context .never

/-- The place of the second module is taken by the first, and is free again when it is too late. -/
def collidingOperations : List Operation := [
    askFor collidingContext "Foo" "A" "widget",
    askFor collidingContext "Bar" "A" "widget",
    .cleanUp ⟨"lib/Foo.dll", leftModule.mvid⟩,
    askFor collidingContext "Bar" "A" "Widget"]

/-- The workspace after that. -/
def collidingWorkspace : Workspace :=
  collidingProvider.after collidingDisk collidingOperations

/-- Some file has the path of no document of its project. -/
def Workspace.isMisplaced (workspace : Workspace) : Bool :=
  workspace.index.files.any fun file =>
    (workspace.project? file.key).any fun project =>
      project.documents.all fun document =>
        decide (file.path ≠ project.absolute document.path)

theorem Workspace.exists_misplaced
    {workspace : Workspace}
    (misplaced : workspace.isMisplaced = true) :
    ∃ file ∈ workspace.index.files,
      ∃ project, workspace.project? file.key = some project
        ∧ ∀ document ∈ project.documents, file.path ≠ project.absolute document.path := by
  obtain ⟨file, isFile, shown⟩ := List.any_eq_true.1 misplaced
  obtain ⟨project, isProject, all⟩ := Option.any_eq_true _ _ |>.1 shown
  refine ⟨file, isFile, project, isProject, fun document isDocument => ?_⟩
  exact of_decide_eq_true (List.all_eq_true.1 all document isDocument)

/-- The file of the second type has the path of no document of its project. -/
theorem misplaced_collidingWorkspace :
    ∃ file ∈ collidingWorkspace.index.files,
      ∃ project, collidingWorkspace.project? file.key = some project
        ∧ ∀ document ∈ project.documents, file.path ≠ project.absolute document.path :=
  collidingWorkspace.exists_misplaced (by decide +kernel)

end Navigation
end AssemblyAtlas
