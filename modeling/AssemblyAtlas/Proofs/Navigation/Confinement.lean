import AssemblyAtlas.Proofs.Navigation.Bookkeeping

/-!
# Where generated files may stand

Whatever the types and namespaces of an assembly are called, its files stand below the directory of
its project. This directory is named when the project is made, by the key as it was spelled then;
another spelling of the same path gives another name.

* `Belongs.below` and `Belongs.below_own_iff` are about a file of a project;
* `Provider.confined_after` is about all names and all files;
* `spelledWorkspace` has a file that is not below the directory that its own key names.
-/

namespace AssemblyAtlas
namespace Navigation

open Assembly
open Declaration
open FileName
open Sources

variable {root : String} {project : Project} {file : GeneratedFile}

/-- A file stands below the directory of its project. -/
theorem Belongs.below
    (belongs : Belongs project file)
    (housed : project.directory = Path.join root project.key.directoryName) :
    Below file.path (Path.join root project.key.directoryName) := by
  obtain ⟨-, -, path, safe, -, -, place⟩ := belongs.document
  rw [place, Project.absolute, housed]
  exact safe.below_join _

/-- It stands below the directory that its own key names only if the two have the same name. -/
theorem Belongs.below_own_iff
    (belongs : Belongs project file)
    (housed : project.directory = Path.join root project.key.directoryName) :
    Below file.path (Path.join root file.key.directoryName)
      ↔ file.key.directoryName = project.key.directoryName := by
  constructor
  · intro below
    exact SafeSegment.eq_of_below file.key.safeSegment_directoryName
      project.key.safeSegment_directoryName file.key.directoryName_ne_empty
      project.key.directoryName_ne_empty below (belongs.below housed)
  · intro same
    rw [same]
    exact belongs.below housed

namespace Provider

/-- Generated names lead down, and each file stands below the directory of its project, whose name
is sixteen hexadecimal digits. It stands below the directory that its own key names if and only if
this is the same name. -/
theorem confined_after
    (provider : Provider)
    (settings : Settings)
    (space name text : String)
    (disk : Disk)
    (operations : List Operation) :
    (SafePath (relativePath settings space name)
        ∧ ∃ stem, stem ≠ "" ∧ Path.lastSegment (relativePath settings space name) = stem ++ ".cs")
      ∧ (SafePath (withExtension text ".csproj") ∧ SafeSegment (withExtension text ".csproj")
        ∧ ∃ stem, stem ≠ "" ∧ withExtension text ".csproj" = stem ++ ".csproj")
      ∧ ∀ file ∈ (provider.after disk operations).index.files,
          file.key.directoryName.toList.length = 16
            ∧ (∀ c ∈ file.key.directoryName.toList, c ∈ hexDigits)
            ∧ ∃ project, (provider.after disk operations).project? file.key = some project
                ∧ Below file.path (Path.join provider.root project.key.directoryName)
                ∧ (Below file.path (Path.join provider.root file.key.directoryName)
                    ↔ file.key.directoryName = project.key.directoryName) := by
  have consistent := provider.consistent_after disk operations
  refine ⟨safePath_relativePath settings space name, ⟨safePath_projectFile text, ?_⟩, ?_⟩
  · exact safeSegment_withExtension text isExtension_projectFile
  · intro file isFile
    obtain ⟨project, isProject, belongs⟩ := consistent.filed file isFile
    have housed := consistent.housed project isProject
    exact ⟨file.key.length_directoryName, fun c => file.key.mem_directoryName, project,
      consistent.project?_eq_some_iff.2 ⟨isProject, belongs.key⟩, belongs.below housed,
      belongs.below_own_iff housed⟩

end Provider

/-! ## One file by two paths -/

/-- A module with two types. -/
def spelledModule : Module :=
  .ofTypes [
    .bare (.ofRow .typeDefinition 2) "A" "Widget",
    .bare (.ofRow .typeDefinition 3) "B" "Gadget"]

/-- A provider that finds the module in every image. -/
def spelledProvider : Provider :=
  ⟨"out", .default, fun _ => .ok spelledModule, .indenting, Markup.Library.documented_indenting⟩

/-- A program that refers to one file by two paths. -/
def spelledContext : Context :=
  ⟨.ofList [(plainAssembly "Foo", some (.ofFile "lib/Foo.dll")),
    (plainAssembly "Bar", some (.ofFile "lib/./Foo.dll"))], .csharp⟩

/-- The disk with this file. -/
def spelledDisk : Disk :=
  { Disk.empty with
    entries := [(["lib"], .directory), (["lib", "Foo.dll"], .file "foo" false)] }

/-- The workspace after a type was wanted by the one path, and another type by the other. -/
def spelledWorkspace : Workspace :=
  spelledProvider.after spelledDisk [
    askFor spelledContext "Foo" "A" "Widget",
    askFor spelledContext "Bar" "B" "Gadget"]

/-- Some file has a key that names another directory than that of its project. -/
def Workspace.isRenamed (workspace : Workspace) : Bool :=
  workspace.index.files.any fun file =>
    (workspace.project? file.key).any fun project =>
      decide (file.key.directoryName ≠ project.key.directoryName)

theorem Workspace.Consistent.exists_renamed
    {workspace : Workspace}
    (consistent : workspace.Consistent root)
    (renamed : workspace.isRenamed = true) :
    ∃ file ∈ workspace.index.files,
      ¬ Below file.path (Path.join root file.key.directoryName) := by
  obtain ⟨file, isFile, shown⟩ := List.any_eq_true.1 renamed
  obtain ⟨project, isProject, differs⟩ := Option.any_eq_true _ _ |>.1 shown
  obtain ⟨owner, isOwner, belongs⟩ := consistent.filed file isFile
  obtain rfl : owner = project := Option.some.inj <|
    (consistent.project?_eq_some_iff.2 ⟨isOwner, belongs.key⟩).symm.trans isProject
  refine ⟨file, isFile, fun below => of_decide_eq_true differs ?_⟩
  exact (belongs.below_own_iff (consistent.housed owner isOwner)).1 below

/-- The file of the second type is not below the directory that its key names. -/
theorem escapes_spelledWorkspace :
    ∃ file ∈ spelledWorkspace.index.files,
      ¬ Below file.path (Path.join "out" file.key.directoryName) :=
  (spelledProvider.consistent_after _ _).exists_renamed (by decide +kernel)

end Navigation
end AssemblyAtlas
