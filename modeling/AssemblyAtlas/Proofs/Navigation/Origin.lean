import AssemblyAtlas.Proofs.Declaration.DeclaredTypes
import AssemblyAtlas.Proofs.Navigation.Outcome
import AssemblyAtlas.Proofs.Sources.Written

/-!
# Where generated files come from

A provider may be asked for symbols, told to clean up, and told to write a file, in any order, and
meanwhile others may change the disk. Whatever happens, each registered file has the symbols of the
tree of some types, from the module that its key names.

* `Provider.Reachable` has the workspaces that a provider can come to;
* `Origin` has the types that a file is made of, and `Origin.mem_keys_iff` says what the file
  declares;
* `Provider.Reachable.sourced` is about all registered files.
-/

namespace AssemblyAtlas
namespace Navigation

open Assembly
open Declaration
open Reference
open Sources
open Syntax

/-! ## Types and symbols -/

/-- Types of a system that a file is made of. -/
structure Origin where
  system : TypeSystem
  types : List Token

namespace Origin

variable (origin : Origin) (settings : Settings)

/-- The symbols are those of the tree of the types, with or without bodies. -/
def Gives (signaturesOnly : Bool) (symbols : SymbolIndex) : Prop :=
  ∃ tree,
    (Decompiler.standard origin.system settings signaturesOnly).types false origin.types = .ok tree
      ∧ symbols = (tree.render settings.format).symbols

/-- One of the types declares the key, by itself or inside it. -/
def Declares (signaturesOnly : Bool) (key : SymbolKey) : Prop :=
  ∃ token ∈ origin.types, Decompiler.Declares origin.system settings signaturesOnly token key

/-- The file is made of the types, and its key names the module they are from. -/
structure Wrote (file : GeneratedFile) : Prop where
  mvid : origin.system.main.mvid = file.key.mvid
  symbols : origin.Gives settings file.signaturesOnly file.symbols

variable {origin settings}

/-- A file declares what the types declare that it is made of. -/
theorem mem_keys_iff
    {signaturesOnly : Bool}
    {symbols : SymbolIndex}
    (gives : origin.Gives settings signaturesOnly symbols)
    (key : SymbolKey) :
    key ∈ symbols.keys ↔ origin.Declares settings signaturesOnly key := by
  obtain ⟨tree, built, rfl⟩ := gives
  rw [SourceUnit.mem_keys_render_iff]
  exact Decompiler.declares_of_types_iff origin.system settings signaturesOnly built key

/-- A file that is made of a type declares the type. -/
theorem declares_own
    {signaturesOnly : Bool}
    {symbols : SymbolIndex}
    (gives : origin.Gives settings signaturesOnly symbols)
    {token : Token}
    (isType : token ∈ origin.types)
    {key : SymbolKey}
    (known : origin.system.main.typeKey? token = some key) :
    origin.Declares settings signaturesOnly key := by
  obtain ⟨tree, built, -⟩ := gives
  obtain ⟨own, isOwn, declares⟩ :=
    Decompiler.declares_own_types origin.system settings signaturesOnly built isType
  obtain rfl : own = key := Option.some.inj (isOwn.symm.trans known)
  exact
    (Decompiler.declares_of_types_iff origin.system settings signaturesOnly built own).1 declares

/-- No types give no symbols. -/
theorem gives_empty
    (system : TypeSystem)
    (settings : Settings)
    (signaturesOnly : Bool) :
    Origin.Gives ⟨system, []⟩ settings signaturesOnly .empty :=
  ⟨⟨[], []⟩, rfl, (SourceUnit.symbols_render_of_members rfl _).symm⟩

end Origin

namespace Provider

variable {provider : Provider}

/-! ## Files of a project -/

/-- A stub is made of the type that the key names, and has the path at which it is expected. -/
theorem stub_eq_ok
    {module : Module}
    {topLevel : SymbolKey}
    {cancelled : Bool}
    {file : SourceFile}
    (made : provider.stub module topLevel cancelled = .ok file) :
    file.path = provider.expectedPath topLevel
      ∧ ∃ token,
          module.resolve? topLevel = some token
            ∧ file.types = [token]
            ∧ Origin.Gives ⟨⟨module, []⟩, [token]⟩ provider.options.settings true file.symbols := by
  rw [stub] at made
  split at made
  · cases made
  · next token resolved =>
      obtain ⟨tree, built, h⟩ := Success.bind_eq_ok_iff.1 made
      cases h
      exact ⟨rfl, token, resolved, rfl, tree, Decompiler.types_of_cancelled built, rfl⟩

theorem run_of_sources?
    {target : Target}
    {cancellation : Cancellation}
    {sources : SourceSet}
    (supplied : provider.sources? target cancellation = some sources) :
    ∃ run,
      (provider.job target cancellation).run cancellation.early = .ok run
        ∧ sources = run.sources := by
  rw [sources?] at supplied
  split at supplied
  · rw [decompile] at supplied
    dsimp only at supplied
    split at supplied
    · next run completed => exact ⟨run, completed, (Option.some.inj supplied).symm⟩
    · cases supplied
  · cases supplied

/-- What the sources of a new project are made from. A single type does without references. -/
def sourceSystem (target : Target) (cancellation : Cancellation) : TypeSystem :=
  match provider.sources? target cancellation with
  | some _ => (provider.job target cancellation).system
  | none => ⟨target.module, []⟩

theorem sourceSystem_main (target : Target) (cancellation : Cancellation) :
    (provider.sourceSystem target cancellation).main = target.module := by
  rw [sourceSystem]
  split <;> rfl

/-- The files of a new project are made of their types. -/
theorem gives_of_projectFiles
    {project : Project}
    {target : Target}
    {topLevel : SymbolKey}
    {cancellation : Cancellation}
    {files : List SourceFile}
    (made : provider.projectFiles project target.module topLevel
      (provider.sources? target cancellation) false = .ok files)
    {file : SourceFile}
    (isFile : file ∈ files) :
    Origin.Gives ⟨provider.sourceSystem target cancellation, file.types⟩
      provider.options.settings (provider.sources? target cancellation).isNone file.symbols := by
  rw [sourceSystem]
  cases supplied : provider.sources? target cancellation with
  | some sources =>
      rw [supplied, projectFiles_some] at made
      obtain rfl : _ = files := Except.ok.inj made
      rcases List.mem_append.1 isFile with source | extra
      · obtain ⟨run, completed, rfl⟩ := run_of_sources? supplied
        exact Job.tree_of_mem_sources completed source
      · rw [extraFiles] at extra
        split at extra
        · rw [List.mem_singleton.1 extra]
          exact Origin.gives_empty _ _ _
        · exact absurd extra List.not_mem_nil
  | none =>
      rw [supplied] at made
      obtain ⟨stub, isStub, h⟩ := Success.bind_eq_ok_iff.1 made
      cases h
      rcases List.mem_cons.1 isFile with rfl | second
      · obtain ⟨-, token, -, types, gives⟩ := stub_eq_ok isStub
        rw [types]
        exact gives
      · rw [List.mem_singleton.1 second]
        exact Origin.gives_empty _ _ _

/-- The module of a target was read, and the key has its identifier. -/
theorem read_of_target
    {disk : Disk}
    {request : Request}
    {context : Context}
    {target : Target}
    (targeted : provider.target disk request context = .ok (some target)) :
    target.key.mvid = target.module.mvid
      ∧ ∃ image, provider.read image = .ok target.module := by
  obtain ⟨found, -, targeted⟩ := Success.bind_eq_ok_iff.1 targeted
  split at targeted
  · cases targeted
  · split at targeted
    · cases targeted
    · dsimp only at targeted
      split at targeted
      · cases targeted
      · next image loaded =>
          obtain ⟨module, isRead, targeted⟩ := Success.bind_eq_ok_iff.1 targeted
          cases targeted
          exact ⟨rfl, image, isRead⟩

/-! ## Reachable workspaces -/

/-- The workspaces that a provider comes to. -/
inductive Reachable (provider : Provider) : Workspace → Prop
  | new (disk : Disk) :
      Reachable provider (.new disk)
  | navigate
      {workspace : Workspace}
      (request : Request)
      (context : Context)
      (cancellation : Cancellation)
      (before : Reachable provider workspace) :
      Reachable provider (provider.navigate workspace request context cancellation).1
  | cleanUp
      {workspace : Workspace}
      (key : AssemblyKey)
      (before : Reachable provider workspace) :
      Reachable provider (workspace.cleanUp key).1
  | cleanUpAll
      {workspace : Workspace}
      (before : Reachable provider workspace) :
      Reachable provider workspace.cleanUpAll
  | ensure
      {workspace : Workspace}
      (path : String)
      (before : Reachable provider workspace) :
      Reachable provider (workspace.ensure path provider.options.mayWait).1
  /-- Somebody else changes the disk. -/
  | elsewhere
      {workspace : Workspace}
      (disk : Disk)
      (before : Reachable provider workspace) :
      Reachable provider { workspace with disk := disk }

/-- Each registered file is made of types. -/
def Sourced (provider : Provider) (index : FileIndex) : Prop :=
  ∀ file ∈ index.files, ∃ origin : Origin, origin.Wrote provider.options.settings file

/-- What comes of a request keeps registered files made of types. -/
theorem Outcome.sourced
    {workspace after : Workspace}
    {target : Target}
    {topLevel : SymbolKey}
    {cancellation : Cancellation}
    {result : Except Failure GeneratedFile}
    (outcome : provider.Outcome workspace target topLevel cancellation (after, result))
    (mvid : target.key.mvid = target.module.mvid)
    (sourced : provider.Sourced workspace.index) :
    provider.Sourced after.index := by
  cases outcome with
  | refused => exact sourced
  | known => exact sourced
  | @grown project stub document present lacking bare made found =>
      intro file isFile
      rcases FileIndex.of_mem_register isFile with old | rfl
      · exact sourced file old
      · obtain ⟨-, token, -, -, gives⟩ := stub_eq_ok made
        refine ⟨⟨⟨target.module, []⟩, [token]⟩, mvid.symm, ?_⟩
        rw [generated, Project.add_signaturesOnly, bare]
        exact gives
  | @created sources files project primary source document decompilations reports absent supplied
      made filled shown last found =>
      intro file isFile
      rcases FileIndex.of_mem_registerAll isFile with old | new
      · exact sourced file old
      · obtain ⟨source, isSource, recorded⟩ := List.mem_filterMap.1 new
        obtain ⟨own, -, rfl⟩ := Option.map_eq_some_iff.1 recorded
        have bare : project.signaturesOnly = sources.isNone := by
          rw [filled]
          exact Project.addAll_signaturesOnly _ _
        subst supplied
        refine ⟨⟨provider.sourceSystem target cancellation, source.types⟩, ?_, ?_⟩
        · rw [sourceSystem_main]
          exact mvid.symm
        · rw [generated, bare]
          exact gives_of_projectFiles made isSource

/-- In a workspace that a provider comes to, each registered file is made of types. -/
theorem Reachable.sourced
    {workspace : Workspace}
    (reachable : provider.Reachable workspace) :
    provider.Sourced workspace.index := by
  induction reachable with
  | new disk =>
      intro file isFile
      exact absurd isFile List.not_mem_nil
  | @navigate workspace request context cancellation before sourced =>
      cases navigated : provider.navigate workspace request context cancellation with
      | mk after answer =>
          rcases navigate_cases navigated with ⟨rfl, -⟩ | h
          · exact sourced
          · obtain ⟨target, middle, result, disk, targeted, outcome, rfl, -⟩ := h
            exact outcome.sourced (read_of_target targeted).1 sourced
  | @cleanUp workspace key before sourced =>
      rw [Workspace.cleanUp]
      split
      · intro file isFile
        exact sourced file (FileIndex.mem_removeProject_iff.1 isFile).1
      · exact sourced
  | cleanUpAll before sourced =>
      intro file isFile
      exact absurd isFile List.not_mem_nil
  | ensure path before sourced => exact sourced
  | elsewhere disk before sourced => exact sourced

end Provider

end Navigation
end AssemblyAtlas
