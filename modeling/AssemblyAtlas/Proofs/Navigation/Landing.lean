import AssemblyAtlas.Proofs.Assembly.Lookup
import AssemblyAtlas.Proofs.Navigation.Origin

/-!
# Where navigation lands

Before a request it is decided whether it leads to a file with the type around its symbol. A project
looks for the document at which the type is expected, and, for want of that, for any document with
the same file name; so it may show the file of another type. A new file declares what its types
declare, unless it comes to a place that is taken, for files are told apart by their paths in lower
case.

* `Provider.Promises` has the three ways to reach the type, and `Provider.lands_iff` says that there
  are no others;
* `Provider.Promises.grown_of_free` and `Provider.Promises.created_of_free` are about types without
  bodies, which are reached if their places are free;
* `twinSample` has two types with the same file name, of which the second is not reached.
-/

namespace AssemblyAtlas
namespace Navigation

open Assembly
open Reference
open Sources
open Syntax
open Text

namespace Provider

variable (provider : Provider)

/-- The file is made of types that declare the key. -/
def Tells (file : GeneratedFile) (key : SymbolKey) : Prop :=
  ∃ origin : Origin,
    origin.Wrote provider.options.settings file
      ∧ origin.Declares provider.options.settings file.signaturesOnly key

/-- What stands at a path declares the key, if a file that is made of the types comes to it and does
not take the place of another. -/
def Leads
    (index : FileIndex)
    (path : String)
    (origin : Origin)
    (signaturesOnly : Bool)
    (key : SymbolKey) :
    Prop :=
  match index.find? path with
  | some file => provider.Tells file key
  | none => origin.Declares provider.options.settings signaturesOnly key

/-- The first source file that comes to the place of a document. -/
def firstAt? (project : Project) (files : List SourceFile) (path : String) : Option SourceFile :=
  files.find? fun file =>
    GeneratedFile.indexKey (project.absolute file.path)
      == GeneratedFile.indexKey (project.absolute path)

/-- What a workspace promises of a request: the type will be in the file that it leads to. -/
inductive Promises
    (workspace : Workspace)
    (target : Target)
    (topLevel : SymbolKey)
    (cancellation : Cancellation) :
    Prop
  /-- The project shows a file with the type. -/
  | known
      {project : Project}
      {path : String}
      {file : GeneratedFile}
      (present : workspace.project? target.key = some project)
      (shown : project.primary? (provider.expectedPath topLevel) = some path)
      (registered : workspace.index.find? (project.absolute path) = some file)
      (tells : provider.Tells file topLevel)
  /-- The project shows no file, and there will be one with the type where it is expected. -/
  | grown
      {project : Project}
      {token : Token}
      (present : workspace.project? target.key = some project)
      (lacking : ∀ path, project.primary? (provider.expectedPath topLevel) = some path →
        workspace.index.find? (project.absolute path) = none)
      (resolved : target.module.resolve? topLevel = some token)
      (leads : provider.Leads workspace.index (project.absolute (provider.expectedPath topLevel))
        ⟨⟨target.module, []⟩, [token]⟩ true topLevel)
  /-- There is no project, and the one that will be made shows a file with the type. -/
  | created
      {sources : Option SourceSet}
      {files : List SourceFile}
      {project : Project}
      {path : String}
      {source : SourceFile}
      (absent : workspace.project? target.key = none)
      (supplied : sources = provider.sources? target cancellation)
      (made : provider.projectFiles (provider.emptyProject workspace target sources)
        target.module topLevel sources false = .ok files)
      (filled : project =
        (provider.emptyProject workspace target sources).addAll (files.map (·.path)))
      (shown : project.primary? (provider.expectedPath topLevel) = some path)
      (first : firstAt? project files path = some source)
      (leads : provider.Leads workspace.index (project.absolute path)
        ⟨provider.sourceSystem target cancellation, source.types⟩ sources.isNone topLevel)

variable {provider}

/-- A registered file tells what it declares. -/
theorem Sourced.tells_iff
    {index : FileIndex}
    (sourced : provider.Sourced index)
    {path : String}
    {file : GeneratedFile}
    (found : index.find? path = some file)
    (key : SymbolKey) :
    provider.Tells file key ↔ key ∈ file.symbols.keys := by
  constructor
  · rintro ⟨origin, wrote, declares⟩
    exact (Origin.mem_keys_iff wrote.symbols key).2 declares
  · intro isKey
    obtain ⟨origin, wrote⟩ := sourced file (FileIndex.mem_of_find? found)
    exact ⟨origin, wrote, (Origin.mem_keys_iff wrote.symbols key).1 isKey⟩

/-- A file that is registered leads to what it declares, unless its place is taken. -/
theorem Sourced.leads_iff
    {index : FileIndex}
    (sourced : provider.Sourced index)
    {path : String}
    {origin : Origin}
    {signaturesOnly : Bool}
    {file : GeneratedFile}
    (gives : origin.Gives provider.options.settings signaturesOnly file.symbols)
    (key : SymbolKey) :
    provider.Leads index path origin signaturesOnly key
      ↔
    ∃ found, (index.find? path).or (some file) = some found ∧ key ∈ found.symbols.keys := by
  rw [Leads]
  cases taken : index.find? path with
  | some other => simpa using sourced.tells_iff taken key
  | none => simpa using (Origin.mem_keys_iff gives key).symm

/-! ## What is promised in each case -/

section Cases

variable
  {workspace : Workspace}
  {target : Target}
  {topLevel : SymbolKey}
  {cancellation : Cancellation}

theorem promises_iff_of_known
    {project : Project}
    {path : String}
    {file : GeneratedFile}
    (present : workspace.project? target.key = some project)
    (shown : project.primary? (provider.expectedPath topLevel) = some path)
    (registered : workspace.index.find? (project.absolute path) = some file) :
    provider.Promises workspace target topLevel cancellation ↔ provider.Tells file topLevel := by
  constructor
  · intro promises
    cases promises with
    | known isProject isShown isRegistered tells =>
        obtain rfl := Option.some.inj (present.symm.trans isProject)
        obtain rfl := Option.some.inj (shown.symm.trans isShown)
        obtain rfl := Option.some.inj (registered.symm.trans isRegistered)
        exact tells
    | grown isProject lacking =>
        obtain rfl := Option.some.inj (present.symm.trans isProject)
        cases registered.symm.trans (lacking path shown)
    | created absent => cases present.symm.trans absent
  · exact .known present shown registered

theorem promises_iff_of_lacking
    {project : Project}
    {token : Token}
    (present : workspace.project? target.key = some project)
    (lacking : ∀ path, project.primary? (provider.expectedPath topLevel) = some path →
      workspace.index.find? (project.absolute path) = none)
    (resolved : target.module.resolve? topLevel = some token) :
    provider.Promises workspace target topLevel cancellation
      ↔
    provider.Leads workspace.index (project.absolute (provider.expectedPath topLevel))
      ⟨⟨target.module, []⟩, [token]⟩ true topLevel := by
  constructor
  · intro promises
    cases promises with
    | known isProject shown registered =>
        obtain rfl := Option.some.inj (present.symm.trans isProject)
        cases registered.symm.trans (lacking _ shown)
    | grown isProject _ isResolved leads =>
        obtain rfl := Option.some.inj (present.symm.trans isProject)
        obtain rfl := Option.some.inj (resolved.symm.trans isResolved)
        exact leads
    | created absent => cases present.symm.trans absent
  · exact .grown present lacking resolved

theorem promises_iff_of_absent
    {sources : Option SourceSet}
    {files : List SourceFile}
    {project : Project}
    {path : String}
    {source : SourceFile}
    (absent : workspace.project? target.key = none)
    (supplied : sources = provider.sources? target cancellation)
    (made : provider.projectFiles (provider.emptyProject workspace target sources)
      target.module topLevel sources false = .ok files)
    (filled : project =
      (provider.emptyProject workspace target sources).addAll (files.map (·.path)))
    (shown : project.primary? (provider.expectedPath topLevel) = some path)
    (first : firstAt? project files path = some source) :
    provider.Promises workspace target topLevel cancellation
      ↔
    provider.Leads workspace.index (project.absolute path)
      ⟨provider.sourceSystem target cancellation, source.types⟩ sources.isNone topLevel := by
  constructor
  · intro promises
    cases promises with
    | known present => cases present.symm.trans absent
    | grown present => cases present.symm.trans absent
    | created _ isSupplied isMade isFilled isShown isFirst leads =>
        obtain rfl := supplied.trans isSupplied.symm
        obtain rfl := Except.ok.inj (made.symm.trans isMade)
        obtain rfl := filled.trans isFilled.symm
        obtain rfl := Option.some.inj (shown.symm.trans isShown)
        obtain rfl := Option.some.inj (first.symm.trans isFirst)
        exact leads
  · exact .created absent supplied made filled shown first

/-! ## What comes of it -/

/-- Among the generated files of a project, that of its first source file at a place is the first
there. -/
theorem find?_records
    {project : Project}
    {files : List SourceFile}
    (listed : ∀ file ∈ files, (project.find? file.path).isSome)
    (key : AssemblyKey)
    (path : String) :
    ((files.filterMap (record? project key)).find? fun file =>
        GeneratedFile.indexKey file.path == GeneratedFile.indexKey (project.absolute path))
      = (firstAt? project files path).bind (record? project key) := by
  induction files with
  | nil => rfl
  | cons file rest ih =>
      obtain ⟨document, found⟩ := Option.isSome_iff_exists.1 (listed file List.mem_cons_self)
      have own : record? project key file = some (generated project key document file) := by
        rw [record?, found, Option.map_some]
      rw [List.filterMap_cons_some own, List.find?_cons, firstAt?, List.find?_cons, generated]
      cases GeneratedFile.indexKey (project.absolute file.path)
          == GeneratedFile.indexKey (project.absolute path) with
      | true => exact own.symm
      | false => exact ih fun other isOther => listed other (List.mem_cons_of_mem _ isOther)

/-- The file of a type is reached as it was promised. -/
theorem Outcome.promises_iff
    {after : Workspace}
    {file : GeneratedFile}
    (outcome : provider.Outcome workspace target topLevel cancellation (after, .ok file))
    (sourced : provider.Sourced workspace.index) :
    provider.Promises workspace target topLevel cancellation
      ↔
    ∃ found, after.index.find? file.path = some found ∧ topLevel ∈ found.symbols.keys := by
  cases outcome with
  | @known project path file present shown registered =>
      have isFound : workspace.index.find? file.path = some file :=
        (FileIndex.find?_eq_of_indexKey _ (FileIndex.indexKey_of_find? registered)).trans registered
      rw [promises_iff_of_known present shown registered, sourced.tells_iff registered, isFound]
      simp
  | @grown project stub document present lacking bare made found =>
      obtain ⟨path, token, resolved, -, gives⟩ := stub_eq_ok made
      have stands : (workspace.addFile (project.add stub.path)
          (generated (project.add stub.path) target.key document stub)).index.find?
            ((project.add stub.path).absolute stub.path)
          = (workspace.index.find? (project.absolute (provider.expectedPath topLevel))).or
              (some (generated (project.add stub.path) target.key document stub)) := by
        rw [Project.add_absolute, ← path]
        refine (workspace.index.find?_register _ _).trans ?_
        simp [generated]
      rw [promises_iff_of_lacking present lacking resolved]
      exact stands ▸ sourced.leads_iff gives topLevel
  | @created sources files project primary source document decompilations reports absent supplied
      made filled shown last found =>
      obtain ⟨isFile, isPrimary⟩ := List.mem_filter.1 (List.mem_of_getLast? last)
      have path : source.path = primary := by simpa using isPrimary
      have listed : ∀ file ∈ files, (project.find? file.path).isSome := by
        intro file isFile
        rw [filled]
        exact Project.isSome_find?_addAll _ (List.mem_map_of_mem (f := (·.path)) isFile)
      obtain ⟨first, isFirst⟩ : ∃ first, firstAt? project files primary = some first := by
        refine Option.isSome_iff_exists.1 (List.find?_isSome.2 ⟨source, isFile, ?_⟩)
        rw [path, beq_self_eq_true]
      have isMember : first ∈ files := List.mem_of_find?_eq_some isFirst
      obtain ⟨number, isNumber⟩ := Option.isSome_iff_exists.1 (listed first isMember)
      have stands : ((({ workspace with decompilations := decompilations, reports := reports }
          : Workspace).addProject project
            (files.filterMap (record? project target.key))).index.find?
              (project.absolute source.path))
          = (workspace.index.find? (project.absolute primary)).or
              (some (generated project target.key number first)) := by
        refine (workspace.index.find?_registerAll _ _).trans ?_
        rw [path, find?_records listed, isFirst, Option.bind_some, record?, isNumber,
          Option.map_some]
      rw [promises_iff_of_absent absent supplied made filled shown isFirst]
      subst supplied
      exact stands ▸ sourced.leads_iff (gives_of_projectFiles made isMember) topLevel

end Cases

/-- A request leads to a file that declares the type around its symbol if and only if this was
promised. -/
theorem lands_iff
    {workspace after : Workspace}
    {request : Request}
    {context : Context}
    {cancellation : Cancellation}
    {target : Target}
    {place : Destination}
    (reachable : provider.Reachable workspace)
    (targeted : provider.target workspace.disk request context = .ok (some target))
    (answered : provider.navigate workspace request context cancellation
      = (after, .ok (some place))) :
    (∃ file, after.index.find? place.path = some file ∧ request.topLevel ∈ file.symbols.keys)
      ↔
    provider.Promises workspace target request.topLevel cancellation := by
  rcases navigate_cases answered with ⟨-, nowhere⟩ | h
  · exact absurd rfl (nowhere place)
  · obtain ⟨found, middle, result, disk, isFound, outcome, rfl, leads⟩ := h
    obtain rfl : target = found := by simpa using targeted.symm.trans isFound
    obtain ⟨file, rfl, rfl⟩ := leads place rfl
    exact (outcome.promises_iff reachable.sourced).symm

/-! ## Types without bodies -/

section Stubs

variable
  {workspace : Workspace}
  {target : Target}
  {cancellation : Cancellation}
  {space name : String}
  {stub : SourceFile}

/-- A stub leads to its type if it comes to a free place. -/
theorem leads_of_stub
    {index : FileIndex}
    {path : String}
    {cancelled : Bool}
    (plain : '+' ∉ name.toList)
    (made : provider.stub target.module (.ofTypePath space [name]) cancelled = .ok stub)
    (free : index.find? path = none) :
    provider.Leads index path ⟨⟨target.module, []⟩, stub.types⟩ true
      (.ofTypePath space [name]) := by
  obtain ⟨-, token, resolved, types, gives⟩ := stub_eq_ok made
  rw [Leads, free, types]
  exact Origin.declares_own gives (List.mem_singleton.2 rfl)
    (Module.typeKey?_of_resolve? plain resolved)

/-- A project that lacks a type gets it. -/
theorem Promises.grown_of_free
    {project : Project}
    (present : workspace.project? target.key = some project)
    (lacking : ∀ path,
      project.primary? (provider.expectedPath (.ofTypePath space [name])) = some path →
        workspace.index.find? (project.absolute path) = none)
    (plain : '+' ∉ name.toList)
    (made : provider.stub target.module (.ofTypePath space [name]) cancellation.early = .ok stub)
    (free : workspace.index.find?
      (project.absolute (provider.expectedPath (.ofTypePath space [name]))) = none) :
    provider.Promises workspace target (.ofTypePath space [name]) cancellation := by
  obtain ⟨-, token, resolved, types, -⟩ := stub_eq_ok made
  refine .grown present lacking resolved ?_
  rw [← types]
  exact leads_of_stub plain made free

/-- A new project without bodies has the type for which it is made. -/
theorem Promises.created_of_free
    (absent : workspace.project? target.key = none)
    (bare : provider.sources? target cancellation = none)
    (plain : '+' ∉ name.toList)
    (made : provider.stub target.module (.ofTypePath space [name]) false = .ok stub)
    (free : workspace.index.find?
      ((provider.emptyProject workspace target none).absolute
        (provider.expectedPath (.ofTypePath space [name]))) = none) :
    provider.Promises workspace target (.ofTypePath space [name]) cancellation := by
  obtain ⟨path, -⟩ := stub_eq_ok made
  let empty := provider.emptyProject workspace target none
  let info := plainFile assemblyInfoPath empty.assemblyInfo
  have files : provider.projectFiles empty target.module (.ofTypePath space [name]) none false
      = .ok [stub, info] := by
    rw [projectFiles, made]
    rfl
  have found : ((empty.addAll [stub.path, info.path]).find?
      (provider.expectedPath (.ofTypePath space [name]))).isSome :=
    path ▸ empty.isSome_find?_addAll List.mem_cons_self
  obtain ⟨primary, shown, near⟩ := Project.exists_primary? found
  have here : GeneratedFile.indexKey (empty.absolute primary)
      = GeneratedFile.indexKey (empty.absolute stub.path) :=
    lowercase_eq_of_sameIgnoringCase (sameIgnoringCase_join _ (path ▸ near))
  have first : firstAt? (empty.addAll [stub.path, info.path]) [stub, info] primary = some stub := by
    rw [firstAt?, List.find?_cons, Project.addAll_absolute, Project.addAll_absolute, here,
      beq_self_eq_true]
  refine .created absent bare.symm files rfl shown first ?_
  rw [sourceSystem, bare, Project.addAll_absolute]
  refine leads_of_stub plain made ?_
  rw [FileIndex.find?_eq_of_indexKey _ here, path]
  exact free

end Stubs

end Provider

/-! ## Two types with one file name -/

/-- A module with two types that differ in their namespaces only. -/
def twinSample : Module :=
  .ofTypes [
    .bare (.ofRow .typeDefinition 2) "A" "Widget",
    .bare (.ofRow .typeDefinition 3) "B" "Widget"]

/-- A provider that finds the module in every image. -/
def twinProvider : Provider :=
  ⟨"out", .default, fun _ => .ok twinSample, .indenting, Markup.Library.documented_indenting⟩

/-- The assembly file of the module. -/
def twinDisk : Disk :=
  { Disk.empty with
    entries := [(["lib"], .directory), (["lib", "Foo.dll"], .file "foo" false)] }

/-- A program that refers to the assembly file. -/
def twinContext : Context :=
  ⟨.ofList [(⟨.ofName "Foo" .unspecified, false⟩, some (.ofFile "lib/Foo.dll"))], .csharp⟩

/-- The wish to see the type in a namespace, without bodies. -/
def twinRequest (space : String) : Request :=
  ⟨.ofTypePath space ["Widget"], ⟨.ofName "Foo" .unspecified, false⟩, true⟩

/-- The workspace after the first type was wanted. -/
def twinWorkspace : Workspace :=
  (twinProvider.navigate (.new twinDisk) (twinRequest "A") twinContext .never).1

/-- The keys of the file that a request leads to. -/
def twinKeys? (workspace : Workspace) (request : Request) : Option (List SymbolKey) :=
  let answered := twinProvider.navigate workspace request twinContext .never
  answered.2.toOption.join.bind fun place =>
    (answered.1.index.find? place.path).map (·.symbols.keys)

/-- Both requests lead to a file with the first type only. -/
theorem twinKeys?_twinRequest :
    twinKeys? (.new twinDisk) (twinRequest "A") = some [.ofTypePath "A" ["Widget"]]
      ∧ twinKeys? twinWorkspace (twinRequest "B") = some [.ofTypePath "A" ["Widget"]] := by
  -- One comparison for both, so that the first request is answered only once.
  have both : [twinKeys? (.new twinDisk) (twinRequest "A"),
      twinKeys? twinWorkspace (twinRequest "B")]
        = List.replicate 2 (some [.ofTypePath "A" ["Widget"]]) := by
    decide +kernel
  obtain ⟨first, rest⟩ := List.cons.inj both
  exact ⟨first, (List.cons.inj rest).1⟩

/-- Keys of a file show that the request was answered, and so that it has a target. -/
theorem exists_place_of_twinKeys?
    {workspace : Workspace}
    {request : Request}
    {keys : List SymbolKey}
    (known : twinKeys? workspace request = some keys) :
    ∃ target after place file,
      twinProvider.target workspace.disk request twinContext = .ok (some target)
        ∧ target.module = twinSample
        ∧ twinProvider.navigate workspace request twinContext .never = (after, .ok (some place))
        ∧ after.index.find? place.path = some file
        ∧ file.symbols.keys = keys := by
  obtain ⟨place, joined, known⟩ := Option.bind_eq_some_iff.1 known
  obtain ⟨file, found, own⟩ := Option.map_eq_some_iff.1 known
  have answered := Option.join_eq_some_iff.1 joined
  cases navigated : twinProvider.navigate workspace request twinContext .never with
  | mk after answer =>
      rw [navigated] at answered found
      cases answer with
      | error failure => cases answered
      | ok answer =>
          obtain rfl : answer = some place := Option.some.inj answered
          rcases Provider.navigate_cases navigated with ⟨-, nowhere⟩ | h
          · exact absurd rfl (nowhere place)
          · obtain ⟨target, -, -, -, targeted, -⟩ := h
            obtain ⟨-, image, isRead⟩ := Provider.read_of_target targeted
            exact ⟨target, after, place, file, targeted, (Except.ok.inj isRead).symm, rfl, found,
              own⟩

/-- The first type is promised. -/
theorem promises_twinSample :
    ∃ target,
      twinProvider.target twinDisk (twinRequest "A") twinContext = .ok (some target)
        ∧ twinProvider.Promises (.new twinDisk) target (twinRequest "A").topLevel .never := by
  obtain ⟨target, after, place, file, targeted, -, answered, atPlace, own⟩ :=
    exists_place_of_twinKeys? twinKeys?_twinRequest.1
  refine ⟨target, targeted, ?_⟩
  exact (Provider.lands_iff (.new twinDisk) targeted answered).1
    ⟨file, atPlace, own ▸ List.mem_singleton.2 rfl⟩

/-- The second type is in the module, and the request for it leads to the file of the first. -/
theorem misses_twinSample :
    twinProvider.Reachable twinWorkspace
      ∧ ∃ target after place file,
          twinProvider.target twinWorkspace.disk (twinRequest "B") twinContext = .ok (some target)
            ∧ (target.module.resolve? (twinRequest "B").topLevel).isSome = true
            ∧ twinProvider.navigate twinWorkspace (twinRequest "B") twinContext .never
                = (after, .ok (some place))
            ∧ after.index.find? place.path = some file
            ∧ (twinRequest "B").topLevel ∉ file.symbols.keys := by
  obtain ⟨target, after, place, file, targeted, module, answered, atPlace, own⟩ :=
    exists_place_of_twinKeys? twinKeys?_twinRequest.2
  refine ⟨.navigate _ _ _ (.new twinDisk), target, after, place, file, targeted, ?_, answered,
    atPlace, ?_⟩
  · rw [module]
    decide +kernel
  · rw [own]
    decide

end Navigation
end AssemblyAtlas
