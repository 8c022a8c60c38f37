import AssemblyAtlas.Navigation.Implementation
import AssemblyAtlas.Navigation.Options
import AssemblyAtlas.Navigation.ProjectFile
import AssemblyAtlas.Navigation.Workspace

/-!
# Navigation into assemblies

A provider leads from a symbol of an assembly to a generated file that declares it. The sources of
an assembly are generated when they are wanted first; without bodies, one type at a time.

* `Provider.target` finds the assembly file with the symbol;
* `Provider.cachedFile` takes a file of a project that is there, and `Provider.createProject` makes
  a project;
* `Provider.navigate` answers a request.
-/

namespace AssemblyAtlas
namespace Navigation

open Assembly
open Declaration
open Reference
open Sources
open Syntax
open Text

/-- The wish to see where a symbol is declared. -/
structure Request where
  symbol : SymbolKey
  /-- The assembly with the symbol. -/
  assembly : ReferencedAssembly
  signaturesOnly : Bool

/-- The symbol of the type around all others. -/
def Request.topLevel (request : Request) : SymbolKey :=
  request.symbol.topLevelType

/-- The program from which a request comes. -/
structure Context where
  compilation : Compilation
  language : Language

/-- How a request may be cancelled: before it starts, or while it is told what is written. -/
structure Cancellation where
  early : Bool
  cancelsAt : Report → Bool

/-- Nobody cancels. -/
def Cancellation.never : Cancellation :=
  ⟨false, fun _ => false⟩

/-- A place in a generated file. -/
structure Destination where
  path : String
  location : Location
  /-- The caption of the file. -/
  name : String
  /-- The full name of the type in the file. -/
  tooltip : String
deriving DecidableEq

/-- The assembly file that a request leads to. -/
structure Target where
  key : AssemblyKey
  module : Module
  resolver : Resolver
  /-- Bodies may be shown. -/
  decompilation : Bool

/-- What came of writing a whole assembly. -/
structure Decompilation where
  sources : Option SourceSet
  reports : List Report
  cancelled : Bool

/-- Leads from symbols to generated files. -/
structure Provider where
  /-- The directory of all projects. -/
  root : String
  options : Options
  read : ModuleReader
  /-- The library with which project files are written. -/
  markup : Markup.Library
  documented : markup.Documented

namespace Provider

variable (provider : Provider)

/-! ## The assembly of a symbol -/

/-- The reference to the assembly with the bodies, and whether there are none. -/
def reference
    (disk : Disk)
    (request : Request)
    (context : Context) :
    Except Failure (Option (MetadataReference × Bool)) :=
  match context.compilation.reference? request.assembly with
  | none => .ok none
  | some reference =>
      let implementation :=
        if request.assembly.isReferenceAssembly then
          reference.filePath.bind (Implementation.find? disk)
        else
          none
      match implementation with
      | none => .ok (some (reference, request.assembly.isReferenceAssembly))
      | some path =>
          match Implementation.follow? provider.read disk request.symbol path with
          | some location => .ok (some (.ofFile location, false))
          | none =>
              .error (.fatal ("Failed to follow type forwards for symbol '"
                ++ request.symbol.display ++ "', assembly '" ++ request.assembly.identity.name
                ++ "' at location '" ++ path ++ "'"))

/-- The request and the options allow bodies. -/
def allowsDecompilation (request : Request) (context : Context) : Bool :=
  !request.signaturesOnly && provider.options.decompilation && context.language == .csharp

/-- The assembly file with the symbol, if the program refers to it and it can be loaded. -/
def target
    (disk : Disk)
    (request : Request)
    (context : Context) :
    Except Failure (Option Target) := do
  match ← provider.reference disk request context with
  | none => return none
  | some (reference, isReference) =>
      match reference.filePath with
      | none =>
          .error (.fatal ("Metadata reference '" ++ reference.display ++ "' has no file path"))
      | some path =>
          let resolver : Resolver := ⟨context.compilation, disk⟩
          match (resolver.load reference .entireImage).value with
          | none => return none
          | some image =>
              let module ← provider.read image
              return some
                { key := ⟨path, module.mvid⟩
                  module := module
                  resolver := resolver
                  decompilation := provider.allowsDecompilation request context
                    && !isReference && !module.isReferenceAssembly }

/-! ## Sources -/

/-- The path at which the sources of a type are expected in its project. -/
def expectedPath (topLevel : SymbolKey) : String :=
  relativePath provider.options.settings topLevel.space (topLevel.typePath.headD "")

/-- The source file with one type, without bodies. -/
def stub (module : Module) (topLevel : SymbolKey) (cancelled : Bool) : Except Failure SourceFile :=
  match module.resolve? topLevel with
  | none =>
      .error (.fatal ("Type '" ++ topLevel.display ++ "' not found in '" ++ module.name ++ "'"))
  | some token => do
      let settings := provider.options.settings
      let decompiler := { Decompiler.new ⟨module, []⟩ settings with signaturesOnly := true }
      let unit ← decompiler.types cancelled [token]
      let rendered := unit.render settings.format
      return ⟨provider.expectedPath topLevel, rendered.text, rendered.symbols, [token]⟩

/-- Writes a whole assembly. A failure leaves no sources, but a cancelled run fails the request. One
worker writes the units in their order. The program lets the user choose how many workers there are,
and with several the last of two files at one path may be another one. -/
def decompile
    (target : Target)
    (cancellation : Cancellation) :
    Decompilation × Except Failure Unit :=
  let system := (target.resolver.typeSystem provider.read target.module).value
  let job :=
    { Job.new system provider.options.settings with cancelsAt := cancellation.cancelsAt }
  match job.run cancellation.early with
  | .ok run => (⟨some run.sources, run.reports, run.cancelled⟩, .ok ())
  | .error stop =>
      (⟨none, stop.run.reports, stop.run.cancelled⟩,
        if stop.failure.severity = .cancelled then .error .cancelled else .ok ())

/-- A file without declared symbols. -/
def plainFile (path text : String) : SourceFile :=
  ⟨path, text, .empty, []⟩

/-- The files of a new project: all sources of the assembly, with a project file if it is wanted; or
the wanted type without bodies, with the version of the assembly. -/
def projectFiles
    (project : Project)
    (module : Module)
    (topLevel : SymbolKey)
    (sources : Option SourceSet)
    (cancelled : Bool) :
    Except Failure (List SourceFile) :=
  match sources with
  | some sources =>
      if provider.options.projectFile then do
        let text ← projectFile provider.markup module.identity module.references
        return sources.files ++ [plainFile project.projectFilePath text]
      else
        .ok sources.files
  | none => do
      let stub ← provider.stub module topLevel cancelled
      return [stub, plainFile assemblyInfoPath project.assemblyInfo]

/-- The generated file of a document of a project, made for the assembly file with the key as it is
spelled there. -/
def generated
    (project : Project)
    (key : AssemblyKey)
    (document : DocumentId)
    (file : SourceFile) :
    GeneratedFile :=
  ⟨project.absolute file.path, key, document, project.signaturesOnly, file.text, file.symbols⟩

/-! ## Projects -/

/-- The file of a type in a project that is there. A project without bodies gets a further file if
it lacks the type. -/
def cachedFile
    (workspace : Workspace)
    (project : Project)
    (target : Target)
    (topLevel : SymbolKey)
    (cancelled : Bool) :
    Workspace × Except Failure GeneratedFile :=
  let expected := provider.expectedPath topLevel
  let known := (project.primary? expected).bind fun path =>
    workspace.index.find? (project.absolute path)
  match known with
  | some file => (workspace, .ok file)
  | none =>
      if project.signaturesOnly then
        match provider.stub target.module topLevel cancelled with
        | .error failure => (workspace, .error failure)
        | .ok stub =>
            let project := project.add stub.path
            match project.find? stub.path with
            | none =>
                (workspace, .error (.invariant ("No project for '" ++ target.key.display ++ "'")))
            | some document =>
                let file := generated project target.key document stub
                (workspace.addFile project file, .ok file)
      else
        (workspace, .error (.invariant ("The assembly '" ++ project.identity.name
          ++ "' has already been decompiled, but there is no document for '" ++ topLevel.display
          ++ "' at '" ++ project.absolute expected ++ "'")))

/-- Gives files to a new project, and gives the one of the wanted type. Once files are registered,
nothing cancels. -/
def fill
    (workspace : Workspace)
    (target : Target)
    (topLevel : SymbolKey)
    (empty : Project)
    (files : List SourceFile)
    (cancelled : Bool) :
    Workspace × Except Failure GeneratedFile :=
  let expected := provider.expectedPath topLevel
  let project := empty.addAll (files.map (·.path))
  match project.primary? expected with
  | none =>
      (workspace, .error (.invariant ("Decompilation did not produce a document for the "
        ++ "requested type '" ++ topLevel.display ++ "' at '" ++ expected ++ "'")))
  | some primary =>
      if cancelled then
        (workspace, .error .cancelled)
      else
        let record (file : SourceFile) : Option GeneratedFile :=
          (project.find? file.path).map fun document =>
            generated project target.key document file
        let wanted := (files.filter (·.path == primary)).getLast?.bind record
        (workspace.addProject project (files.filterMap record),
          match wanted with
          | some file => .ok file
          | none =>
              .error (.invariant ("Primary document '" ++ primary ++ "' was not registered")))

/-- Makes a project and gives the file of the wanted type. -/
def createProject
    (workspace : Workspace)
    (target : Target)
    (topLevel : SymbolKey)
    (sources : Option SourceSet)
    (cancelled : Bool) :
    Workspace × Except Failure GeneratedFile :=
  let empty :=
    Project.new ⟨workspace.lastProject + 1⟩ target.key target.module.identity
      (Path.join provider.root target.key.directoryName) sources.isNone
  match provider.projectFiles empty target.module topLevel sources cancelled with
  | .error failure => (workspace, .error failure)
  | .ok files => provider.fill workspace target topLevel empty files cancelled

/-- Makes a project for the assembly file, with bodies if they may be shown. -/
def firstFile
    (workspace : Workspace)
    (target : Target)
    (topLevel : SymbolKey)
    (cancellation : Cancellation) :
    Workspace × Except Failure GeneratedFile :=
  if target.decompilation then
    let (decompilation, result) := provider.decompile target cancellation
    let workspace :=
      { workspace with
        decompilations := workspace.decompilations + 1
        reports := workspace.reports ++ decompilation.reports }
    match result with
    | .error failure => (workspace, .error failure)
    | .ok () =>
        provider.createProject workspace target topLevel decompilation.sources
          decompilation.cancelled
  else
    provider.createProject workspace target topLevel none cancellation.early

/-- The file of a type of an assembly file. -/
def fileOf
    (workspace : Workspace)
    (target : Target)
    (topLevel : SymbolKey)
    (cancellation : Cancellation) :
    Workspace × Except Failure GeneratedFile :=
  match workspace.project? target.key with
  | some project => provider.cachedFile workspace project target topLevel cancellation.early
  | none => provider.firstFile workspace target topLevel cancellation

/-! ## Requests -/

/-- The place of a symbol in a generated file. -/
def destination (symbol : SymbolKey) (file : GeneratedFile) : Destination :=
  let topLevel := symbol.topLevelType
  let name := String.ofList ((topLevel.typePath.headD "").toList.takeWhile (· != '`'))
  let origin := if file.signaturesOnly then "from metadata" else "Decompiled"
  ⟨file.path, file.locationOf symbol, name ++ " [" ++ origin ++ "]", qualified topLevel.space name⟩

/-- Answers a request: the place of the symbol in a file that is on the disk now. There is none if
the program does not refer to the assembly or if it cannot be loaded. -/
def navigate
    (workspace : Workspace)
    (request : Request)
    (context : Context)
    (cancellation : Cancellation) :
    Workspace × Except Failure (Option Destination) :=
  match provider.target workspace.disk request context with
  | .error failure => (workspace, .error failure)
  | .ok none => (workspace, .ok none)
  | .ok (some target) =>
      match provider.fileOf workspace target request.topLevel cancellation with
      | (workspace, .error failure) => (workspace, .error failure)
      | (workspace, .ok file) =>
          let written := file.materialize workspace.disk provider.options.mayWait
          let workspace := { workspace with disk := written.1 }
          match written.2 with
          | .error failure => (workspace, .error failure)
          | .ok _ => (workspace, .ok (some (destination request.symbol file)))

end Provider

/-- The file with a path is collapsed when it is first opened. Unknown files are not. -/
def Workspace.collapses
    (workspace : Workspace)
    (path : String)
    (options : CollapseOptions) :
    Bool :=
  (workspace.index.find? path).any fun file => options.collapses file.signaturesOnly

end Navigation
end AssemblyAtlas
