import AssemblyAtlas.Declaration.TypeSystem
import AssemblyAtlas.Reference.Compilation
import AssemblyAtlas.Reference.Log

/-!
# Resolvers

A resolver finds the images of the assemblies that a compilation refers to.

* `Resolver.select` chooses among the assemblies with the requested name: the only one; else one
  with the requested version and key; else the one with the highest version;
* `Resolver.resolve` loads the chosen one, from memory if it is there, else from its file;
* `Resolver.resolveModule` loads a further module of an assembly from the assembly's directory;
* `Resolver.typeSystem` loads all assemblies that a module refers to.
-/

namespace AssemblyAtlas
namespace Reference

open Assembly
open Declaration
open Text

/-- Reads the module in an image. -/
abbrev ModuleReader :=
  Image → Except Failure Module

/-- What is known after some of several candidates. -/
structure Choice where
  /-- The last candidate with the requested version and key. -/
  exact : Option ReferencedAssembly
  /-- The first candidate with the highest version among the others. -/
  highest : Option ReferencedAssembly
  lines : List String

namespace Choice

/-- No candidate is known. -/
def start : Choice :=
  ⟨none, none, []⟩

/-- The version and the key are those requested. -/
def isExact (requested : Identity) (candidate : ReferencedAssembly) : Bool :=
  candidate.identity.version == requested.version
    && candidate.identity.keyToken == requested.keyToken

/-- The version of a candidate is higher than all before. -/
def isHigher (choice : Choice) (candidate : ReferencedAssembly) : Bool :=
  choice.highest.all fun highest => decide (highest.identity.version < candidate.identity.version)

/-- Takes a further candidate into account. -/
def consider
    (requested : Identity)
    (choice : Choice)
    (candidate : ReferencedAssembly) :
    Choice :=
  let display := candidate.identity.display
  if isExact requested candidate then
    { choice with
      exact := some candidate
      lines := choice.lines ++ [display, "Found exact match: '" ++ display ++ "'"] }
  else if choice.isHigher candidate then
    { choice with
      highest := some candidate
      lines := choice.lines ++ [display, "Found higher version match: '" ++ display ++ "'"] }
  else
    { choice with lines := choice.lines ++ [display] }

/-- The chosen candidate. -/
def chosen (choice : Choice) : Option ReferencedAssembly :=
  choice.exact.or choice.highest

end Choice

/-- Finds images for a compilation, on a disk. -/
structure Resolver where
  compilation : Compilation
  disk : Disk

namespace Resolver

variable (resolver : Resolver)

/-- The line that is written when a resolver is set up. -/
def greeting : String :=
  let names := (resolver.compilation.assemblies.map (·.identity.name)).eraseDups
  String.ofList (decimal names.length) ++ " items in cache"

/-- The assemblies with exactly the given name. -/
def candidates (name : String) : List ReferencedAssembly :=
  resolver.compilation.assemblies.filter (·.identity.name == name)

/-- The warning that the only candidate has another version. -/
def mismatch (requested found : Version) : List String :=
  if found = requested then
    []
  else
    [warning ("Version mismatch. Expected: '" ++ requested.display ++ "', Got: '" ++ found.display
      ++ "'")]

/-- Chooses an assembly for the requested identity. -/
def select (requested : Identity) : Traced (Option ReferencedAssembly) :=
  match resolver.candidates requested.name with
  | [] => ⟨none, ["Could not find by name: '" ++ requested.display ++ "'"]⟩
  | [single] =>
      ⟨some single, ("Found single assembly: '" ++ single.identity.display ++ "'") ::
        mismatch requested.version single.identity.version⟩
  | candidates =>
      let choice := candidates.foldl (Choice.consider requested) .start
      let header :=
        "Found " ++ String.ofList (decimal candidates.length) ++ " assemblies for '"
          ++ requested.name ++ "':"
      let footer :=
        choice.chosen.toList.map fun chosen => "Chosen version: '" ++ chosen.identity.display ++ "'"
      ⟨choice.chosen, header :: choice.lines ++ footer⟩

/-- The image in a file, of which only the metadata are needed at first. -/
def openFile (path : String) (prefetch : Prefetch) : Traced (Option Image) :=
  match Image.ofFile resolver.disk path prefetch with
  | .ok image => ⟨some image, []⟩
  | .error failure =>
      ⟨none, [warning ("Could not open '" ++ path ++ "': " ++ failure.message)]⟩

/-- The image behind a reference. -/
def load (reference : MetadataReference) (prefetch : Prefetch) : Traced (Option Image) :=
  .after ["Load from: '" ++ reference.display ++ "'"] <|
    match reference.image, reference.filePath with
    | some image, _ => ⟨some image, []⟩
    | none, none => ⟨none, []⟩
    | none, some path =>
        if resolver.disk.isFile path then
          resolver.openFile path prefetch
        else
          ⟨none, ["File does not exist: '" ++ path ++ "'"]⟩

/-- The image of the assembly that is chosen for the requested identity. -/
def resolve (requested : Identity) : Traced (Option Image) :=
  .after ["------------------", "Resolve: '" ++ requested.display ++ "'"] <|
    (resolver.select requested).andThen fun chosen =>
      match chosen with
      | none => ⟨none, []⟩
      | some assembly =>
          match resolver.compilation.reference? assembly with
          | some reference => resolver.load reference .metadata
          | none =>
              ⟨none, ["No metadata reference for '" ++ assembly.identity.display ++ "'"]⟩

/-- The image of a file beside that of an assembly. -/
def loadBeside (path name : String) : Traced (Option Image) :=
  match Path.parent? path with
  | none => ⟨none, []⟩
  | some directory =>
      let modulePath := Path.join directory name
      if resolver.disk.isFile modulePath then
        .after ["Load from: '" ++ modulePath ++ "'"] (resolver.openFile modulePath .metadata)
      else
        ⟨none, ["Module not found: '" ++ modulePath ++ "'"]⟩

/-- The image of a further module of the assembly in an image. -/
def resolveModule (main : Image) (name : String) : Traced (Option Image) :=
  .after ["-------------"] <|
    match main.path with
    | none => ⟨none, []⟩
    | some path =>
        .after ["Resolve module '" ++ name ++ "' of '" ++ path ++ "'"]
          (resolver.loadBeside path name)

/-- The modules behind references; those that cannot be found or read are left out. -/
def modules (read : ModuleReader) : List Identity → Traced (List Module)
  | [] => ⟨[], []⟩
  | requested :: rest =>
      (resolver.resolve requested).andThen fun image =>
        (modules read rest).andThen fun others =>
          match image.map read with
          | some (.ok module) => ⟨module :: others, []⟩
          | _ => ⟨others, []⟩

/-- A module with the modules it refers to. -/
def typeSystem (read : ModuleReader) (main : Module) : Traced TypeSystem :=
  (resolver.modules read main.references).andThen fun referenced => ⟨⟨main, referenced⟩, []⟩

end Resolver

end Reference
end AssemblyAtlas
