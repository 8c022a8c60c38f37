import AssemblyAtlas.Assembly.Identity
import AssemblyAtlas.FileName
import AssemblyAtlas.Navigation.Key
import AssemblyAtlas.Text.CharClass

/-!
# Projects

A project has the generated sources of one assembly. Each is a document with a path in the
project's directory.

* `Project.add` adds a document, unless there is one whose path differs in case only;
* `Project.find?` and `Project.primary?` find documents by their paths.
-/

namespace AssemblyAtlas
namespace Navigation

open Assembly
open Text

/-- The number of a project. The program counts projects with 32 bits, and here none is the last. -/
structure ProjectId where
  number : Nat
deriving DecidableEq

/-- The text of a project's number. -/
def ProjectId.display (id : ProjectId) : String :=
  "Project#" ++ String.ofList (decimal id.number)

/-- The number of a document in its project, which the program counts with 32 bits too. -/
structure DocumentId where
  project : ProjectId
  index : Nat
deriving DecidableEq

/-- The text of a document's number. -/
def DocumentId.display (id : DocumentId) : String :=
  id.project.display ++ "/Document#" ++ String.ofList (decimal id.index)

/-- A document, by its path in the project and its number. -/
structure Document where
  path : String
  index : Nat
deriving DecidableEq

/-- The generated sources of an assembly. -/
structure Project where
  id : ProjectId
  key : AssemblyKey
  identity : Identity
  directory : String
  /-- The sources have no bodies. -/
  signaturesOnly : Bool
  /-- In the order of their paths. -/
  documents : List Document
  /-- The number of the next document; the program has 32 bits for it. -/
  nextDocument : Nat

namespace Project

/-- A project without documents. -/
def new
    (id : ProjectId)
    (key : AssemblyKey)
    (identity : Identity)
    (directory : String)
    (signaturesOnly : Bool) :
    Project :=
  ⟨id, key, identity, directory, signaturesOnly, [], 0⟩

variable (project : Project)

/-- Where a document of the project is found on the disk. -/
def absolute (path : String) : String :=
  Path.join project.directory path

/-- The document with a path; if there is none, the first whose path differs in the case of ASCII
letters only. -/
def find? (path : String) : Option DocumentId :=
  let found :=
    (project.documents.find? (·.path == path)).or
      (project.documents.find? fun document => sameIgnoringCase document.path path)
  found.map fun document => ⟨project.id, document.index⟩

/-- Puts a document before the first with a greater path. -/
def place (document : Document) : List Document → List Document
  | [] => [document]
  | other :: rest =>
      if document.path < other.path then
        document :: other :: rest
      else
        other :: place document rest

/-- Adds a document, unless its path is taken. -/
def add (path : String) : Project :=
  if (project.find? path).isSome then
    project
  else
    { project with
      documents := place ⟨path, project.nextDocument⟩ project.documents
      nextDocument := project.nextDocument + 1 }

/-- Adds documents one after the other. -/
def addAll (paths : List String) : Project :=
  paths.foldl add project

/-- The path of the document where a type is expected. If there is none, the layout of directories
may differ, and the first document with the expected file name counts. Case is ignored. -/
def primary? (expected : String) : Option String :=
  let named (path : String) := sameIgnoringCase (Path.lastSegment path) (Path.lastSegment expected)
  let found :=
    (project.documents.find? fun document => sameIgnoringCase document.path expected).or
      (project.documents.find? fun document => named document.path)
  found.map (·.path)

/-- The text of the file with the attributes of the assembly, of which only the version is known. -/
def assemblyInfo : String :=
  "[assembly: System.Reflection.AssemblyVersion(\"" ++ project.identity.version.display ++ "\")]"

/-- The path of the project file. -/
def projectFilePath : String :=
  FileName.withExtension project.identity.name ".csproj"

end Project

end Navigation
end AssemblyAtlas
