import AssemblyAtlas.Disk
import AssemblyAtlas.Navigation.Project
import AssemblyAtlas.Syntax.Page
import AssemblyAtlas.Text.Lowercase

/-!
# Generated files

A generated file is kept as a text until someone wants to see it. Only then is it written to the
disk, and a file that is there already is never written over.

* `GeneratedFile.locationOf` says where a symbol is declared in a file;
* `Writing` has the three steps by which a file is written, and `materialize` takes them in a row;
* `FileIndex` finds generated files by their paths, whatever the case.
-/

namespace AssemblyAtlas
namespace Navigation

open Assembly
open Syntax
open Text

/-- A generated file with the document it belongs to. -/
structure GeneratedFile where
  path : String
  key : AssemblyKey
  document : DocumentId
  signaturesOnly : Bool
  text : String
  symbols : SymbolIndex
deriving DecidableEq

namespace GeneratedFile

/-- The project that the file belongs to. -/
def project (file : GeneratedFile) : ProjectId :=
  file.document.project

/-- The text by which paths are compared. -/
def indexKey (path : String) : String :=
  lowercase path

/-- Where to look for a symbol: at its declaration; else at that of its type; else at that of the
type around all others; else at the start of the file. -/
def locationOf (file : GeneratedFile) (symbol : SymbolKey) : Location :=
  let keys := [symbol, symbol.containingType, symbol.topLevelType]
  (keys.findSome? file.symbols.find?).getD ⟨0, 0⟩

end GeneratedFile

/-! ## Writing to the disk -/

namespace Writing

/-- The first step: a path where something stands is left alone. -/
def isFree (disk : Disk) (path : String) : Bool :=
  !disk.exists? path

/-- The second step: the directory is made if it is missing. Without time to wait nothing is tried.
Says whether the directory is there. -/
def prepare (disk : Disk) (path : String) (mayWait : Bool) : Disk × Bool :=
  match Path.parent? path with
  | none => (disk, true)
  | some directory =>
      if disk.isDirectory directory then
        (disk, true)
      else if mayWait then
        let disk := (disk.makeDirectories directory).1
        (disk, disk.isDirectory directory)
      else
        (disk, false)

/-- The third step: a new file is written and protected. Says whether it is new; a file that came
first stays. -/
def create (disk : Disk) (path text : String) : Except Failure (Disk × Bool) :=
  match disk.createNew path text with
  | .ok disk => .ok (disk.markReadOnly path, true)
  | .error .alreadyExists => .ok (disk, false)
  | .error fault => .error (.file fault)

end Writing

/-- Writes a text to a new file. Says whether it was written; the disk may have changed also when it
was not. -/
def writeOnce
    (disk : Disk)
    (path text : String)
    (mayWait : Bool) :
    Disk × Except Failure Bool :=
  if Writing.isFree disk path then
    let prepared := Writing.prepare disk path mayWait
    if prepared.2 then
      match Writing.create prepared.1 path text with
      | .ok created => (created.1, .ok created.2)
      | .error failure => (prepared.1, .error failure)
    else
      (prepared.1, .ok false)
  else
    (disk, .ok false)

/-- Writes a generated file to the disk, unless it is there. -/
def GeneratedFile.materialize
    (file : GeneratedFile)
    (disk : Disk)
    (mayWait : Bool) :
    Disk × Except Failure Bool :=
  writeOnce disk file.path file.text mayWait

/-! ## Finding generated files -/

/-- Generated files by their paths; no two have the same path in lower case. -/
structure FileIndex where
  files : List GeneratedFile
  distinct : files.Pairwise fun left right =>
    GeneratedFile.indexKey left.path ≠ GeneratedFile.indexKey right.path := by simp

namespace FileIndex

/-- No file. -/
def empty : FileIndex :=
  ⟨[], by simp⟩

/-- The file with a path. -/
def find? (index : FileIndex) (path : String) : Option GeneratedFile :=
  index.files.find? fun file => GeneratedFile.indexKey file.path == GeneratedFile.indexKey path

/-- There is a file with the path. -/
def contains (index : FileIndex) (path : String) : Bool :=
  (index.find? path).isSome

/-- Adds a file, unless its path is taken. -/
def register (index : FileIndex) (file : GeneratedFile) : FileIndex :=
  match found : index.find? file.path with
  | some _ => index
  | none =>
      { files := index.files ++ [file]
        distinct := by
          rw [List.pairwise_append]
          refine ⟨index.distinct, by simp, ?_⟩
          intro left member right only
          rw [List.mem_singleton.1 only]
          simpa using List.find?_eq_none.1 found left member }

/-- The files of a project. -/
def filesOf (index : FileIndex) (project : ProjectId) : List GeneratedFile :=
  index.files.filter (·.project = project)

/-- The paths of a project's files, in the order of paths. -/
def pathsOf (index : FileIndex) (project : ProjectId) : List String :=
  ((index.filesOf project).map (·.path)).mergeSort fun left right => !Path.isBefore right left

/-- Removes the files of a project. -/
def removeProject (index : FileIndex) (project : ProjectId) : FileIndex :=
  { files := index.files.filter (·.project ≠ project)
    distinct := index.distinct.sublist List.filter_sublist }

/-- Writes the file with a path to the disk, unless it is there. -/
def ensure
    (index : FileIndex)
    (disk : Disk)
    (path : String)
    (mayWait : Bool) :
    Disk × Except Failure Bool :=
  match index.find? path with
  | some file => file.materialize disk mayWait
  | none => (disk, .ok false)

end FileIndex

end Navigation
end AssemblyAtlas
