import AssemblyAtlas.Navigation.GeneratedFile
import AssemblyAtlas.Sources.Run

/-!
# Workspaces

A workspace has the projects that navigation has made so far, their files, and the disk they are
written to. Whoever watches it is told when projects come and go.

* `Workspace.project?` finds a project, and `Workspace.replace` changes it;
* `Workspace.cleanUp` removes a project and `Workspace.cleanUpAll` removes all.
-/

namespace AssemblyAtlas
namespace Navigation

open Sources
open Text

/-- What those who watch a workspace are told. -/
inductive Notice where
  | added (project : ProjectId) (name : String) (documents : Nat)
  | closed (document : DocumentId) (path : String)
  | removed (project : ProjectId)
deriving DecidableEq

/-- The line that describes a notice. -/
def Notice.display : Notice → String
  | added project name documents =>
      "added " ++ project.display ++ " " ++ name ++ " (" ++ String.ofList (decimal documents)
        ++ " documents)"
  | closed document path => "closed " ++ document.display ++ " " ++ path
  | removed project => "removed " ++ project.display

/-- Projects, their files, and what was told about them. -/
structure Workspace where
  projects : List Project
  index : FileIndex
  /-- The number of the project that was made last; the program has 32 bits for it. -/
  lastProject : Nat
  /-- How often a whole assembly was written so far. -/
  decompilations : Nat
  disk : Disk
  notices : List Notice
  reports : List Report

namespace Workspace

/-- A workspace without projects. -/
def new (disk : Disk) : Workspace :=
  ⟨[], .empty, 0, 0, disk, [], []⟩

variable (workspace : Workspace)

/-- The project of an assembly. -/
def project? (key : AssemblyKey) : Option Project :=
  workspace.projects.find? fun project => decide (project.key.Same key)

/-- Puts a project in the place of that with its number. -/
def replace (project : Project) : Workspace :=
  { workspace with
    projects := workspace.projects.map fun other =>
      if other.id = project.id then project else other }

/-- Registers files, adds their project, and tells about it. -/
def addProject (project : Project) (files : List GeneratedFile) : Workspace :=
  { workspace with
    projects := workspace.projects ++ [project]
    index := files.foldl FileIndex.register workspace.index
    lastProject := workspace.lastProject + 1
    notices := workspace.notices ++
      [.added project.id project.identity.name project.documents.length] }

/-- Adds a file to a project. -/
def addFile (project : Project) (file : GeneratedFile) : Workspace :=
  let workspace := workspace.replace project
  { workspace with index := workspace.index.register file }

/-- What is told when a project with some files is removed. Nobody is told about a project without
files. -/
def farewell (project : Project) (files : List GeneratedFile) : List Notice :=
  if files.isEmpty then
    []
  else
    files.map (fun file => .closed file.document file.path) ++ [.removed project.id]

/-- The disk without the directory of a project. -/
def diskWithout (project : Project) : Disk :=
  if workspace.disk.isDirectory project.directory then
    workspace.disk.remove project.directory
  else
    workspace.disk

/-- Removes a project with its files and its directory. -/
def dropProject (project : Project) : Workspace :=
  { workspace with
    projects := workspace.projects.filter (·.id ≠ project.id)
    index := workspace.index.removeProject project.id
    disk := workspace.diskWithout project
    notices := workspace.notices ++ farewell project (workspace.index.filesOf project.id) }

/-- Removes the project of an assembly. Says whether there was one. -/
def cleanUp (key : AssemblyKey) : Workspace × Bool :=
  match workspace.project? key with
  | some project => (workspace.dropProject project, true)
  | none => (workspace, false)

/-- Removes all projects and all files. -/
def cleanUpAll : Workspace :=
  let cleaned :=
    workspace.projects.foldl (fun current project => current.dropProject project) workspace
  { cleaned with projects := [], index := .empty }

/-- Writes the file with a path to the disk, unless it is there. -/
def ensure (path : String) (mayWait : Bool) : Workspace × Except Failure Bool :=
  let written := workspace.index.ensure workspace.disk path mayWait
  ({ workspace with disk := written.1 }, written.2)

end Workspace

end Navigation
end AssemblyAtlas
