import AssemblyAtlas.Failure
import AssemblyAtlas.Path
import AssemblyAtlas.Text.CharClass

/-!
# Disks

A disk is what the library sees of a file system: a tree of directories and text files below the
root, of which one is the working directory. There are no links, and every directory may be read.

* `Disk.resolve` follows a path through the directories, as the system does;
* `Disk.exists?`, `Disk.isFile`, `Disk.isDirectory`, `Disk.read` and `Disk.names` look at a disk;
* `Disk.makeDirectories`, `Disk.createNew`, `Disk.markReadOnly` and `Disk.remove` change it.
-/

namespace AssemblyAtlas

open Text

/-- What stands at a place of a disk. -/
inductive Entry where
  | directory
  | file (text : String) (readOnly : Bool)
deriving DecidableEq

/-- A place below the root, by the names that lead to it. -/
abbrev Place :=
  List String

/-- The entries of a disk; the root itself is always there. -/
structure Disk where
  entries : List (Place × Entry)
  /-- The working directory, at which every path starts that does not start at the root. -/
  home : Place
  /-- The directories in which nothing may be made, and from which nothing may be removed. -/
  closed : List Place
deriving DecidableEq

namespace Disk

/-- The disk with an empty root, which is the working directory. -/
def empty : Disk :=
  ⟨[], [], []⟩

/-- The most bytes that a name may have. -/
def longestName : Nat :=
  255

/-- The most bytes that a path may have. -/
def longestPath : Nat :=
  4095

/-- What stands at a place. -/
def at? (disk : Disk) (place : Place) : Option Entry :=
  if place = [] then
    some .directory
  else
    (disk.entries.find? (·.1 = place)).map (·.2)

/-- Puts an entry at a place, over what stands there. -/
def set (disk : Disk) (place : Place) (entry : Entry) : Disk :=
  { disk with entries := disk.entries.filter (·.1 ≠ place) ++ [(place, entry)] }

/-- Something in a closed directory stands at the place or below it, so the place stays. -/
def isHeld (disk : Disk) (place : Place) : Bool :=
  disk.entries.any fun entry => place.isPrefixOf entry.1 && entry.1.dropLast ∈ disk.closed

/-- Removes a place and all below it that is not held. -/
def erase (disk : Disk) (place : Place) : Disk :=
  let goes (other : Place) : Bool := place.isPrefixOf other && !disk.isHeld other
  { disk with
    entries := disk.entries.filter fun entry => !goes entry.1
    closed := disk.closed.filter fun other => other == [] || !goes other }

/-- Where a path leads. -/
inductive Target where
  | found (place : Place) (entry : Entry)
  /-- Nothing has this name, but its directory is there. -/
  | absent (place : Place)
deriving DecidableEq

/-- Goes one component further. -/
def Target.step (disk : Disk) (target : Target) (component : Path.Component) :
    Except FileFault Target :=
  match component, target with
  | .root, _ => .ok (found [] .directory)
  | _, absent _ => .error .notFound
  | _, found _ (.file _ _) => .error .notADirectory
  | .current, found place .directory => .ok (found place .directory)
  | .parent, found place .directory => .ok (found place.dropLast .directory)
  | .name name, found place .directory =>
      if longestName < name.utf8ByteSize then
        .error .invalidName
      else
        let place := place ++ [name]
        match disk.at? place with
        | some entry => .ok (found place entry)
        | none => .ok (absent place)

/-- Where every path starts. Only from the root a path leads on if the working directory is gone. -/
def start (disk : Disk) : Target :=
  match disk.at? disk.home with
  | some entry => .found disk.home entry
  | none => .absent disk.home

/-- Goes a number of steps. -/
def walk (disk : Disk) (steps : List Path.Component) : Except FileFault Target :=
  steps.foldlM (Target.step disk) disk.start

/-- In a closed directory nothing can be made. -/
def permit (disk : Disk) : Target → Except FileFault Target
  | .absent place =>
      if place.dropLast ∈ disk.closed then .error .permissionDenied else .ok (.absent place)
  | target => .ok target

/-- The path is one that the system takes. -/
def check (path : String) : Except FileFault Unit :=
  if '\x00' ∈ path.toList then
    .error .invalidInput
  else if path = "" then
    .error .notFound
  else if longestPath < path.utf8ByteSize then
    .error .invalidName
  else
    .ok ()

/-- Follows a path. Its last name may be absent; all before it must be directories, and so must be
what stands before a slash at the end. -/
def resolve (disk : Disk) (path : String) : Except FileFault Target := do
  check path
  let target ← disk.walk (Path.steps path)
  match target with
  | .found _ (.file _ _) =>
      if Path.endsInSlash path then .error .notADirectory else .ok target
  | _ => .ok target

/-- Follows a path to write a file there. No name before a slash at the end is looked up. -/
def resolveToWrite (disk : Disk) (path : String) : Except FileFault Target := do
  check path
  let steps := Path.steps path
  match steps.getLast? with
  | some (.name name) =>
      let directory ← (← disk.walk steps.dropLast).step disk .current
      if Path.endsInSlash path then
        .error .isADirectory
      else
        disk.permit (← directory.step disk (.name name))
  | some _ => disk.walk steps
  | none => .error .notFound

/-- The entry that a path leads to. -/
def lookup (disk : Disk) (path : String) : Except FileFault (Place × Entry) := do
  match ← disk.resolve path with
  | .absent _ => .error .notFound
  | .found place entry => return (place, entry)

/-- Something stands at the end of the path. -/
def exists? (disk : Disk) (path : String) : Bool :=
  match disk.lookup path with
  | .ok _ => true
  | .error _ => false

/-- A file stands at the end of the path. -/
def isFile (disk : Disk) (path : String) : Bool :=
  match disk.lookup path with
  | .ok (_, .file _ _) => true
  | _ => false

/-- A directory stands at the end of the path. -/
def isDirectory (disk : Disk) (path : String) : Bool :=
  match disk.lookup path with
  | .ok (_, .directory) => true
  | _ => false

/-- The text of a file. -/
def read (disk : Disk) (path : String) : Except FileFault String := do
  match ← disk.lookup path with
  | (_, .file text _) => return text
  | (_, .directory) => .error .isADirectory

/-- The names in a directory. -/
def names (disk : Disk) (path : String) : Except FileFault (List String) := do
  match ← disk.lookup path with
  | (_, .file _ _) => .error .notADirectory
  | (place, .directory) =>
      return disk.entries.filterMap fun entry =>
        if entry.1.length = place.length + 1 ∧ place.isPrefixOf entry.1 then
          entry.1.getLast?
        else
          none

/-- Makes the directories of a path one after the other, until one cannot be made. -/
def makeFrom (disk : Disk) (target : Target) : List Path.Component → Disk × Except FileFault Unit
  | [] =>
      match target with
      | .found _ (.file _ _) => (disk, .error .alreadyExists)
      | _ => (disk, .ok ())
  | step :: rest =>
      match target.step disk step >>= disk.permit with
      | .error fault => (disk, .error fault)
      | .ok (.absent place) =>
          let disk := disk.set place .directory
          disk.makeFrom (.found place .directory) rest
      | .ok target => disk.makeFrom target rest

/-- Makes the directories before the last name of a path that ends in a single dot. What the dot
stands in cannot be made by it and must be there. -/
def makeBefore (disk : Disk) (path : String) : Disk × Except FileFault Unit :=
  match disk.lookup path with
  | .error .notFound =>
      let made := disk.makeFrom disk.start (Path.components path).dropLast
      (made.1, do
        made.2
        let _ ← made.1.lookup path)
  | looked => (disk, looked.map fun _ => ())

/-- Makes a directory and those that lead to it, as far as possible. Says why it could not be made.
The empty path needs no directory. -/
def makeDirectories (disk : Disk) (path : String) : Disk × Except FileFault Unit :=
  if path = "" then
    (disk, .ok ())
  else
    match check path with
    | .error fault => (disk, .error fault)
    | .ok () =>
        if (Path.steps path).getLast? = some .current then
          disk.makeBefore path
        else
          disk.makeFrom disk.start (Path.components path)

/-- Writes a new file; what is there already stays. -/
def createNew (disk : Disk) (path text : String) : Except FileFault Disk := do
  match ← disk.resolveToWrite path with
  | .absent place => return disk.set place (.file text false)
  | _ => .error .alreadyExists

/-- Takes the right to write from a file. -/
def markReadOnly (disk : Disk) (path : String) : Disk :=
  match disk.lookup path with
  | .ok (place, .file text _) => disk.set place (.file text true)
  | _ => disk

/-- Removes what a path leads to and all below it, as far as it is not held. -/
def remove (disk : Disk) (path : String) : Disk :=
  match disk.lookup path with
  | .ok (place, _) => disk.erase place
  | .error _ => disk

end Disk

end AssemblyAtlas
