import AssemblyAtlas.Markup.Element
import AssemblyAtlas.Reference.Resolver

/-!
# Implementation assemblies

A reference assembly has signatures only. Packages and installed frameworks keep the assembly with
the bodies at another place.

* `Implementation.inPackage?` goes from `ref` to `lib` inside of a package;
* `Implementation.inFramework?` goes from the packs of an installation to its shared frameworks,
  and takes the newest with the same major version if the exact version is missing;
* `Implementation.find?` tries the one and then the other;
* `Implementation.follow?` goes along forwarded types to the assembly that defines a type.
-/

namespace AssemblyAtlas
namespace Navigation
namespace Implementation

open Assembly
open Reference
open Text

/-- The name of a component that has one. -/
def name? : Path.Component → Option String
  | .name text => some text
  | _ => none

/-- The file in `lib` that corresponds to a file in `ref`. -/
def inPackage? (disk : Disk) (path : String) : Option String := do
  let file ← Path.fileName? path
  let frameworkDirectory ← Path.parent? path
  let framework ← Path.fileName? frameworkDirectory
  let signatures ← Path.parent? frameworkDirectory
  if Path.fileName? signatures = some "ref" then
    let package ← Path.parent? signatures
    let candidate := Path.join (Path.join (Path.join package "lib") framework) file
    if disk.isFile candidate then some candidate else none
  else
    none

/-- The largest part of a version. -/
def partLimit : Nat :=
  0xffffffff

/-- The numbers at the start of a version, up to the first part that is no number. -/
def versionNumbers (version : String) : List Nat :=
  let parts := (pieces '.' version.toList).flatMap (pieces '-')
  (parts.map (readNumeral? 10 partLimit)).takeWhile (·.isSome) |>.filterMap id

/-- The text before the first dot. -/
def major (version : String) : List Char :=
  version.toList.takeWhile (· != '.')

/-- A version of a shared framework that has the wanted file. -/
structure Candidate where
  numbers : List Nat
  path : String

/-- The first candidate comes before the second: it is older, or its path comes first. -/
def Candidate.isBefore (left right : Candidate) : Bool :=
  decide (left.numbers < right.numbers)
    || left.numbers == right.numbers && Path.isBefore left.path right.path

/-- The name of the framework that a pack belongs to: the one in its list of files, or else the
pack's own name without its ending. -/
def frameworkName? (disk : Disk) (packDirectory pack : String) : Option String :=
  let list := Path.join (Path.join packDirectory "data") "FrameworkList.xml"
  let declared := do
    let text ← (disk.read list).toOption
    let element ← Markup.firstElement? "FileList".toList text.toList
    Markup.attribute? "FrameworkName".toList element
  let shortened := (afterLead? ".Ref".toList.reverse pack.toList.reverse).map List.reverse
  (declared.or shortened).map String.ofList

/-- The newest version of a shared framework with the wanted file and major version. -/
def newest? (disk : Disk) (shared file version : String) : Option String := do
  let versions ← (disk.names shared).toOption
  let candidates := versions.filterMap fun name =>
    let path := Path.join (Path.join shared name) file
    if major name = major version ∧ disk.isFile path then
      some (Candidate.mk (versionNumbers name) path)
    else
      none
  let last ← (candidates.mergeSort fun left right => !right.isBefore left).getLast?
  return last.path

/-- The file of a shared framework that corresponds to a file of a pack. -/
def inFramework? (disk : Disk) (path : String) : Option String := do
  let file ← Path.fileName? path
  let components := Path.components path
  let isPacks (component : Path.Component) : Bool := component == .name "packs"
  let behind := (components.dropWhile (!isPacks ·)).filterMap name?
  let pack ← behind[1]?
  let version ← behind[2]?
  let root := (components.takeWhile (!isPacks ·)).foldl
    (fun root component => Path.join root component.text) ""
  let packDirectory := Path.join (Path.join (Path.join root "packs") pack) version
  let framework ← frameworkName? disk packDirectory pack
  let shared := Path.join (Path.join root "shared") framework
  let exact := Path.join (Path.join shared version) file
  if disk.isFile exact then some exact else newest? disk shared file version

/-- The assembly with the bodies of a reference assembly. -/
def find? (disk : Disk) (path : String) : Option String :=
  (inPackage? disk path).or (inFramework? disk path)

/-- The most assemblies that are read to find a type. -/
def maxForwards : Nat :=
  8

/-- The module in an assembly file. -/
def moduleAt (read : ModuleReader) (disk : Disk) (path : String) : Except Failure Module := do
  read (← Image.ofFile disk path .metadata)

/-- The file beside another to which an assembly forwards a type. -/
def forwardPath? (path : String) (forward : ForwardedType) : Option String :=
  (Path.parent? path).map fun directory =>
    Path.join directory (forward.destination.name ++ ".dll")

/-- Reads a number of assemblies, and none of them twice, until one does not forward the type. -/
def followFrom?
    (read : ModuleReader)
    (disk : Disk)
    (type : SymbolKey) :
    (count : Nat) → (visited : List String) → (path : String) → Option String
  | 0, _, _ => none
  | count + 1, visited, path =>
      if visited.any fun other => decide (Path.Same other path) then
        none
      else
        match moduleAt read disk path with
        | .error _ => none
        | .ok module =>
            match module.findType? type.space type.typeName,
                module.forwarded? type.space type.typeName with
            | some _, _ => some path
            | none, none => some path
            | none, some forward => do
                let next ← forwardPath? path forward
                if disk.isFile next then
                  followFrom? read disk type count (visited ++ [path]) next
                else
                  none

/-- The assembly that defines the top-level type of a symbol, as far as forwards lead from the
assembly at a path. A chain that breaks off, comes back or is too long leads nowhere. -/
def follow?
    (read : ModuleReader)
    (disk : Disk)
    (symbol : SymbolKey)
    (path : String) :
    Option String :=
  followFrom? read disk symbol.topLevelType maxForwards [] path

end Implementation
end Navigation
end AssemblyAtlas
