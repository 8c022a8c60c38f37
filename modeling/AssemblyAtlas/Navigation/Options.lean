import AssemblyAtlas.Declaration.Settings

/-!
# Options

What the user of an editor chooses about navigation into assemblies, and from which language the
user comes.
-/

namespace AssemblyAtlas
namespace Navigation

open Declaration

/-- The language of the project in which navigation starts. -/
inductive Language where
  | csharp
  | visualBasic
deriving DecidableEq

/-- The name of a language. -/
def Language.name : Language → String
  | csharp => "C#"
  | visualBasic => "Visual Basic"

/-- The choices about navigation. There is no choice of the number of workers; one writes. -/
structure Options where
  /-- Bodies are shown where they are known. -/
  decompilation : Bool
  /-- A project file is made for decompiled sources. -/
  projectFile : Bool
  /-- How long to wait for a directory to be made, in milliseconds. -/
  timeout : Nat
  settings : Settings

namespace Options

/-- Bodies, a project file, and five seconds for a directory. -/
def default : Options :=
  ⟨true, true, 5000, .default⟩

/-- There is time to make a directory. -/
def mayWait (options : Options) : Bool :=
  options.timeout != 0

end Options

/-- Which files are collapsed when they are first opened. -/
structure CollapseOptions where
  decompiled : Bool
  signatures : Bool
deriving DecidableEq

namespace CollapseOptions

/-- Files with signatures only are collapsed. -/
def default : CollapseOptions :=
  ⟨false, true⟩

/-- A file is collapsed when it is first opened. -/
def collapses (options : CollapseOptions) (signaturesOnly : Bool) : Bool :=
  if signaturesOnly then options.signatures else options.decompiled

end CollapseOptions

end Navigation
end AssemblyAtlas
