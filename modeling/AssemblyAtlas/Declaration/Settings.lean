import AssemblyAtlas.Syntax.Page

/-!
# Settings

How assemblies are turned into source files: which generated definitions are hidden, how files are
laid out in directories, and how their lines are written.
-/

namespace AssemblyAtlas
namespace Declaration

open Syntax

/-- What compilers generate beside the definitions in the sources. -/
inductive Artifact where
  | anonymousMethods
  | anonymousTypes
  | asyncMachines
  | iterators
  | arrayInitializers
  | fixedBuffers
  | automaticProperties
deriving DecidableEq

/-- Which artifacts are hidden. -/
abbrev Concealment :=
  Artifact → Bool

/-- All artifacts are hidden, or none. -/
def Concealment.all (hidden : Bool) : Concealment :=
  fun _ => hidden

/-- What is hidden under the first is hidden under the second too. -/
def Concealment.Within (less more : Concealment) : Prop :=
  ∀ artifact, less artifact → more artifact

/-- The choices for a decompilation. -/
structure Settings where
  /-- Each part of a namespace has a directory of its own. -/
  nestedDirectories : Bool
  concealment : Concealment
  format : Format

namespace Settings

/-- Nested directories, and everything that compilers generate is hidden. -/
def default : Settings :=
  ⟨true, .all true, .default⟩

/-- What compilers generate is shown. -/
def showGenerated : Settings :=
  { default with concealment := .all false }

end Settings

end Declaration
end AssemblyAtlas
