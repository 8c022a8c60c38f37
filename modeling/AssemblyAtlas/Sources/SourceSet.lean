import AssemblyAtlas.Assembly.Token
import AssemblyAtlas.Syntax.Page
import AssemblyAtlas.Text.CharClass
import AssemblyAtlas.Text.Lowercase

/-!
# Source sets

The source files of an assembly, each under its path.

* `SourceDraft` collects files while they are written; files whose paths differ in case only replace
  each other;
* `SourceSet` holds the finished files in the order of their paths, and `SourceSet.file?` finds one.
-/

namespace AssemblyAtlas
namespace Sources

open Assembly
open Syntax
open Text

/-- A source file with the types that were written to it. -/
structure SourceFile where
  path : String
  text : String
  symbols : SymbolIndex
  types : List Token
deriving DecidableEq

/-- Source files that are being collected; no two have the same path in lower case. -/
structure SourceDraft where
  files : List SourceFile

namespace SourceDraft

/-- No file. -/
def empty : SourceDraft :=
  ⟨[]⟩

/-- The file whose path has the given text in lower case. -/
def find? (draft : SourceDraft) (key : String) : Option SourceFile :=
  draft.files.find? fun file => lowercase file.path == key

/-- Puts a file in, over one whose path differs in case only. -/
def insert (draft : SourceDraft) (file : SourceFile) : SourceDraft :=
  ⟨draft.files.filter (fun other => lowercase other.path != lowercase file.path) ++ [file]⟩

end SourceDraft

/-- The source files of an assembly. -/
structure SourceSet where
  files : List SourceFile
deriving DecidableEq

namespace SourceSet

/-- The collected files, in the order of their paths. -/
def ofDraft (draft : SourceDraft) : SourceSet :=
  ⟨draft.files.mergeSort fun left right => !decide (right.path < left.path)⟩

/-- The paths of all files. -/
def paths (sources : SourceSet) : List String :=
  sources.files.map (·.path)

/-- The file with a path; if there is none, the first whose path differs in the case of ASCII
letters only. -/
def file? (sources : SourceSet) (path : String) : Option SourceFile :=
  (sources.files.find? (·.path == path)).or
    (sources.files.find? fun file => sameIgnoringCase file.path path)

end SourceSet

end Sources
end AssemblyAtlas
