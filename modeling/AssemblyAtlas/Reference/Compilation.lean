import AssemblyAtlas.Assembly.Identity
import AssemblyAtlas.Reference.Image

/-!
# Compilations

A compilation knows the assemblies that a program refers to, and through which file or image it
refers to each.
-/

namespace AssemblyAtlas
namespace Reference

open Assembly
open Text

/-- An assembly that a program refers to. -/
structure ReferencedAssembly where
  identity : Identity
  /-- The assembly has signatures only. -/
  isReferenceAssembly : Bool
deriving DecidableEq

/-- The file or image through which a program refers to an assembly. -/
structure MetadataReference where
  display : String
  filePath : Option String
  image : Option Image
deriving DecidableEq

namespace MetadataReference

/-- A reference to a file. -/
def ofFile (path : String) : MetadataReference :=
  ⟨path, some path, none⟩

/-- A reference to an image at hand. -/
def ofImage (display : String) (image : Image) : MetadataReference :=
  ⟨display, image.path, some image⟩

/-- The line that describes a reference. -/
def describe (reference : MetadataReference) : String :=
  "MetadataReference \x7b display: " ++ inQuotes reference.display
    ++ ", file_path: " ++ optionInQuotes reference.filePath
    ++ ", in_memory: " ++ (if reference.image.isSome then "true" else "false") ++ " \x7d"

end MetadataReference

/-- What a program refers to. It answers for any assembly, also for one that it does not list. -/
structure Compilation where
  /-- The assemblies that the program refers to, in the order of the compilation. -/
  assemblies : List ReferencedAssembly
  /-- The reference that provides an assembly. -/
  reference? : ReferencedAssembly → Option MetadataReference

/-- The compilation that lists assemblies with their references, and provides no others; of equal
assemblies the reference to the first counts. -/
def Compilation.ofList (list : List (ReferencedAssembly × Option MetadataReference)) :
    Compilation :=
  ⟨list.map (·.1), fun assembly => (list.find? (·.1 = assembly)).bind (·.2)⟩

end Reference
end AssemblyAtlas
