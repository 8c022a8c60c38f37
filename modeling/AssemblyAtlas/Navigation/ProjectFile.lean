import AssemblyAtlas.Assembly.Identity
import AssemblyAtlas.Failure
import AssemblyAtlas.Markup.Writer
import AssemblyAtlas.Text.Utf8

/-!
# Project files

The file by which build tools know the sources of an assembly as a project. The attributes of the
assembly are among the sources, so the tools shall not make their own.
-/

namespace AssemblyAtlas
namespace Navigation

open Assembly
open Markup

/-- The properties of a project. -/
def properties (identity : Identity) : List (String × String) := [
    ("AssemblyName", identity.name),
    ("Version", identity.version.display),
    ("OutputType", "Library"),
    ("GenerateAssemblyInfo", "False"),
    ("LangVersion", "latest"),
    ("AllowUnsafeBlocks", "True")
  ]

/-- How a property is written. -/
def propertyEvents (library : Library) (property : String × String) : List Event :=
  [.start property.1 [], .text (library.content property.2), .finish property.1]

/-- How a reference is written. -/
def referenceEvent (library : Library) (reference : Identity) : Event :=
  .single "Reference" [("Include", library.value reference.name)]

/-- How the group of all references is written. -/
def itemEvents (library : Library) (references : List Identity) : List Event :=
  if references.isEmpty then
    []
  else
    .start "ItemGroup" [] :: (references.map (referenceEvent library) ++ [.finish "ItemGroup"])

/-- How a project file is written. -/
def projectEvents
    (library : Library)
    (identity : Identity)
    (references : List Identity) :
    List Event :=
  .heading "1.0" "utf-8" :: .start "Project" [("Sdk", library.value "Microsoft.NET.Sdk")] ::
    .start "PropertyGroup" [] :: (properties identity).flatMap (propertyEvents library)
    ++ .finish "PropertyGroup" :: itemEvents library references
    ++ [.finish "Project"]

/-- Writes an event of a project file. -/
def writeEvent (writer : Writer) (state : writer.State) (event : Event) :
    Except Failure writer.State :=
  (writer.write state event).mapError fun fault =>
    .other ("Failed to write project file: " ++ fault)

/-- The project file of an assembly. -/
def projectFile
    (library : Library)
    (identity : Identity)
    (references : List Identity) :
    Except Failure String := do
  let writer := library.writer ' ' 2
  let written ← (projectEvents library identity references).foldlM (writeEvent writer) writer.start
  (Text.readUtf8 (writer.bytes written)).mapError fun fault =>
    .other ("Project file is not UTF-8: " ++ fault)

end Navigation
end AssemblyAtlas
