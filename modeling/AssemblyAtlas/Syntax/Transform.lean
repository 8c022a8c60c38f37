import AssemblyAtlas.Syntax.Edit
import AssemblyAtlas.Syntax.Identifier

/-!
# Transforms

Transforms change a finished syntax tree before it is printed. A program may bring its own.

* `Transform.escape` makes every name an identifier;
* `Transform.dropCompliance` removes the mark of language compliance;
* `Transform.dropGenerated` removes the assembly attributes that a compiler adds by itself.
-/

namespace AssemblyAtlas
namespace Syntax

/-- A change of a whole source file. -/
structure Transform where
  run : SourceUnit → SourceUnit

/-- Every name becomes an identifier. -/
def escapeEdit : Edit Id :=
  { Edit.keep with
    identifier := identifier
    typeName := dottedIdentifier }

/-- The attribute by which code claims to suit every language. -/
def complianceName : String :=
  "System.CLSCompliantAttribute"

/-- The claim of compliance is removed. -/
def complianceEdit : Edit Id :=
  { Edit.keep with marks := fun marks => marks.filter (·.fullName != complianceName) }

/-- The assembly attributes that compilers add by themselves. -/
def generatedNames : List String := [
    "System.Runtime.CompilerServices.CompilationRelaxationsAttribute",
    "System.Runtime.CompilerServices.RuntimeCompatibilityAttribute",
    "System.Diagnostics.DebuggableAttribute",
    "System.Security.UnverifiableCodeAttribute",
    "System.Security.Permissions.SecurityPermissionAttribute"]

namespace Transform

/-- Makes every name an identifier. -/
def escape : Transform :=
  ⟨escapeEdit.unit⟩

/-- Removes the claim of compliance everywhere. -/
def dropCompliance : Transform :=
  ⟨complianceEdit.unit⟩

/-- Removes what compilers add by themselves from the attributes of the assembly. -/
def dropGenerated : Transform :=
  ⟨fun unit =>
    { unit with marks := unit.marks.filter fun mark => !generatedNames.contains mark.fullName }⟩

/-- Makes changes one after the other. -/
def runAll (transforms : List Transform) (unit : SourceUnit) : SourceUnit :=
  transforms.foldl (fun unit transform => transform.run unit) unit

end Transform

end Syntax
end AssemblyAtlas
