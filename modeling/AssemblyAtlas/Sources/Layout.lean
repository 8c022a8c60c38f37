import AssemblyAtlas.Declaration.Hidden
import AssemblyAtlas.FileName

/-!
# Layout

Which types of an assembly are written to source files of their own, and to which ones.

* `relativePath` places a type by its namespace and its name;
* `included` says whether a type is written without being asked for;
* `group` puts types together that share a file, and `WorkUnit` is such a group.
-/

namespace AssemblyAtlas
namespace Sources

open Assembly
open Declaration
open Text

/-- The ending of source files. -/
def sourceExtension : String :=
  ".cs"

/-- The path of the file with the attributes of assembly and module. -/
def assemblyInfoPath : String :=
  "Properties/AssemblyInfo.cs"

/-- The path of the file with a type. -/
def relativePath (settings : Settings) (space name : String) : String :=
  let file := FileName.withExtension name sourceExtension
  if space = "" then
    file
  else if settings.nestedDirectories then
    FileName.path space ++ "/" ++ file
  else
    FileName.directory space ++ "/" ++ file

/-- The attribute types that compilers put into every assembly that needs them. -/
def embeddedTypes : List String :=
  "Microsoft.CodeAnalysis.EmbeddedAttribute" ::
    [ "IsByRefLike", "IsReadOnly", "IsUnmanaged", "NativeInteger", "Nullable", "NullableContext",
      "RefSafetyRules", "RequiresLocation", "ScopedRef" ].map
        fun name => "System.Runtime.CompilerServices." ++ name ++ "Attribute"

/-- The type is written without being asked for. The type around global members, hidden types, the
helper that is generated for markup and embedded attribute types are not. -/
def included (concealment : Concealment) (module : Module) (type : TypeDefinition) : Bool :=
  let helper :=
    type.space == "XamlGeneratedNamespace" && type.name == "GeneratedInternalTypeHelper"
  let embedded := !type.isNested && embeddedTypes.contains (qualified type.space type.name)
  type.name != "<Module>" && !memberHidden concealment module type.token && !helper && !embedded

/-- Types that share a source file. -/
structure WorkUnit where
  path : String
  types : List Token
deriving DecidableEq

namespace WorkUnit

/-- Adds a type to the first unit with its path, whatever the case of ASCII letters; without one, a
unit of its own comes last. -/
def place (path : String) (token : Token) : List WorkUnit → List WorkUnit
  | [] => [⟨path, [token]⟩]
  | unit :: rest =>
      if sameIgnoringCase unit.path path then
        { unit with types := unit.types ++ [token] } :: rest
      else
        unit :: place path token rest

end WorkUnit

/-- Adds the type with a token to the units; a token without a definition adds nothing. -/
def assign
    (settings : Settings)
    (module : Module)
    (units : List WorkUnit)
    (token : Token) :
    List WorkUnit :=
  match module.type? token with
  | some type => WorkUnit.place (relativePath settings type.space type.name) token units
  | none => units

/-- The units of types, in the order of their first types. -/
def group (settings : Settings) (module : Module) (tokens : List Token) : List WorkUnit :=
  tokens.foldl (assign settings module) []

end Sources
end AssemblyAtlas
