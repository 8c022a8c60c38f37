import AssemblyAtlas.Assembly.Signature

/-!
# Constants and custom attributes

Constant values of fields and attribute arguments, and the attributes that metadata attaches to
definitions.
-/

namespace AssemblyAtlas
namespace Assembly

/-- A constant value. -/
inductive Constant where
  | bool (value : Bool)
  | char (value : Char)
  | int (value : Int)
  | natural (value : Nat)
  /-- A number in double precision, by its bits. -/
  | float (bits : UInt64)
  | string (value : String)
  | null
  | type (signature : Signature)
  | array (elements : List Constant)

/-- An attribute attached to a definition. -/
structure CustomAttribute where
  type : TypeReference
  space : String
  name : String
  arguments : List Constant
  named : List (String × Constant)

/-- A name with the namespace before it, if there is one. -/
def qualified (space name : String) : String :=
  if space = "" then
    name
  else
    space ++ "." ++ name

namespace CustomAttribute

/-- An attribute without arguments whose type is in another assembly. -/
def external (assembly space name : String) : CustomAttribute :=
  ⟨.external assembly space name, space, name, [], []⟩

/-- An attribute without arguments whose type the module defines. -/
def ofDefinition (token : Token) (space name : String) : CustomAttribute :=
  ⟨.definition token, space, name, [], []⟩

/-- The attribute is of the named type. -/
def isNamed (mark : CustomAttribute) (space name : String) : Bool :=
  mark.space == space && mark.name == name

/-- The attribute type's name with its namespace. -/
def fullName (mark : CustomAttribute) : String :=
  qualified mark.space mark.name

end CustomAttribute

/-- One of the attributes is of the named type. -/
def hasAttribute (attributes : List CustomAttribute) (space name : String) : Bool :=
  attributes.any (·.isNamed space name)

/-- One of the attributes marks what a compiler has generated. -/
def markedGenerated (attributes : List CustomAttribute) : Bool :=
  hasAttribute attributes "System.Runtime.CompilerServices" "CompilerGeneratedAttribute"

end Assembly
end AssemblyAtlas
