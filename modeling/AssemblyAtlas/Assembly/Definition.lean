import AssemblyAtlas.Assembly.Attribute
import AssemblyAtlas.Text.Split

/-!
# Definitions

Type definitions and their members as metadata holds them: raw flags, accessibility, signatures,
and tokens that tie properties and events to their accessor methods.

* `TypeDefinition.kind` reads the kind of a type off its flags and its base type;
* `TypeDefinition.simpleName` is the name without the mark of its generic arity.
-/

namespace AssemblyAtlas
namespace Assembly

open Text

/-- From where a definition may be used. -/
inductive Accessibility where
  | ownType
  | familyInAssembly
  | assembly
  | family
  | familyOrAssembly
  | everywhere
deriving DecidableEq

/-- The source spelling of an accessibility. -/
def Accessibility.keyword : Accessibility → String
  | ownType => "private"
  | familyInAssembly => "private protected"
  | assembly => "internal"
  | family => "protected"
  | familyOrAssembly => "protected internal"
  | everywhere => "public"

/-- Raw flags of a definition; bits without a meaning here are kept. -/
structure Flags where
  bits : UInt32
deriving DecidableEq

namespace Flags

/-- No flag. -/
def none : Flags :=
  ⟨0⟩

/-- Every bit of the second flags is set. -/
def has (flags asked : Flags) : Bool :=
  flags.bits &&& asked.bits == asked.bits

/-- The bits of both flags. -/
def union (left right : Flags) : Flags :=
  ⟨left.bits ||| right.bits⟩

end Flags

namespace TypeFlag

/-- The type is an interface. -/
def interface : Flags := ⟨0x20⟩

/-- The type has no instances of its own. -/
def abstract : Flags := ⟨0x80⟩

/-- The type has no derived types. -/
def sealed : Flags := ⟨0x100⟩

end TypeFlag

namespace MethodFlag

/-- The method needs no instance. -/
def static : Flags := ⟨0x10⟩

/-- The method cannot be overridden. -/
def final : Flags := ⟨0x20⟩

/-- The method is called by the type of the instance. -/
def virtual : Flags := ⟨0x40⟩

/-- The method hides others by name and signature. -/
def hideBySignature : Flags := ⟨0x80⟩

/-- The method does not override. -/
def newSlot : Flags := ⟨0x100⟩

/-- The method has no implementation. -/
def abstract : Flags := ⟨0x400⟩

/-- The method's name has a meaning. -/
def specialName : Flags := ⟨0x800⟩

/-- The method's name has a meaning to the runtime. -/
def runtimeSpecialName : Flags := ⟨0x1000⟩

/-- The method's implementation is outside the assemblies. -/
def platformInvoke : Flags := ⟨0x2000⟩

end MethodFlag

namespace FieldFlag

/-- The field belongs to the type. -/
def static : Flags := ⟨0x10⟩

/-- The field is written once. -/
def initOnly : Flags := ⟨0x20⟩

/-- The field is a constant. -/
def literal : Flags := ⟨0x40⟩

/-- The field's name has a meaning. -/
def specialName : Flags := ⟨0x200⟩

/-- The field has a constant value. -/
def hasDefault : Flags := ⟨0x8000⟩

end FieldFlag

/-- The kinds of types. -/
inductive TypeKind where
  | classType
  | structType
  | interfaceType
  | enumType
  | delegateType
deriving DecidableEq

/-- The source spelling of a kind. -/
def TypeKind.keyword : TypeKind → String
  | classType => "class"
  | structType => "struct"
  | interfaceType => "interface"
  | enumType => "enum"
  | delegateType => "delegate"

/-- A parameter of a method. -/
structure Parameter where
  name : String
  signature : Signature

/-- A field of a type. -/
structure FieldDefinition where
  token : Token
  name : String
  accessibility : Accessibility
  flags : Flags
  signature : Signature
  constant : Option Constant
  attributes : List CustomAttribute

/-- A method of a type. -/
structure MethodDefinition where
  token : Token
  name : String
  accessibility : Accessibility
  flags : Flags
  returns : Signature
  parameters : List Parameter
  typeParameters : List String
  /-- The types of the locals; absent for a method without a body. -/
  locals : Option (List Signature)
  attributes : List CustomAttribute

/-- The method constructs an instance or initialises its type. -/
def MethodDefinition.isConstructor (method : MethodDefinition) : Bool :=
  method.name == ".ctor" || method.name == ".cctor"

/-- The method needs no instance. -/
def MethodDefinition.isStatic (method : MethodDefinition) : Bool :=
  method.flags.has MethodFlag.static

/-- A property with the tokens of its accessor methods. -/
structure PropertyDefinition where
  token : Token
  name : String
  signature : Signature
  getter : Option Token
  setter : Option Token
  attributes : List CustomAttribute

/-- An event with the tokens of its accessor methods. -/
structure EventDefinition where
  token : Token
  name : String
  signature : Signature
  adder : Option Token
  remover : Option Token
  attributes : List CustomAttribute

/-- A type with its members. -/
structure TypeDefinition where
  token : Token
  space : String
  name : String
  accessibility : Accessibility
  flags : Flags
  /-- The type around a nested type. -/
  enclosing : Option Token
  nested : List Token
  typeParameters : List String
  base : Option Signature
  interfaces : List Signature
  fields : List FieldDefinition
  methods : List MethodDefinition
  properties : List PropertyDefinition
  events : List EventDefinition
  attributes : List CustomAttribute

/-- A name without the mark of its generic arity; a mark at the very start is part of the name. -/
def withoutArity (name : String) : String :=
  String.ofList (before '`' name.toList)

namespace TypeDefinition

/-- A public type without members. -/
def bare (token : Token) (space name : String) : TypeDefinition where
  token := token
  space := space
  name := name
  accessibility := .everywhere
  flags := .none
  enclosing := none
  nested := []
  typeParameters := []
  base := none
  interfaces := []
  fields := []
  methods := []
  properties := []
  events := []
  attributes := []

/-- The type stands inside another. -/
def isNested (type : TypeDefinition) : Bool :=
  type.enclosing.isSome

/-- The name with the namespace before it. -/
def qualifiedName (type : TypeDefinition) : String :=
  qualified type.space type.name

/-- The name as source code declares it. -/
def simpleName (type : TypeDefinition) : String :=
  withoutArity type.name

/-- An interface has a flag; enums, structs and delegates have a base type of their own. -/
def kind (type : TypeDefinition) : TypeKind :=
  if type.flags.has TypeFlag.interface then
    .interfaceType
  else
    match type.base with
    | some (.reference (.external _ "System" "Enum")) => .enumType
    | some (.reference (.external _ "System" "ValueType")) => .structType
    | some (.reference (.external _ "System" "MulticastDelegate")) => .delegateType
    | _ => .classType

/-- A compiler has generated the type. -/
def isGenerated (type : TypeDefinition) : Bool :=
  markedGenerated type.attributes

/-- The method with a token. -/
def method? (type : TypeDefinition) (token : Token) : Option MethodDefinition :=
  type.methods.find? (·.token = token)

/-- The token is that of an accessor of one of the type's properties and events. -/
def isAccessor (type : TypeDefinition) (token : Token) : Bool :=
  type.properties.any (fun property => property.getter = some token ∨ property.setter = some token)
    || type.events.any (fun event => event.adder = some token ∨ event.remover = some token)

end TypeDefinition

end Assembly
end AssemblyAtlas
