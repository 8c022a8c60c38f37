import AssemblyAtlas.Assembly.Token

/-!
# Type signatures

The types of fields, parameters and locals as metadata writes them.

* `Signature.references` lists the type references of a signature from left to right;
* `Primitive.keyword` is the source spelling of the primitive types.
-/

namespace AssemblyAtlas
namespace Assembly

/-- A type that a signature refers to: a definition of the same module, or a named type of
another assembly. -/
inductive TypeReference where
  | definition (token : Token)
  | external (assembly space name : String)
deriving DecidableEq

/-- The token of a reference to a definition of the same module. -/
def TypeReference.definition? : TypeReference → Option Token
  | definition token => some token
  | external .. => none

/-- The types that signatures name by themselves. -/
inductive Primitive where
  | void
  | boolean
  | char
  | int8
  | uint8
  | int16
  | uint16
  | int32
  | uint32
  | int64
  | uint64
  | float32
  | float64
  | string
  | object
  | nativeInt
  | nativeUInt
  | typedReference
deriving DecidableEq

/-- The source spelling of a primitive type. -/
def Primitive.keyword : Primitive → String
  | void => "void"
  | boolean => "bool"
  | char => "char"
  | int8 => "sbyte"
  | uint8 => "byte"
  | int16 => "short"
  | uint16 => "ushort"
  | int32 => "int"
  | uint32 => "uint"
  | int64 => "long"
  | uint64 => "ulong"
  | float32 => "float"
  | float64 => "double"
  | string => "string"
  | object => "object"
  | nativeInt => "nint"
  | nativeUInt => "nuint"
  | typedReference => "System.TypedReference"

/-- The primitive types by the names of their codes in metadata. -/
def Primitive.codes : List (String × Primitive) := [
    ("Void", void), ("Boolean", boolean), ("Char", char), ("I1", int8), ("U1", uint8),
    ("I2", int16), ("U2", uint16), ("I4", int32), ("U4", uint32), ("I8", int64),
    ("U8", uint64), ("R4", float32), ("R8", float64), ("String", string), ("Object", object),
    ("I", nativeInt), ("U", nativeUInt), ("TypedByRef", typedReference)
  ]

/-- A type as metadata writes it. -/
inductive Signature where
  | primitive (kind : Primitive)
  | reference (type : TypeReference)
  | value (type : TypeReference)
  | generic (base : Signature) (arguments : List Signature)
  /-- An array of one dimension that starts at zero. -/
  | vector (element : Signature)
  | array (element : Signature) (rank : UInt32)
  | pointer (target : Signature)
  | byReference (target : Signature)
  /-- A type parameter of the declaring type. -/
  | typeParameter (index : UInt32)
  /-- A type parameter of the declaring method. -/
  | methodParameter (index : UInt32)

namespace Signature

/-- The source spelling of a signature that names a primitive type. -/
def keyword? : Signature → Option String
  | primitive kind => some kind.keyword
  | _ => none

mutual

/-- The references of a signature, a generic base before its arguments. -/
def references : Signature → List TypeReference
  | reference type => [type]
  | value type => [type]
  | generic base arguments => references base ++ referencesOfAll arguments
  | vector element => references element
  | array element _ => references element
  | pointer target => references target
  | byReference target => references target
  | primitive _ | typeParameter _ | methodParameter _ => []

/-- The references of signatures, one signature after the other. -/
def referencesOfAll : List Signature → List TypeReference
  | [] => []
  | signature :: rest => references signature ++ referencesOfAll rest

end

end Signature

end Assembly
end AssemblyAtlas
