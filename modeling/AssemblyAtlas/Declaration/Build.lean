import AssemblyAtlas.Declaration.Hidden
import AssemblyAtlas.Declaration.Spelling
import AssemblyAtlas.Syntax.Transform

/-!
# Declarations from definitions

Type definitions become the syntax tree of a source file. A declaration holds the nested types,
fields, properties, events and methods of its definition, in this order; hidden definitions and
accessor methods are left out. Bodies are made from the types of the locals.

* `Decompiler.typeNode?` builds the declaration of a type;
* `Decompiler.types` builds the source file of some types, `Decompiler.assemblyMarks` that of the
  attributes of assembly and module.
-/

namespace AssemblyAtlas
namespace Declaration

open Assembly
open Syntax
open Text

/-- The modifiers of a type. -/
def typeModifiers (type : TypeDefinition) : List String :=
  let access :=
    if type.isNested then
      type.accessibility.keyword
    else if type.accessibility = .everywhere then
      "public"
    else
      "internal"
  let inheritance :=
    match type.kind, type.flags.has TypeFlag.abstract, type.flags.has TypeFlag.sealed with
    | .classType, true, true => ["static"]
    | .classType, true, false => ["abstract"]
    | .classType, false, true => ["sealed"]
    | _, _, _ => []
  access :: inheritance

/-- How a method overrides or may be overridden. -/
def overriding (flags : Flags) : List String :=
  if flags.has MethodFlag.abstract then
    ["abstract"]
  else if !flags.has MethodFlag.virtual then
    []
  else if flags.has MethodFlag.newSlot then
    if flags.has MethodFlag.final then [] else ["virtual"]
  else if flags.has MethodFlag.final then
    ["sealed", "override"]
  else
    ["override"]

/-- The modifiers of a method; in an interface, access and overriding are understood. -/
def methodModifiers (inInterface : Bool) (method : MethodDefinition) : List String :=
  let access := if inInterface then [] else [method.accessibility.keyword]
  let storage := if method.isStatic then ["static"] else []
  let outside := if method.flags.has MethodFlag.platformInvoke then ["extern"] else []
  access ++ storage ++ outside ++ if inInterface then [] else overriding method.flags

/-- The modifiers of a field. -/
def fieldModifiers (field : FieldDefinition) : List String :=
  let storage :=
    if field.flags.has FieldFlag.literal then
      ["const"]
    else
      (if field.flags.has FieldFlag.static then ["static"] else [])
        ++ if field.flags.has FieldFlag.initOnly then ["readonly"] else []
  field.accessibility.keyword :: storage

/-- The signature is that of the root of all classes. -/
def isRootClass : Signature → Bool
  | .primitive .object => true
  | .reference (.external _ "System" "Object") => true
  | _ => false

/-- The signature is that of the usual integers. -/
def isUsualInteger : Signature → Bool
  | .primitive .int32 => true
  | _ => false

/-- What makes source files of a module: its type system, the settings, the changes made to every
tree, and whether bodies are left out. -/
structure Decompiler where
  system : TypeSystem
  settings : Settings
  transforms : List Transform
  signaturesOnly : Bool

namespace Decompiler

/-- A decompiler that makes bodies, drops the claim of compliance, and escapes names. -/
def new (system : TypeSystem) (settings : Settings) : Decompiler :=
  ⟨system, settings, [.dropCompliance, .escape], false⟩

/-- Makes a further change to every tree. -/
def withTransform (decompiler : Decompiler) (transform : Transform) : Decompiler :=
  { decompiler with transforms := decompiler.transforms ++ [transform] }

variable (decompiler : Decompiler)

/-- The module that is decompiled. -/
def module : Module :=
  decompiler.system.main

/-- The locals and the statement that ends every body. -/
def statements (scope : Scope) (locals : List Signature) : List Statement :=
  locals.zipIdx.map (fun numbered =>
    .declareLocal (decompiler.system.typeNode scope numbered.1)
      ("V_" ++ String.ofList (decimal numbered.2)))
    ++ [.throwNull]

/-- The body of a method, if it has one that is to be shown. -/
def body (scope : Scope) (method : MethodDefinition) : Body :=
  if decompiler.signaturesOnly || method.flags.has MethodFlag.abstract then
    none
  else
    method.locals.map (decompiler.statements scope)

/-- The parameters of a method. -/
def parameters (scope : Scope) (method : MethodDefinition) : List ParameterNode :=
  method.parameters.map fun parameter =>
    ⟨decompiler.system.typeNode scope parameter.signature, parameter.name⟩

/-- The base types that a declaration shows: the base class, unless it is the root of all classes;
the interfaces; for an enum the integers that it is made of, unless they are the usual ones. -/
def bases (type : TypeDefinition) : List TypeNode :=
  let scope := Scope.type type
  let interfaces := decompiler.system.typeNodes scope type.interfaces
  match type.kind with
  | .classType =>
      let base := type.base.filter (!isRootClass ·)
      decompiler.system.typeNodes scope base.toList ++ interfaces
  | .enumType =>
      let value := (type.fields.find? (·.name = "value__")).map (·.signature)
      decompiler.system.typeNodes scope (value.filter (!isUsualInteger ·)).toList
  | .delegateType => []
  | .structType | .interfaceType => interfaces

/-- The signature of a delegate, that of its method for calls. -/
def delegate (type : TypeDefinition) : Option DelegateNode :=
  if type.kind = .delegateType then
    (type.methods.find? (·.name = "Invoke")).map fun invoke =>
      let scope := (Scope.type type).method invoke
      ⟨decompiler.system.typeNode scope invoke.returns, decompiler.parameters scope invoke⟩
  else
    none

/-- The declaration of a type without its members. -/
def typeHead (symbol : SymbolKey) (type : TypeDefinition) : TypeHead where
  symbol := symbol
  token := type.token
  kind := type.kind
  modifiers := typeModifiers type
  name := type.simpleName
  typeParameters := type.typeParameters
  bases := decompiler.bases type
  marks := decompiler.system.marks type.attributes
  delegate := decompiler.delegate type

/-- The declaration of a field; an enum shows its constants only, and of constants the value is
shown. -/
def fieldNode?
    (symbol : SymbolKey)
    (type : TypeDefinition)
    (field : FieldDefinition) :
    Option Node :=
  let scope := Scope.type type
  let value := field.constant.map (decompiler.system.expression scope)
  let literal := field.flags.has FieldFlag.literal
  let symbol := symbol.memberKey .field field.name
  let marks := decompiler.system.marks field.attributes
  if fieldHidden decompiler.settings.concealment field then
    none
  else if type.kind = .enumType then
    if literal then
      some (.enumMember ⟨symbol, field.name, value, marks⟩)
    else
      none
  else
    some (.field
      { symbol := symbol
        modifiers := fieldModifiers field
        type := decompiler.system.typeNode scope field.signature
        name := field.name
        value := value.filter fun _ => literal
        marks := marks })

/-- The accessor that a method is. -/
def accessor (scope : Scope) (method : MethodDefinition) : Accessor :=
  ⟨decompiler.body scope method⟩

/-- The declaration of a property that has at least one accessor. -/
def propertyNode?
    (symbol : SymbolKey)
    (type : TypeDefinition)
    (property : PropertyDefinition) :
    Option Node :=
  let scope := Scope.type type
  let getter := property.getter.bind type.method?
  let setter := property.setter.bind type.method?
  (getter.or setter).map fun primary =>
    .property
      { symbol := symbol.memberKey .property property.name
        modifiers := methodModifiers (type.kind = .interfaceType) primary
        type := decompiler.system.typeNode scope property.signature
        name := property.name
        getter := getter.map (decompiler.accessor scope)
        setter := setter.map (decompiler.accessor scope)
        marks := decompiler.system.marks property.attributes }

/-- The declaration of an event. -/
def eventNode (symbol : SymbolKey) (type : TypeDefinition) (event : EventDefinition) : Node :=
  .event
    { symbol := symbol.memberKey .event event.name
      modifiers :=
        ((event.adder.bind type.method?).map
          (methodModifiers (type.kind = .interfaceType))).getD []
      type := decompiler.system.typeNode (Scope.type type) event.signature
      name := event.name
      marks := decompiler.system.marks event.attributes }

/-- The declaration of a method that is neither an accessor nor hidden. -/
def methodNode?
    (symbol : SymbolKey)
    (type : TypeDefinition)
    (method : MethodDefinition) :
    Option Node :=
  let scope := (Scope.type type).method method
  if type.isAccessor method.token || methodHidden decompiler.settings.concealment method then
    none
  else
    some (.method
      { symbol := symbol.memberKey .method method.name
        modifiers :=
          if method.name = ".cctor" then
            ["static"]
          else
            methodModifiers (type.kind = .interfaceType) method
        returns :=
          if method.isConstructor then
            none
          else
            some (decompiler.system.typeNode scope method.returns)
        name := if method.isConstructor then type.simpleName else method.name
        typeParameters := method.typeParameters
        parameters := decompiler.parameters scope method
        body := decompiler.body scope method
        marks := decompiler.system.marks method.attributes })

/-- The declarations of the members of a type that are not types. -/
def memberNodes (symbol : SymbolKey) (type : TypeDefinition) : List Node :=
  type.fields.filterMap (decompiler.fieldNode? symbol type)
    ++ type.properties.filterMap (decompiler.propertyNode? symbol type)
    ++ type.events.map (decompiler.eventNode symbol type)
    ++ type.methods.filterMap (decompiler.methodNode? symbol type)

/-- The definition of a nested type. A missing one is an error, unless bodies are left out: then as
much of the type is shown as there is. -/
def nestedType? (token : Token) : Except Failure (Option TypeDefinition) :=
  match decompiler.module.type? token with
  | some type =>
      .ok (if typeHidden decompiler.settings.concealment type then none else some type)
  | none =>
      if decompiler.signaturesOnly then
        .ok none
      else
        .error (.typeNotFound token)

/-- The declaration of a type with at most the given depth of nested types. The program has no such
limit. Where it is exceeded, nested types lead back to themselves, and the program does not return;
`endlessNesting` stands for that. -/
def typeNode? : (depth : Nat) → TypeDefinition → Except Failure Node
  | 0, type => .error (.endlessNesting type.token)
  | depth + 1, type =>
      match decompiler.module.typeKey? type.token with
      | none => .error (.typeNotFound type.token)
      | some symbol => do
          let head := decompiler.typeHead symbol type
          if type.kind = .delegateType then
            return .type head []
          else
            let nested ← type.nested.mapM fun token => do
              match ← decompiler.nestedType? token with
              | none => return none
              | some inner => return some (← typeNode? depth inner)
            return .type head (nested.filterMap id ++ decompiler.memberNodes symbol type)

/-- The namespace and the declaration of the type with a token. Types nested more deeply than there
are types come back to themselves. -/
def declaration? (token : Token) : Except Failure (String × Node) :=
  match decompiler.module.typePath? token with
  | none => .error (.typeNotFound token)
  | some path =>
      match path.getLast? with
      | none => .error (.typeNotFound token)
      | some type => do
          let node ← decompiler.typeNode? (decompiler.module.types.size + 1) type
          return (Module.pathSpace path, node)

/-- Puts the declarations of a namespace together. -/
def spaceNode (declarations : List (String × Node)) (space : String) : Node :=
  .space space (declarations.filterMap fun declaration =>
    if declaration.1 = space then some declaration.2 else none)

/-- The declarations of a source file: those outside all namespaces come first, then the namespaces
in the order of their first types. -/
def arranged (declarations : List (String × Node)) : List Node :=
  let spaces := (declarations.map (·.1)).filter (· ≠ "")
  let outside := declarations.filterMap fun declaration =>
    if declaration.1 = "" then some declaration.2 else none
  outside ++ spaces.eraseDups.map (spaceNode declarations)

/-- The source file of types, or what goes wrong at the first that fails. -/
def types (cancelled : Bool) (tokens : List Token) : Except Failure SourceUnit := do
  let declarations ← tokens.mapM fun token =>
    if cancelled then .error .cancelled else decompiler.declaration? token
  return Transform.runAll decompiler.transforms ⟨[], arranged declarations⟩

/-- The attribute that states the version of an assembly. -/
def versionMark (version : Version) : CustomAttribute :=
  { CustomAttribute.external "System.Runtime" "System.Reflection" "AssemblyVersionAttribute" with
    arguments := [.string version.display] }

/-- The attributes of the assembly, with its version. -/
def assemblyCustoms : List CustomAttribute :=
  let module := decompiler.module
  let customs := module.assemblyAttributes
  if module.assembly.isSome
      ∧ !hasAttribute customs "System.Reflection" "AssemblyVersionAttribute" then
    [versionMark module.identity.version]
  else
    []

/-- The source file of the attributes of assembly and module. -/
def assemblyMarks : SourceUnit :=
  let module := decompiler.module
  let mark (target : String) := decompiler.system.mark (some target)
  Transform.runAll decompiler.transforms
    ⟨module.assemblyAttributes.map (mark "assembly") ++ module.attributes.map (mark "module")
      ++ decompiler.assemblyCustoms.map (mark "assembly"), []⟩

end Decompiler

end Declaration
end AssemblyAtlas
