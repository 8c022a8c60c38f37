import AssemblyAtlas.Assembly.Module
import AssemblyAtlas.Digest

/-!
# Building modules

Modules are made step by step. The builder hands out the rows of every metadata table in turn, so
the tokens of a finished module are dense and tied together as metadata requires.

* `TypeStep` and `BuildStep` are the steps, `MethodDraft` a method before it has a token;
* `Builder.run` takes steps and fails only where one names a type that was never made;
* `Builder.build` is the finished module.
-/

namespace AssemblyAtlas
namespace Assembly

/-- A method before it has a token. -/
structure MethodDraft where
  name : String
  accessibility : Accessibility
  flags : Flags
  returns : Signature
  parameters : List Parameter
  typeParameters : List String
  locals : Option (List Signature)
  attributes : List CustomAttribute

namespace MethodDraft

/-- A public method with an empty body and without result. -/
def named (name : String) : MethodDraft where
  name := name
  accessibility := .everywhere
  flags := MethodFlag.hideBySignature
  returns := .primitive .void
  parameters := []
  typeParameters := []
  locals := some []
  attributes := []

/-- Sets flags, beside those that are set already. -/
def withFlags (draft : MethodDraft) (flags : Flags) : MethodDraft :=
  { draft with flags := draft.flags.union flags }

/-- A constructor without parameters. -/
def constructor : MethodDraft :=
  ((named ".ctor").withFlags MethodFlag.specialName).withFlags MethodFlag.runtimeSpecialName

/-- Adds a parameter. -/
def withParameter (draft : MethodDraft) (name : String) (signature : Signature) : MethodDraft :=
  { draft with parameters := draft.parameters ++ [⟨name, signature⟩] }

/-- Takes the body away. -/
def withoutBody (draft : MethodDraft) : MethodDraft :=
  { draft with locals := none }

/-- Adds a local; a method without a body gets one. -/
def withLocal (draft : MethodDraft) (signature : Signature) : MethodDraft :=
  { draft with locals := some (draft.locals.getD [] ++ [signature]) }

/-- The method with its token. -/
def define (draft : MethodDraft) (token : Token) : MethodDefinition where
  token := token
  name := draft.name
  accessibility := draft.accessibility
  flags := draft.flags
  returns := draft.returns
  parameters := draft.parameters
  typeParameters := draft.typeParameters
  locals := draft.locals
  attributes := draft.attributes

end MethodDraft

/-- A step in making a type. -/
inductive TypeStep where
  | accessibility (access : Accessibility)
  | base (signature : Signature)
  | asStruct
  | asEnum
  | asInterface
  | asDelegate (returns : Signature) (parameters : List Parameter)
  | flags (flags : Flags)
  | interface (signature : Signature)
  | typeParameter (name : String)
  | mark (mark : CustomAttribute)
  /-- Marks the type as generated by a compiler. -/
  | generated
  | field (name : String) (signature : Signature) (access : Accessibility) (flags : Flags)
  /-- A member of an enum. -/
  | constant (name : String) (value : Constant)
  | method (draft : MethodDraft)
  | property (name : String) (signature : Signature) (getter setter : Bool)
  | event (name : String) (signature : Signature)

/-- A step in making a module. -/
inductive BuildStep where
  | addType (space name : String) (steps : List TypeStep)
  | addNested (parent : Token) (name : String) (steps : List TypeStep)
  | extend (type : Token) (steps : List TypeStep)
  | reference (identity : Identity)
  | assemblyMark (mark : CustomAttribute)
  | moduleMark (mark : CustomAttribute)
  | forward (space name : String) (destination : Identity)

/-- The next free row of each member table. -/
structure MemberRows where
  field : Nat
  method : Nat
  property : Nat
  event : Nat
deriving DecidableEq

/-- A module in the making. -/
structure Builder where
  name : String
  mvid : Option Guid
  assembly : AssemblyDefinition
  location : Option String
  /-- The types made so far; the type of row one comes first. -/
  types : List TypeDefinition
  references : List Identity
  attributes : List CustomAttribute
  forwards : List ForwardedType
  rows : MemberRows

/-- A step names a type that the builder has not made. -/
structure UnknownType where
  token : Token
deriving DecidableEq

/-- The wording of the failure. -/
def UnknownType.message (unknown : UnknownType) : String :=
  "type " ++ unknown.token.display ++ " was not created by this builder"

/-- A class of the system library. -/
def systemClass (name : String) : Signature :=
  .reference (.external "System.Runtime" "System" name)

/-- A type and the next free member rows, which making the type changes. -/
structure TypeDraft where
  type : TypeDefinition
  rows : MemberRows

namespace TypeDraft

/-- Changes the type alone. -/
def change (draft : TypeDraft) (edit : TypeDefinition → TypeDefinition) : TypeDraft :=
  { draft with type := edit draft.type }

/-- Sets flags, beside those that are set already. -/
def withFlags (draft : TypeDraft) (flags : Flags) : TypeDraft :=
  draft.change fun type => { type with flags := type.flags.union flags }

/-- Sets the base type. -/
def withBase (draft : TypeDraft) (signature : Signature) : TypeDraft :=
  draft.change fun type => { type with base := some signature }

/-- The token that the next method gets. -/
def methodToken (draft : TypeDraft) : Token :=
  .ofRow .method draft.rows.method

/-- Adds a method with the next token. -/
def addMethod (draft : TypeDraft) (method : MethodDraft) : TypeDraft where
  type :=
    { draft.type with methods := draft.type.methods ++ [method.define draft.methodToken] }
  rows := { draft.rows with method := draft.rows.method + 1 }

/-- Adds a method if it is asked for, and gives its token. -/
def addAccessor
    (draft : TypeDraft)
    (asked : Bool)
    (method : MethodDraft) :
    TypeDraft × Option Token :=
  if asked then
    (draft.addMethod method, some draft.methodToken)
  else
    (draft, none)

/-- Adds a field with the next token. -/
def addField
    (draft : TypeDraft)
    (name : String)
    (signature : Signature)
    (access : Accessibility)
    (flags : Flags)
    (value : Option Constant) :
    TypeDraft where
  type :=
    { draft.type with
      fields := draft.type.fields ++
        [⟨.ofRow .field draft.rows.field, name, access, flags, signature, value, []⟩] }
  rows := { draft.rows with field := draft.rows.field + 1 }

/-- An accessor that takes the new value. -/
def valueTaker (name : String) (signature : Signature) : MethodDraft :=
  ((MethodDraft.named name).withFlags MethodFlag.specialName).withParameter "value" signature

/-- An accessor that gives the value. -/
def valueGiver (name : String) (signature : Signature) : MethodDraft :=
  { (MethodDraft.named name).withFlags MethodFlag.specialName with returns := signature }

/-- Adds a property after the accessors that are asked for. -/
def addProperty
    (draft : TypeDraft)
    (name : String)
    (signature : Signature)
    (getter setter : Bool) :
    TypeDraft :=
  let (draft, get) := draft.addAccessor getter (valueGiver ("get_" ++ name) signature)
  let (draft, set) := draft.addAccessor setter (valueTaker ("set_" ++ name) signature)
  { type :=
      { draft.type with
        properties := draft.type.properties ++
          [⟨.ofRow .property draft.rows.property, name, signature, get, set, []⟩] }
    rows := { draft.rows with property := draft.rows.property + 1 } }

/-- Adds an event after its two accessors. -/
def addEvent (draft : TypeDraft) (name : String) (signature : Signature) : TypeDraft :=
  let (draft, add) := draft.addAccessor true (valueTaker ("add_" ++ name) signature)
  let (draft, remove) := draft.addAccessor true (valueTaker ("remove_" ++ name) signature)
  { type :=
      { draft.type with
        events := draft.type.events ++
          [⟨.ofRow .event draft.rows.event, name, signature, add, remove, []⟩] }
    rows := { draft.rows with event := draft.rows.event + 1 } }

/-- The method by which a delegate is called. -/
def invocation (returns : Signature) (parameters : List Parameter) : MethodDraft :=
  { ((MethodDraft.named "Invoke").withFlags
      (MethodFlag.virtual.union MethodFlag.newSlot)).withoutBody with
    returns := returns
    parameters := parameters }

/-- Takes one step. -/
def step (draft : TypeDraft) : TypeStep → TypeDraft
  | .accessibility access => draft.change fun type => { type with accessibility := access }
  | .base signature => draft.withBase signature
  | .asStruct => (draft.withBase (systemClass "ValueType")).withFlags TypeFlag.sealed
  | .asEnum => (draft.withBase (systemClass "Enum")).withFlags TypeFlag.sealed
  | .asInterface =>
      (draft.change fun type => { type with base := none }).withFlags
        (TypeFlag.interface.union TypeFlag.abstract)
  | .asDelegate returns parameters =>
      ((draft.withBase (systemClass "MulticastDelegate")).withFlags TypeFlag.sealed).addMethod
        (invocation returns parameters)
  | .flags flags => draft.withFlags flags
  | .interface signature =>
      draft.change fun type => { type with interfaces := type.interfaces ++ [signature] }
  | .typeParameter name =>
      draft.change fun type => { type with typeParameters := type.typeParameters ++ [name] }
  | .mark mark => draft.change fun type => { type with attributes := type.attributes ++ [mark] }
  | .generated =>
      draft.change fun type =>
        { type with
          attributes := type.attributes ++
            [.external "System.Runtime" "System.Runtime.CompilerServices"
              "CompilerGeneratedAttribute"] }
  | .field name signature access flags => draft.addField name signature access flags none
  | .constant name value =>
      draft.addField name (.value (.definition draft.type.token)) .everywhere
        ((FieldFlag.static.union FieldFlag.literal).union FieldFlag.hasDefault) (some value)
  | .method method => draft.addMethod method
  | .property name signature getter setter => draft.addProperty name signature getter setter
  | .event name signature => draft.addEvent name signature

end TypeDraft

namespace Builder

/-- The type that holds what stands outside all types. -/
def moduleType : TypeDefinition :=
  { TypeDefinition.bare (.ofRow .typeDefinition 1) "" "<Module>" with accessibility := .assembly }

/-- A module with the type of row one only. -/
def new (name : String) (identity : Identity) : Builder where
  name := name
  mvid := none
  assembly := ⟨identity, []⟩
  location := none
  types := [moduleType]
  references := []
  attributes := []
  forwards := []
  rows := ⟨1, 1, 1, 1⟩

/-- The place of a type among those made so far. -/
def place? (builder : Builder) (token : Token) : Option Nat :=
  if token.isTypeDefinition ∧ token.row - 1 < builder.types.length then
    some (token.row - 1)
  else
    none

/-- The token that the next type gets. -/
def nextToken (builder : Builder) : Token :=
  .ofRow .typeDefinition (builder.types.length + 1)

/-- Takes steps on a type that was made before. -/
def extend
    (builder : Builder)
    (token : Token)
    (steps : List TypeStep) :
    Except UnknownType Builder :=
  match (builder.place? token).bind fun place => (builder.types[place]?).map (place, ·) with
  | none => .error ⟨token⟩
  | some (place, type) =>
      let draft := steps.foldl TypeDraft.step ⟨type, builder.rows⟩
      .ok { builder with types := builder.types.set place draft.type, rows := draft.rows }

/-- Notes a nested type with its parent, if the parent was made before. -/
def noteNested (builder : Builder) (parent token : Token) : Builder :=
  match builder.place? parent with
  | none => builder
  | some place =>
      let note (type : TypeDefinition) := { type with nested := type.nested ++ [token] }
      { builder with types := builder.types.modify place note }

/-- Takes one step. -/
def step (builder : Builder) : BuildStep → Except UnknownType Builder
  | .addType space name steps =>
      let token := builder.nextToken
      let type := TypeDefinition.bare token space name
      { builder with types := builder.types ++ [type] }.extend token steps
  | .addNested parent name steps =>
      let token := builder.nextToken
      let type :=
        { TypeDefinition.bare token "" name with
          accessibility := .ownType, enclosing := some parent }
      ({ builder with types := builder.types ++ [type] }.noteNested parent token).extend token steps
  | .extend token steps => builder.extend token steps
  | .reference identity => .ok { builder with references := builder.references ++ [identity] }
  | .assemblyMark mark =>
      .ok { builder with
        assembly :=
          { builder.assembly with attributes := builder.assembly.attributes ++ [mark] } }
  | .moduleMark mark => .ok { builder with attributes := builder.attributes ++ [mark] }
  | .forward space name destination =>
      .ok { builder with forwards := builder.forwards ++ [⟨space, name, destination⟩] }

/-- Takes steps until one fails. -/
def run (builder : Builder) (steps : List BuildStep) : Except UnknownType Builder :=
  steps.foldlM step builder

/-- The identifier of a module that was not given one: the beginning of the digest of its name and
its assembly's display name. -/
def defaultMvid (builder : Builder) : Guid :=
  .ofBytes (Digest.sha1
    ((builder.name ++ builder.assembly.identity.display).toUTF8.toList))

/-- The finished module. -/
def build (builder : Builder) : Module where
  name := builder.name
  mvid := builder.mvid.getD builder.defaultMvid
  assembly := some builder.assembly
  location := builder.location
  types := .ofList builder.types
  references := builder.references
  attributes := builder.attributes
  forwards := builder.forwards

end Builder

end Assembly
end AssemblyAtlas
