import AssemblyAtlas.Proofs.Assembly.Ascent
import AssemblyAtlas.Proofs.Declaration.KeptReferences
import AssemblyAtlas.Proofs.Declaration.SeveralTypes
import AssemblyAtlas.Proofs.Declaration.SourceNames
import AssemblyAtlas.Proofs.Declaration.TypeNodes

/-!
# Where the names in a tree come from

Every type that a tree names outside attributes and values was spelled from a signature, so its name
is that of a reference. Every type that a tree declares stands in the namespace of its path, behind
declarations of types of its path.

* `IsSpelled` are the types that come from signatures, and `allSpelled_typeNode?` is about the
  declaration of a type;
* `DeclaredAt` is about a declared type and its path, and `declaredAt_of_mem_headings` about those of
  a declaration;
* `exists_reference_of_mem_mentions` and `exists_path_of_mem_headings` are about whole trees.
-/

namespace AssemblyAtlas
namespace Declaration

open Assembly
open Syntax

/-! ## Types that are spelled from signatures -/

namespace TypeSystem

variable (system : TypeSystem)

theorem typeNodes_eq_map
    (scope : Scope)
    (signatures : List Signature) :
    system.typeNodes scope signatures = signatures.map (system.typeNode scope) := by
  induction signatures with
  | nil => rfl
  | cons signature rest ih => rw [typeNodes, ih, List.map_cons]

/-- The name is that of a reference, and the definition is the one behind it. -/
def Refers (mention : Mention) : Prop :=
  ∃ reference, mention = ⟨system.referenceName reference, system.resolve reference⟩

/-- A signature names what it refers to. -/
theorem refers_of_mem_typeNode
    (scope : Scope)
    (signature : Signature) :
    ∀ mention ∈ (system.typeNode scope signature).mentions, system.Refers mention := by
  intro mention named
  obtain ⟨reference, -, rfl⟩ :=
    List.mem_map.1 ((system.mentions_sublist scope signature).subset named)
  exact ⟨reference, rfl⟩

/-- The type comes from a signature. -/
def IsSpelled (type : TypeNode) : Prop :=
  ∃ scope signature, type = system.typeNode scope signature

variable {system}

theorem isSpelled_of_mem_typeNodes
    {scope : Scope}
    {signatures : List Signature} :
    ∀ type ∈ system.typeNodes scope signatures, system.IsSpelled type := by
  rw [typeNodes_eq_map, List.forall_mem_map]
  exact fun signature _ => ⟨scope, signature, rfl⟩

end TypeSystem

namespace Decompiler

variable {decompiler : Decompiler}

/-- All types of the list come from signatures. -/
def AllSpelled (decompiler : Decompiler) (types : List TypeNode) : Prop :=
  ∀ type ∈ types, decompiler.system.IsSpelled type

theorem allSpelled_nil :
    decompiler.AllSpelled [] :=
  List.forall_mem_nil _

theorem allSpelled_append
    {left right : List TypeNode} :
    decompiler.AllSpelled (left ++ right)
      ↔ decompiler.AllSpelled left ∧ decompiler.AllSpelled right :=
  List.forall_mem_append

theorem allSpelled_body
    {scope : Scope}
    {method : MethodDefinition} :
    decompiler.AllSpelled (Body.shownTypes (decompiler.body scope method)) := by
  rw [body]
  split
  · exact allSpelled_nil
  · cases method.locals with
    | none => exact allSpelled_nil
    | some locals =>
        intro type inside
        obtain ⟨statement, isStatement, shown⟩ := List.mem_flatMap.1 inside
        rcases List.mem_append.1 isStatement with declared | ending
        · obtain ⟨numbered, -, rfl⟩ := List.mem_map.1 declared
          exact ⟨scope, numbered.1, List.mem_singleton.1 shown⟩
        · rw [List.mem_singleton.1 ending] at shown
          cases shown

theorem allSpelled_parameters
    {scope : Scope}
    {method : MethodDefinition} :
    decompiler.AllSpelled (ParameterNode.shownTypes (decompiler.parameters scope method)) := by
  rw [AllSpelled, ParameterNode.shownTypes, parameters, List.map_map, List.forall_mem_map]
  exact fun parameter _ => ⟨scope, parameter.signature, rfl⟩

theorem allSpelled_bases
    {type : TypeDefinition} :
    decompiler.AllSpelled (decompiler.bases type) := by
  rw [bases]
  cases type.kind with
  | delegateType => exact allSpelled_nil
  | classType =>
      exact allSpelled_append.2
        ⟨TypeSystem.isSpelled_of_mem_typeNodes, TypeSystem.isSpelled_of_mem_typeNodes⟩
  | _ => exact TypeSystem.isSpelled_of_mem_typeNodes

theorem allSpelled_typeHead
    {symbol : SymbolKey}
    {type : TypeDefinition} :
    decompiler.AllSpelled (decompiler.typeHead symbol type).shownTypes := by
  refine allSpelled_append.2 ⟨allSpelled_bases, ?_⟩
  rw [typeHead, delegate]
  split
  · cases type.methods.find? (·.name = "Invoke") with
    | none => exact allSpelled_nil
    | some invoke => exact List.forall_mem_cons.2 ⟨⟨_, _, rfl⟩, allSpelled_parameters⟩
  · exact allSpelled_nil

theorem allSpelled_accessor
    {scope : Scope}
    {method : Option MethodDefinition} :
    decompiler.AllSpelled (Accessor.shownTypes (method.map (decompiler.accessor scope))) := by
  cases method with
  | none => exact allSpelled_nil
  | some method => exact allSpelled_body

/-- A member that is no type, and shows types from signatures only. -/
inductive SpelledMember (decompiler : Decompiler) : Node → Prop
  | enumMember (declaration : EnumMemberNode) :
      SpelledMember decompiler (.enumMember declaration)
  | field {declaration : FieldNode} :
      decompiler.system.IsSpelled declaration.type →
      SpelledMember decompiler (.field declaration)
  | property {declaration : PropertyNode} :
      decompiler.AllSpelled declaration.shownTypes →
      SpelledMember decompiler (.property declaration)
  | event {declaration : EventNode} :
      decompiler.system.IsSpelled declaration.type →
      SpelledMember decompiler (.event declaration)
  | method {declaration : MethodNode} :
      decompiler.AllSpelled declaration.shownTypes →
      SpelledMember decompiler (.method declaration)

/-- What a type shows besides nested types are members with types from signatures. -/
theorem spelledMember_of_mem_memberNodes
    {symbol : SymbolKey}
    {type : TypeDefinition}
    {node : Node}
    (member : node ∈ decompiler.memberNodes symbol type) :
    decompiler.SpelledMember node := by
  simp only [memberNodes, List.mem_append, List.mem_filterMap, List.mem_map] at member
  obtain ((⟨_, -, shown⟩ | ⟨_, -, shown⟩) | ⟨_, -, rfl⟩) | ⟨_, -, shown⟩ := member
  · simp only [fieldNode?] at shown
    split at shown
    · cases shown
    · split at shown
      · split at shown
        · exact Option.some.inj shown ▸ .enumMember _
        · cases shown
      · exact Option.some.inj shown ▸ .field ⟨_, _, rfl⟩
  · obtain ⟨primary, -, rfl⟩ := Option.map_eq_some_iff.1 shown
    refine .property ?_
    rw [PropertyNode.shownTypes, List.cons_append]
    exact List.forall_mem_cons.2
      ⟨⟨_, _, rfl⟩, allSpelled_append.2 ⟨allSpelled_accessor, allSpelled_accessor⟩⟩
  · exact .event ⟨_, _, rfl⟩
  · simp only [methodNode?] at shown
    split at shown
    · cases shown
    · obtain rfl := Option.some.inj shown
      refine .method (allSpelled_append.2 ⟨allSpelled_append.2 ⟨?_, allSpelled_parameters⟩,
        allSpelled_body⟩)
      dsimp only
      split
      · exact allSpelled_nil
      · exact List.forall_mem_singleton.2 ⟨_, _, rfl⟩

namespace SpelledMember

variable {node : Node}

theorem allSpelled (member : decompiler.SpelledMember node) :
    decompiler.AllSpelled node.shownTypes := by
  cases member with
  | enumMember _ => exact allSpelled_nil
  | field spelled => exact List.forall_mem_singleton.2 spelled
  | property spelled => exact spelled
  | event spelled => exact List.forall_mem_singleton.2 spelled
  | method spelled => exact spelled

/-- Members that are no types declare no types. -/
theorem headings_eq_nil
    (member : decompiler.SpelledMember node)
    (space : String)
    (around : List String) :
    node.headings space around = [] := by
  cases member <;> rfl

end SpelledMember

/-! ## Members of built declarations -/

/-- A nested type that is shown is in the module. -/
theorem type?_of_nestedType?
    {token : Token}
    {inner : TypeDefinition}
    (found : decompiler.nestedType? token = .ok (some inner)) :
    decompiler.module.type? token = some inner := by
  rw [nestedType?] at found
  split at found
  · next type known =>
      split at found
      · exact absurd (Except.ok.inj found) (Option.some_ne_none _).symm
      · rw [known, Except.ok.inj found]
  · split at found
    · exact absurd (Except.ok.inj found) (Option.some_ne_none _).symm
    · exact absurd found.symm Success.ok_ne_error

/-- A member of a built declaration is that of a nested type or one of the other members. -/
theorem exists_of_mem_members
    {depth : Nat}
    {symbol : SymbolKey}
    {type : TypeDefinition}
    {nested : List (Option Node)}
    (each : List.Forall₂ (decompiler.NestedNode depth) type.nested nested)
    {node : Node}
    (member : node ∈ nested.filterMap id ++ decompiler.memberNodes symbol type) :
    (∃ token ∈ type.nested, ∃ inner, decompiler.module.type? token = some inner
        ∧ decompiler.typeNode? depth inner = .ok node)
      ∨ node ∈ decompiler.memberNodes symbol type := by
  rcases List.mem_append.1 member with inside | own
  · obtain ⟨result, isResult, same⟩ := List.mem_filterMap.1 inside
    obtain rfl : result = some node := same
    obtain ⟨token, listed, made⟩ := Success.exists_element each isResult
    cases made with
    | shown found built => exact .inl ⟨token, listed, _, type?_of_nestedType? found, built⟩
  · exact .inr own

/-- The declaration of a type shows types from signatures only. -/
theorem allSpelled_typeNode?
    {depth : Nat}
    {type : TypeDefinition}
    {node : Node}
    (built : decompiler.typeNode? depth type = .ok node) :
    decompiler.AllSpelled node.shownTypes := by
  induction depth generalizing type node with
  | zero => cases built
  | succ depth ih =>
      obtain ⟨symbol, -, ⟨-, rfl⟩ | ⟨-, nested, each, rfl⟩⟩ := typeNode?_succ_eq_ok_iff.1 built
      · rw [Node.shownTypes, Node.shownTypesOfAll, List.append_nil]
        exact allSpelled_typeHead
      · refine allSpelled_append.2 ⟨allSpelled_typeHead, fun shown inside => ?_⟩
        obtain ⟨member, isMember, inside⟩ := Node.mem_shownTypesOfAll.1 inside
        rcases exists_of_mem_members each isMember with ⟨_, -, inner, -, isInner⟩ | own
        · exact ih isInner shown inside
        · exact (spelledMember_of_mem_memberNodes own).allSpelled shown inside

/-! ## Declared types and their paths -/

/-- The declared type stands in the namespace of its path. The names around it and its own are the
last ones of the path. -/
structure DeclaredAt (module : Module) (heading : Heading) (path : List TypeDefinition) : Prop where
  isPath : module.typePath? heading.token = some path
  space : heading.space = Module.pathSpace path
  named : heading.names ≠ []
  names : heading.names <:+ path.map (·.simpleName)

/-- Types that are declared in the declaration of a type have the types around them in their paths,
where types list what stands in them only. -/
theorem declaredAt_of_mem_headings
    {depth : Nat}
    {type : TypeDefinition}
    {node : Node}
    (built : decompiler.typeNode? depth type = .ok node)
    (own : ListsOwn decompiler.module.types.entries)
    {path : List TypeDefinition}
    (member : type ∈ decompiler.module.types.entries)
    (ascends : decompiler.module.Ascends type path)
    {around : List String}
    (names : around ++ [type.simpleName] <:+ path.map (·.simpleName))
    {heading : Heading}
    (inside : heading ∈ node.headings (Module.pathSpace path) around) :
    ∃ path, DeclaredAt decompiler.module heading path := by
  induction depth generalizing type node path around with
  | zero => cases built
  | succ depth ih =>
      have here : DeclaredAt decompiler.module
          ⟨type.token, Module.pathSpace path, around ++ [type.simpleName]⟩ path :=
        ⟨Module.typePath?_eq_some_iff.2 ⟨type, Module.type?_token member, ascends⟩, rfl,
          by simp, names⟩
      obtain ⟨symbol, -, ⟨-, rfl⟩ | ⟨-, nested, each, rfl⟩⟩ := typeNode?_succ_eq_ok_iff.1 built
      · obtain rfl := List.mem_singleton.1 inside
        exact ⟨path, here⟩
      · rcases List.mem_cons.1 inside with rfl | below
        · exact ⟨path, here⟩
        · obtain ⟨node, isMember, inside⟩ := Node.mem_headingsOfAll.1 below
          rcases exists_of_mem_members each isMember with
            ⟨token, listed, inner, known, isInner⟩ | isOther
          · have climbs := ascends.listed own member listed known
            refine ih isInner (TypeTable.mem_of_find? known) climbs ?_
              (Module.pathSpace_append ascends.ne_nil [inner] ▸ inside)
            obtain ⟨front, whole⟩ := names
            refine ⟨front, ?_⟩
            rw [List.map_append, ← whole, List.append_assoc front]
            rfl
          · rw [(spelledMember_of_mem_memberNodes isOther).headings_eq_nil] at inside
            cases inside

/-- Each declaration of an arranged file stands in its own namespace. -/
theorem exists_of_mem_headings_arranged
    {declarations : List (String × Node)}
    {heading : Heading}
    (inside : heading ∈ Node.headingsOfAll "" [] (arranged declarations)) :
    ∃ declaration ∈ declarations, heading ∈ declaration.2.headings declaration.1 [] := by
  have chosen {space : String} {node : Node}
      (isMember : node ∈ declarations.filterMap fun declaration =>
        if declaration.1 = space then some declaration.2 else none)
      (declared : heading ∈ node.headings space []) :
      ∃ declaration ∈ declarations, heading ∈ declaration.2.headings declaration.1 [] := by
    obtain ⟨declaration, isDeclaration, same⟩ := List.mem_filterMap.1 isMember
    split at same
    · next here =>
        obtain rfl := Option.some.inj same
        exact ⟨declaration, isDeclaration, here ▸ declared⟩
    · cases same
  obtain ⟨node, isNode, declared⟩ := Node.mem_headingsOfAll.1 inside
  rcases List.mem_append.1 isNode with outside | isSpace
  · exact chosen outside declared
  · obtain ⟨space, -, rfl⟩ := List.mem_map.1 isSpace
    rw [spaceNode, Node.headings, qualified, if_pos rfl] at declared
    obtain ⟨member, isMember, declared⟩ := Node.mem_headingsOfAll.1 declared
    exact chosen isMember declared

/-! ## Whole trees -/

section Trees

variable {system : TypeSystem} {settings : Settings} {signaturesOnly cancelled : Bool}
variable {tokens : List Token} {tree : SourceUnit}

theorem exists_declarations
    (built : (standard system settings signaturesOnly).types cancelled tokens = .ok tree) :
    ∃ declarations : List (String × Node),
      (∀ declaration ∈ declarations, ∃ token,
        (standard system settings signaturesOnly).declaration? token = .ok declaration)
      ∧ tree = Transform.runAll [.dropCompliance, .escape] ⟨[], arranged declarations⟩ := by
  obtain ⟨declarations, each, rfl⟩ :=
    (types_eq_ok_iff system settings signaturesOnly tokens tree).1 (types_of_cancelled built)
  refine ⟨declarations, fun declaration isDeclaration => ?_, (Transform.runAll_standard _).symm⟩
  obtain ⟨token, -, made⟩ := Success.exists_element each isDeclaration
  exact ⟨token, made⟩

/-- What a tree names has the name of a reference, with identifiers in place of its parts. -/
theorem exists_reference_of_mem_mentions
    (built : (standard system settings signaturesOnly).types cancelled tokens = .ok tree)
    {mention : Mention}
    (inside : mention ∈ tree.mentions) :
    ∃ reference, mention
      = ⟨dottedIdentifier (system.referenceName reference), system.resolve reference⟩ := by
  obtain ⟨declarations, made, rfl⟩ := exists_declarations built
  rw [SourceUnit.mentions_polished] at inside
  obtain ⟨plain, named, rfl⟩ := List.mem_map.1 inside
  obtain ⟨type, shown, named⟩ := TypeNode.mem_mentionsOfAll.1 named
  obtain ⟨node, isNode, shown⟩ := Node.mem_shownTypesOfAll.1 shown
  -- The type is shown by one of the declarations, alone or in a namespace.
  obtain ⟨declaration, isDeclaration, shown⟩ :
      ∃ declaration ∈ declarations, type ∈ declaration.2.shownTypes := by
    rcases of_mem_arranged isNode with
      ⟨declaration, isDeclaration, rfl⟩ | ⟨name, members, rfl, from_declarations⟩
    · exact ⟨declaration, isDeclaration, shown⟩
    · obtain ⟨member, isMember, shown⟩ := Node.mem_shownTypesOfAll.1 shown
      obtain ⟨declaration, isDeclaration, rfl⟩ := from_declarations member isMember
      exact ⟨declaration, isDeclaration, shown⟩
  obtain ⟨token, made⟩ := made declaration isDeclaration
  obtain ⟨-, definition, -, -, built, -⟩ := declaration?_eq_ok_iff.1 made
  obtain ⟨scope, signature, rfl⟩ := allSpelled_typeNode? built type shown
  obtain ⟨reference, rfl⟩ := system.refers_of_mem_typeNode scope signature plain named
  exact ⟨reference, rfl⟩

/-- What a tree declares stands in the namespace of its path, as it is, with identifiers in place of
the names of its path. -/
theorem exists_path_of_mem_headings
    (own : ListsOwn system.main.types.entries)
    (built : (standard system settings signaturesOnly).types cancelled tokens = .ok tree)
    {heading : Heading}
    (inside : heading ∈ tree.headings) :
    ∃ plain path, heading = plain.rename identifier ∧ DeclaredAt system.main plain path := by
  obtain ⟨declarations, made, rfl⟩ := exists_declarations built
  rw [SourceUnit.headings_polished] at inside
  obtain ⟨plain, declared, rfl⟩ := List.mem_map.1 inside
  obtain ⟨declaration, isDeclaration, declared⟩ := exists_of_mem_headings_arranged declared
  obtain ⟨token, made⟩ := made declaration isDeclaration
  obtain ⟨path, type, found, known, built, space⟩ := declaration?_eq_ok_iff.1 made
  obtain ⟨other, same, ascends⟩ := Module.typePath?_eq_some_iff.1 found
  obtain rfl := Option.some.inj (same.symm.trans known)
  rw [space] at declared
  have names : [] ++ [other.simpleName] <:+ path.map (·.simpleName) := by
    obtain ⟨front, rfl⟩ := ascends.exists_append
    rw [List.map_append]
    exact List.suffix_append _ _
  obtain ⟨whole, declares⟩ :=
    declaredAt_of_mem_headings built own (TypeTable.mem_of_find? known) ascends names declared
  exact ⟨plain, whole, rfl, declares⟩

end Trees

end Decompiler

end Declaration
end AssemblyAtlas
