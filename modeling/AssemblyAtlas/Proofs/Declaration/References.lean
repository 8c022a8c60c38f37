import AssemblyAtlas.Proofs.Assembly.Linked
import AssemblyAtlas.Proofs.Declaration.Spelled

/-!
# References that are spelled like declarations

A type of the module is declared under its own name, in the namespace of its path. Where a tree
refers to it, the name is cut out of the full name and escaped. In a module that is built and has
plain names the two agree if each part of the namespace is an identifier: namespaces are escaped
where they are referred to and not where they are declared.

* `dottedName` is the name under which a type is declared, with all that stands around it, and
  `pathName` and `plainName` are what its name in references is made of;
* `PlainNames` is about the names of a module, and `CutAtStart` about names that are nothing but a
  mark of arity;
* `name_eq_dottedName_iff` compares the names in a tree with the declared ones.
-/

namespace AssemblyAtlas
namespace Declaration

open Assembly
open Syntax
open Text

/-- The namespace of a path as it is declared and the names of its types as they are declared, with
dots between them. -/
def dottedName (path : List TypeDefinition) : String :=
  qualified (Module.pathSpace path) (joinedByDots (path.map fun type => identifier type.simpleName))

/-- The full name of the type that a path ends with. -/
def pathName (path : List TypeDefinition) : String :=
  qualified (Module.pathSpace path) (String.ofList (join ['+'] (path.map (·.name.toList))))

/-- The namespace of a path and the names of its types without their marks of arity, with dots
between them. -/
def plainName (path : List TypeDefinition) : String :=
  qualified (Module.pathSpace path) (joinedByDots (path.map (·.simpleName)))

/-- Namespaces have no plus sign and no mark of arity, names of types no plus sign and no dot. No
name is a mark of arity without a number. -/
structure PlainNames (module : Module) : Prop where
  spaces : ∀ type ∈ module.types.entries, '+' ∉ type.space.toList ∧ '`' ∉ type.space.toList
  names : ∀ type ∈ module.types.entries,
    '+' ∉ type.name.toList ∧ '.' ∉ type.name.toList ∧ type.name ≠ "`"

instance (module : Module) : Decidable (PlainNames module) :=
  decidable_of_iff
    ((∀ type ∈ module.types.entries, '+' ∉ type.space.toList ∧ '`' ∉ type.space.toList)
      ∧ ∀ type ∈ module.types.entries,
        '+' ∉ type.name.toList ∧ '.' ∉ type.name.toList ∧ type.name ≠ "`")
    ⟨fun both => ⟨both.1, both.2⟩, fun plain => ⟨plain.spaces, plain.names⟩⟩

/-- The outermost type is in a namespace, and its name has nothing before its mark of arity. -/
def CutAtStart (path : List TypeDefinition) : Prop :=
  ∃ outer, path.head? = some outer ∧ outer.space ≠ "" ∧ outer.name.toList.head? = some '`'

/-! ## What references resolve to -/

namespace TypeSystem

variable {system : TypeSystem} {token : Token}

/-- A reference to a definition of the module has a name that is cut out of the full name. -/
theorem exists_path_of_definition
    {own : Token}
    (resolved : (system.resolve (.definition own)).definitionIn? system.main.mvid = some token) :
    ∃ path, system.main.typePath? token = some path
      ∧ system.referenceName (.definition own) = sourceName (pathName path) := by
  rw [referenceName, resolve] at *
  split at resolved
  · next fullName known =>
      obtain ⟨path, found, rfl⟩ := Option.map_eq_some_iff.1 known
      obtain rfl : own = token := by
        simpa [ResolvedType.definitionIn?] using resolved
      exact ⟨path, found, rfl⟩
  · simp [ResolvedType.definitionIn?, ResolvedType.unknown] at resolved

/-- A type of another assembly is found by its name in a referenced module. -/
theorem of_external?
    {assembly space name : String}
    {module : Module}
    {type : TypeDefinition}
    (found : system.external? assembly space name = some (module, type)) :
    module ∈ system.referenced ∧ module.findType? space name = some type := by
  obtain ⟨owner, isOwner, found⟩ := Option.bind_eq_some_iff.1 found
  split at found
  · next own defined =>
      obtain ⟨rfl, rfl⟩ := Prod.mk.inj (Option.some.inj found)
      exact ⟨List.mem_of_find?_eq_some isOwner, defined⟩
  · obtain ⟨forward, -, found⟩ := Option.bind_eq_some_iff.1 found
    obtain ⟨destination, isDestination, found⟩ := Option.bind_eq_some_iff.1 found
    obtain ⟨own, defined, found⟩ := Option.bind_eq_some_iff.1 found
    obtain ⟨rfl, rfl⟩ := Prod.mk.inj (Option.some.inj found)
    exact ⟨List.mem_of_find?_eq_some isDestination, defined⟩

/-- Where a reference by name leads to a definition of the module, the module refers to itself, and
the name is that of the path. -/
theorem exists_path_of_external
    (own : ListsOwn system.main.types.entries)
    (apart : ∀ module ∈ system.referenced, module.mvid = system.main.mvid → module = system.main)
    {assembly space name : String}
    (resolved :
      (system.resolve (.external assembly space name)).definitionIn? system.main.mvid = some token) :
    system.main ∈ system.referenced
      ∧ ∃ path, system.main.typePath? token = some path
        ∧ system.referenceName (.external assembly space name) = plainName path := by
  rw [resolve] at resolved
  split at resolved
  · next module type external =>
      obtain ⟨isReferenced, found⟩ := of_external? external
      simp only [ResolvedType.definitionIn?, Option.some.injEq] at resolved
      split at resolved
      · next same =>
          obtain rfl := Option.some.inj resolved
          obtain rfl := apart module isReferenced same
          obtain ⟨path, isPath, rfl, names⟩ := Module.exists_typePath?_of_findType? own found
          refine ⟨isReferenced, path, isPath, congrArg (qualified _) ?_⟩
          rw [sourceName, ← names, joinedByDots, List.map_map, List.map_map]
          simp [Function.comp_def, TypeDefinition.simpleName, withoutArity]
      · cases resolved
  · simp [ResolvedType.definitionIn?, ResolvedType.unknown] at resolved

end TypeSystem

/-! ## Comparing names -/

section Comparison

variable {module : Module} {token : Token} {path : List TypeDefinition}

theorem PlainNames.of_mem_path
    (plain : PlainNames module)
    (found : module.typePath? token = some path)
    {type : TypeDefinition}
    (inside : type ∈ path) :
    ('+' ∉ type.space.toList ∧ '`' ∉ type.space.toList)
      ∧ '+' ∉ type.name.toList ∧ '.' ∉ type.name.toList ∧ type.name ≠ "`" := by
  obtain ⟨own, known, ascends⟩ := Module.typePath?_eq_some_iff.1 found
  have member := ascends.mem_entries (TypeTable.mem_of_find? known) type inside
  exact ⟨plain.spaces type member, plain.names type member⟩

/-- Names without their marks of arity have no dots either. -/
theorem dot_not_mem_withoutArity
    {name : String}
    (plain : '.' ∉ name.toList) :
    '.' ∉ (withoutArity name).toList := by
  rw [withoutArity, String.toList_ofList]
  generalize name.toList = chars at plain ⊢
  cases chars with
  | nil => exact List.not_mem_nil
  | cons c rest =>
      rw [before]
      split
      · exact plain
      · rw [List.mem_cons, not_or] at plain ⊢
        exact ⟨plain.1, fun inside => plain.2 (List.takeWhile_subset _ inside)⟩

/-- The plain name of a path, part by part made of identifiers, is the declared one if the namespace
is made of identifiers. -/
theorem dottedIdentifier_plainName_iff
    (plain : PlainNames module)
    (found : module.typePath? token = some path) :
    dottedIdentifier (plainName path) = dottedName path
      ↔ MadeOfIdentifiers (Module.pathSpace path) := by
  obtain ⟨own, -, ascends⟩ := Module.typePath?_eq_some_iff.1 found
  have names : dottedIdentifier (joinedByDots (path.map (·.simpleName)))
      = joinedByDots (path.map fun type => identifier type.simpleName) := by
    rw [dottedIdentifier_joinedByDots (by simpa using ascends.ne_nil), List.map_map,
      Function.comp_def]
    rw [List.forall_mem_map]
    exact fun type inside => dot_not_mem_withoutArity (plain.of_mem_path found inside).2.2.1
  rw [plainName, dottedIdentifier_qualified, names, dottedName, qualified_left_inj,
    escapedSpace_eq_self_iff]

/-- What is cut out of the full name of a path are the names without their marks of arity, or an
empty name in place of the first one. -/
theorem sourceName_pathName
    (plain : PlainNames module)
    {outer : TypeDefinition}
    {inner : List TypeDefinition}
    (found : module.typePath? token = some (outer :: inner)) :
    sourceName (pathName (outer :: inner))
      = qualified outer.space (joinedByDots
          ((if outer.space = "" then outer.simpleName else stem outer.name)
            :: inner.map (·.simpleName))) := by
  have first := plain.of_mem_path found List.mem_cons_self
  have names : ∀ name ∈ outer.name :: inner.map (·.name), '+' ∉ name.toList := by
    rw [← List.map_cons, List.forall_mem_map]
    exact fun type inside => (plain.of_mem_path found inside).2.1
  have cut := sourceName_qualified first.1 names
  simpa [pathName, Module.pathSpace, Function.comp_def, TypeDefinition.simpleName] using cut

/-- If nothing is cut off at the start, what is cut out of the full name of a path is its plain
name. -/
theorem sourceName_pathName_of_not_cutAtStart
    (plain : PlainNames module)
    (found : module.typePath? token = some path)
    (whole : ¬CutAtStart path) :
    sourceName (pathName path) = plainName path := by
  obtain ⟨own, -, ascends⟩ := Module.typePath?_eq_some_iff.1 found
  obtain ⟨outer, inner, rfl⟩ := List.exists_cons_of_ne_nil ascends.ne_nil
  refine (sourceName_pathName plain found).trans ?_
  have first : (if outer.space = "" then outer.simpleName else stem outer.name)
      = outer.simpleName := by
    split
    · rfl
    · next inSpace =>
        exact stem_eq_withoutArity fun marked => whole ⟨outer, rfl, inSpace, marked⟩
  rw [first]
  rfl

/-- If the first name is cut off at its start, an identifier for the empty name takes its place. -/
theorem dottedIdentifier_ne_of_cutAtStart
    (plain : PlainNames module)
    (found : module.typePath? token = some path)
    (cut : CutAtStart path) :
    dottedIdentifier (sourceName (pathName path)) ≠ dottedName path := by
  obtain ⟨outer, isFirst, inSpace, marked⟩ := cut
  obtain ⟨inner, rfl⟩ := List.head?_eq_some_iff.1 isFirst
  obtain ⟨empty, whole⟩ := stem_of_marked marked
  have names : ∀ type ∈ outer :: inner, '.' ∉ (withoutArity type.name).toList :=
    fun type inside => dot_not_mem_withoutArity (plain.of_mem_path found inside).2.2.1
  have cutName : sourceName (pathName (outer :: inner))
      = qualified outer.space (joinedByDots ("" :: inner.map (·.simpleName))) := by
    rw [sourceName_pathName plain found, if_neg inSpace, empty]
  have escaped : dottedIdentifier (joinedByDots ("" :: inner.map (·.simpleName)))
      = joinedByDots (identifier "" :: inner.map fun type => identifier type.simpleName) := by
    rw [dottedIdentifier_joinedByDots (List.cons_ne_nil _ _), List.map_cons, List.map_map,
      Function.comp_def]
    rw [List.forall_mem_cons, List.forall_mem_map]
    exact ⟨List.not_mem_nil, (List.forall_mem_cons.1 names).2⟩
  intro same
  rw [cutName, dottedIdentifier_qualified, escaped, dottedName, List.map_cons] at same
  have inEscaped : escapedSpace outer.space ≠ "" := by
    rw [escapedSpace, if_neg inSpace]
    exact dottedIdentifier_ne_empty _
  have first := eq_of_qualified_joinedByDots inEscaped inSpace (dot_not_mem_identifier _)
    (dot_not_mem_identifier _) same
  rw [TypeDefinition.simpleName, whole] at first
  exact identifier_ne_identifier_empty marked
    (plain.of_mem_path found List.mem_cons_self).2.2.2 first

end Comparison

/-! ## Trees of modules that are built -/

/-- In a tree of a module that is built and has plain names, the declared types stand in the
namespaces of their paths, behind the last names of these. Wherever a base type, a signature, a
parameter or a local names a type of the module, its name is that of the path exactly if each part
of the namespace is an identifier, unless nothing stands before the mark of arity of the outermost
type: then the module's own references have another name. -/
theorem name_eq_dottedName_iff
    {name : String}
    {identity : Identity}
    {operations : List Operation}
    {builder : Builder}
    (performed : (Builder.new name identity).performAll operations = .ok builder)
    (plain : PlainNames builder.build)
    {referenced : List Module}
    (apart : ∀ module ∈ referenced, module.mvid = builder.build.mvid → module = builder.build)
    {settings : Settings}
    {signaturesOnly cancelled : Bool}
    {tokens : List Token}
    {tree : SourceUnit}
    (built : (Decompiler.standard ⟨builder.build, referenced⟩ settings signaturesOnly).types
      cancelled tokens = .ok tree) :
    (∀ heading ∈ tree.headings, ∃ path,
        builder.build.typePath? heading.token = some path
          ∧ heading.space = Module.pathSpace path
          ∧ heading.names ≠ []
          ∧ heading.names <:+ path.map fun type => identifier type.simpleName)
      ∧ ∀ mention ∈ tree.mentions, ∀ token,
          mention.resolved.definitionIn? builder.build.mvid = some token →
            ∃ path, builder.build.typePath? token = some path
              ∧ (¬CutAtStart path →
                  (mention.name = dottedName path ↔ MadeOfIdentifiers (Module.pathSpace path)))
              ∧ (CutAtStart path → builder.build ∉ referenced →
                  mention.name ≠ dottedName path) := by
  have own := Builder.listsOwn_build performed
  constructor
  · intro heading inside
    obtain ⟨plain, path, rfl, declares⟩ := Decompiler.exists_path_of_mem_headings own built inside
    refine ⟨path, declares.isPath, declares.space, by simpa [Heading.rename] using declares.named, ?_⟩
    have renamed := declares.names.map identifier
    rwa [List.map_map, Function.comp_def] at renamed
  · intro mention inside token resolved
    obtain ⟨reference, rfl⟩ := Decompiler.exists_reference_of_mem_mentions built inside
    cases reference with
    | definition own =>
        obtain ⟨path, found, isName⟩ := TypeSystem.exists_path_of_definition resolved
        refine ⟨path, found, fun whole => ?_, fun cut _ => ?_⟩
        · rw [isName, sourceName_pathName_of_not_cutAtStart plain found whole]
          exact dottedIdentifier_plainName_iff plain found
        · rw [isName]
          exact dottedIdentifier_ne_of_cutAtStart plain found cut
    | external assembly space name =>
        obtain ⟨isReferenced, path, found, isName⟩ :=
          TypeSystem.exists_path_of_external own apart resolved
        refine ⟨path, found, fun _ => ?_, fun _ apart => absurd isReferenced apart⟩
        rw [isName]
        exact dottedIdentifier_plainName_iff plain found

/-- A type with an arity, and one in it that has it as the type of a field and itself as that of
another. -/
def nestedSample : List Operation :=
  [.identify (.ofBytes []),
    .step (.addType "Shop" "Order`1" []),
    .step (.addNested (.ofRow .typeDefinition 2) "class" [
      .field "Outer" (.reference (.definition (.ofRow .typeDefinition 2))) .everywhere .none,
      .field "Own" (.reference (.definition (.ofRow .typeDefinition 3))) .everywhere .none])]

/-- The types are referred to as they are declared. -/
theorem name_eq_dottedName_nestedSample :
    ∃ builder tree,
      (Builder.new "Shop.dll" (.ofName "Shop" .unspecified)).performAll nestedSample = .ok builder
        ∧ PlainNames builder.build
        ∧ (Decompiler.standard ⟨builder.build, []⟩ .default false).types false
            [.ofRow .typeDefinition 2] = .ok tree
        ∧ tree.headings.map (·.dotted) = ["Shop.Order", "Shop.Order.@class"]
        ∧ tree.mentions.map (·.name) = ["Shop.Order", "Shop.Order.@class"]
        ∧ ∀ mention ∈ tree.mentions, ∀ token,
            mention.resolved.definitionIn? builder.build.mvid = some token →
              ∃ path, builder.build.typePath? token = some path
                ∧ (¬CutAtStart path →
                    (mention.name = dottedName path ↔ MadeOfIdentifiers (Module.pathSpace path)))
                ∧ (CutAtStart path → builder.build ∉ [] → mention.name ≠ dottedName path) := by
  have passes : ((Builder.new "Shop.dll" (.ofName "Shop" .unspecified)).performAll
      nestedSample).toOption.any (fun builder =>
        decide (PlainNames builder.build)
          && ((Decompiler.standard ⟨builder.build, []⟩ .default false).types false
            [.ofRow .typeDefinition 2]).toOption.any fun tree =>
              tree.headings.map (·.dotted) = ["Shop.Order", "Shop.Order.@class"]
                ∧ tree.mentions.map (·.name) = ["Shop.Order", "Shop.Order.@class"]) = true := by
    decide +kernel
  obtain ⟨builder, performed, passes⟩ := Success.exists_ok_of_any passes
  obtain ⟨plain, passes⟩ := (Bool.and_eq_true _ _).mp passes
  obtain ⟨tree, built, names⟩ := Success.exists_ok_of_any passes
  obtain ⟨headings, mentions⟩ := of_decide_eq_true names
  exact ⟨builder, tree, performed, of_decide_eq_true plain, built, headings, mentions,
    (name_eq_dottedName_iff performed (of_decide_eq_true plain) (by simp) built).2⟩

/-- A type in a namespace that is a keyword, as the type of its own field. -/
def keywordSample : List Operation :=
  [.identify (.ofBytes []),
    .step (.addType "class" "A" [
      .field "F" (.reference (.definition (.ofRow .typeDefinition 2))) .ownType .none])]

/-- The type is declared as `class.A` and referred to as `@class.A`. -/
theorem name_ne_dotted_keywordSample :
    ∃ builder tree,
      (Builder.new "Foo.dll" (.ofName "Foo" .unspecified)).performAll keywordSample = .ok builder
        ∧ PlainNames builder.build
        ∧ (Decompiler.standard ⟨builder.build, []⟩ .default false).types false
            [.ofRow .typeDefinition 2] = .ok tree
        ∧ (∃ heading ∈ tree.headings,
            heading.token = .ofRow .typeDefinition 2 ∧ heading.dotted = "class.A")
        ∧ ∃ mention ∈ tree.mentions,
            mention.resolved.definitionIn? builder.build.mvid = some (.ofRow .typeDefinition 2)
              ∧ mention.name = "@class.A" := by
  have passes : ((Builder.new "Foo.dll" (.ofName "Foo" .unspecified)).performAll
      keywordSample).toOption.any (fun builder =>
        decide (PlainNames builder.build)
          && ((Decompiler.standard ⟨builder.build, []⟩ .default false).types false
            [.ofRow .typeDefinition 2]).toOption.any fun tree =>
              (∃ heading ∈ tree.headings,
                heading.token = .ofRow .typeDefinition 2 ∧ heading.dotted = "class.A")
                ∧ ∃ mention ∈ tree.mentions,
                  mention.resolved.definitionIn? builder.build.mvid
                      = some (.ofRow .typeDefinition 2)
                    ∧ mention.name = "@class.A") = true := by
    decide +kernel
  obtain ⟨builder, performed, passes⟩ := Success.exists_ok_of_any passes
  obtain ⟨plain, passes⟩ := (Bool.and_eq_true _ _).mp passes
  obtain ⟨tree, built, found⟩ := Success.exists_ok_of_any passes
  obtain ⟨heading, mention⟩ := of_decide_eq_true found
  exact ⟨builder, tree, performed, of_decide_eq_true plain, built, heading, mention⟩

end Declaration
end AssemblyAtlas
