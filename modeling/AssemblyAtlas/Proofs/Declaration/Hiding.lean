import AssemblyAtlas.Declaration.Hidden
import Mathlib.Data.List.Infix

/-!
# What may be hidden

Only what a compiler generated is ever hidden, nothing is hidden where no artifact is chosen, and
choosing more of them hides more. Types, fields and methods are tested in one way: a compiler must
have generated the definition, and for an artifact that is chosen.

* `Generated` is what marks the work of a compiler, and `isGenerated_iff` compares it with the test;
* `Hides` is what the tests of types, fields and methods have in common;
* `memberHidden_none` and `exists_defines_of_memberHidden` are about tokens.
-/

namespace AssemblyAtlas
namespace Declaration

open Assembly

/-! ## Generated definitions -/

/-- A compiler generated what has these attributes and this name: an attribute says so, or the name
begins with an angle bracket, or it has a pair of them without anything inside. -/
def Generated (attributes : List CustomAttribute) (name : String) : Prop :=
  (∃ mark ∈ attributes,
      mark.space = "System.Runtime.CompilerServices"
        ∧ mark.name = "CompilerGeneratedAttribute")
    ∨ "<".toList <+: name.toList
    ∨ "<>".toList <:+: name.toList

theorem occursIn_iff
    {part text : List Char} :
    occursIn part text = true ↔ part <:+: text := by
  induction text with
  | nil => rw [occursIn, List.isEmpty_iff, List.infix_nil]
  | cons c rest ih =>
      rw [occursIn, Bool.or_eq_true, ih, List.isPrefixOf_iff_prefix, List.infix_cons_iff]

theorem isGenerated_iff
    {attributes : List CustomAttribute}
    {name : String} :
    isGenerated attributes name = true ↔ Generated attributes name := by
  rw [isGenerated, hasGeneratedName, startsWith, contains, markedGenerated, hasAttribute,
    Bool.or_eq_true, Bool.or_eq_true, List.isPrefixOf_iff_prefix, occursIn_iff, List.any_eq_true,
    Generated, or_comm]
  simp only [CustomAttribute.isNamed, Bool.and_eq_true, beq_iff_eq]

/-! ## Artifacts -/

/-- What a type of such a name is made for, if a compiler generated it. -/
def typeMadeFor (type : TypeDefinition) : Artifact → Prop
  | .anonymousMethods =>
      (type.name = "<>c" ∨ contains type.name "DisplayClass") ∨ contains type.name "AnonStorey"
  | .anonymousTypes => hasGeneratedName type.name ∧ contains type.name "AnonymousType"
  | .asyncMachines =>
      (startsWith type.name "<" ∧ contains type.name ">d__") ∧ isAsyncMachine type
  | .iterators =>
      (startsWith type.name "<" ∧ contains type.name ">d__") ∧ ¬isAsyncMachine type
  | .arrayInitializers => startsWith type.name "<PrivateImplementationDetails>"
  | .fixedBuffers => startsWith type.name "<" ∧ contains type.name "__FixedBuffer"
  | .automaticProperties => False

/-- What a field of such a name is made for, if a compiler generated it. -/
def fieldMadeFor (field : FieldDefinition) : Artifact → Prop
  | .automaticProperties => ">k__BackingField".toList.isSuffixOf field.name.toList
  | .anonymousMethods => startsWith field.name "CS$<>" ∨ startsWith field.name "<>9"
  | _ => False

/-- What a method of such a name is made for, if a compiler generated it. -/
def methodMadeFor (method : MethodDefinition) : Artifact → Prop
  | .anonymousMethods => startsWith method.name "<" ∧ contains method.name ">b__"
  | _ => False

/-! ## Hidden definitions -/

/-- The test asks whether a compiler generated the definition for an artifact that is chosen. -/
def Hides
    (hidden : Concealment → Bool)
    (attributes : List CustomAttribute)
    (name : String)
    (madeFor : Artifact → Prop) :
    Prop :=
  ∀ concealment, hidden concealment = true
    ↔ Generated attributes name ∧ ∃ artifact, concealment artifact = true ∧ madeFor artifact

namespace Hides

variable {hidden : Concealment → Bool} {attributes : List CustomAttribute} {name : String}
  {madeFor : Artifact → Prop}

/-- Only the work of a compiler is hidden. -/
theorem generated
    (hides : Hides hidden attributes name madeFor)
    {concealment : Concealment}
    (isHidden : hidden concealment = true) :
    Generated attributes name :=
  ((hides concealment).1 isHidden).1

/-- Where no artifact is chosen, nothing is hidden. -/
theorem none
    (hides : Hides hidden attributes name madeFor) :
    hidden (.all false) = false := by
  rw [Bool.eq_false_iff]
  intro isHidden
  obtain ⟨-, artifact, chosen, -⟩ := (hides _).1 isHidden
  cases chosen

/-- What is shown where more artifacts are chosen is shown where fewer are. -/
theorem shown
    (hides : Hides hidden attributes name madeFor)
    {less more : Concealment}
    (within : less.Within more)
    (isShown : hidden more = false) :
    hidden less = false := by
  rw [Bool.eq_false_iff] at isShown ⊢
  intro isHidden
  obtain ⟨generated, artifact, chosen, made⟩ := (hides less).1 isHidden
  exact isShown ((hides more).2 ⟨generated, artifact, within artifact chosen, made⟩)

end Hides

theorem hides_type (type : TypeDefinition) :
    Hides (typeHidden · type) type.attributes type.name (typeMadeFor type) := by
  intro concealment
  simp only [typeHidden, Bool.and_eq_true, Bool.or_eq_true, beq_iff_eq, isGenerated_iff]
  refine and_congr_right fun _ => ⟨?_, ?_⟩
  · rintro ((((closure | anonymous) | machine) | buffer) | initializers)
    · exact ⟨.anonymousMethods, closure⟩
    · exact ⟨.anonymousTypes, anonymous⟩
    · obtain ⟨isMachine, chosen⟩ := machine
      split at chosen
      case isTrue async => exact ⟨.asyncMachines, chosen, isMachine, async⟩
      case isFalse plain => exact ⟨.iterators, chosen, isMachine, plain⟩
    · exact ⟨.fixedBuffers, buffer⟩
    · exact ⟨.arrayInitializers, initializers⟩
  · rintro ⟨artifact, chosen, made⟩
    cases artifact with
    | anonymousMethods => exact .inl (.inl (.inl (.inl ⟨chosen, made⟩)))
    | anonymousTypes => exact .inl (.inl (.inl (.inr ⟨chosen, made⟩)))
    | asyncMachines => exact .inl (.inl (.inr ⟨made.1, by rwa [if_pos made.2]⟩))
    | iterators => exact .inl (.inl (.inr ⟨made.1, by rwa [if_neg made.2]⟩))
    | arrayInitializers => exact .inr ⟨chosen, made⟩
    | fixedBuffers => exact .inl (.inr ⟨chosen, made⟩)
    | automaticProperties => exact made.elim

theorem hides_field (field : FieldDefinition) :
    Hides (fieldHidden · field) field.attributes field.name (fieldMadeFor field) := by
  intro concealment
  simp only [fieldHidden, Bool.and_eq_true, Bool.or_eq_true, isGenerated_iff]
  refine and_congr_right fun _ => ⟨?_, ?_⟩
  · rintro (backing | cache)
    · exact ⟨.automaticProperties, backing⟩
    · exact ⟨.anonymousMethods, cache⟩
  · rintro ⟨artifact, chosen, made⟩
    cases artifact with
    | automaticProperties => exact .inl ⟨chosen, made⟩
    | anonymousMethods => exact .inr ⟨chosen, made⟩
    | anonymousTypes | asyncMachines | iterators | arrayInitializers | fixedBuffers =>
        exact made.elim

theorem hides_method (method : MethodDefinition) :
    Hides (methodHidden · method) method.attributes method.name (methodMadeFor method) := by
  intro concealment
  simp only [methodHidden, Bool.and_eq_true, isGenerated_iff]
  constructor
  · rintro ⟨⟨⟨chosen, generated⟩, bracket⟩, lambda⟩
    exact ⟨generated, .anonymousMethods, chosen, bracket, lambda⟩
  · rintro ⟨generated, artifact, chosen, made⟩
    cases artifact with
    | anonymousMethods => exact ⟨⟨⟨chosen, generated⟩, made.1⟩, made.2⟩
    | anonymousTypes | asyncMachines | iterators | arrayInitializers | fixedBuffers
      | automaticProperties => exact made.elim

/-! ## Hidden tokens -/

/-- The token is that of a type, a field or a method of the module with the attributes and the
name. -/
inductive Defines (module : Module) : Token → List CustomAttribute → String → Prop
  | type {token : Token} {type : TypeDefinition} :
      token.isIn .typeDefinition = true →
      module.type? token = some type →
      Defines module token type.attributes type.name
  | field {type : TypeDefinition} {field : FieldDefinition} :
      field.token.isIn .field = true →
      type ∈ module.types.entries →
      field ∈ type.fields →
      Defines module field.token field.attributes field.name
  | method {type : TypeDefinition} {method : MethodDefinition} :
      method.token.isIn .method = true →
      type ∈ module.types.entries →
      method ∈ type.methods →
      Defines module method.token method.attributes method.name

/-- A token is hidden for what its definition is. -/
theorem exists_hides_of_memberHidden
    {module : Module}
    {token : Token}
    {concealment : Concealment}
    (isHidden : memberHidden concealment module token = true) :
    ∃ hidden attributes name madeFor, Defines module token attributes name
      ∧ Hides hidden attributes name madeFor
      ∧ hidden concealment = true := by
  rw [memberHidden] at isHidden
  split at isHidden
  case isTrue isType =>
    obtain ⟨type, known, hidden⟩ := (Option.any_eq_true _ _).1 isHidden
    exact ⟨_, _, _, _, .type isType known, hides_type type, hidden⟩
  split at isHidden
  case isTrue isField =>
    obtain ⟨type, member, inside⟩ := List.any_eq_true.1 isHidden
    obtain ⟨field, inType, both⟩ := List.any_eq_true.1 inside
    obtain ⟨own, hidden⟩ := Bool.and_eq_true_iff.1 both
    have same : field.token = token := of_decide_eq_true own
    subst same
    exact ⟨_, _, _, _, .field isField member inType, hides_field field, hidden⟩
  split at isHidden
  case isTrue isMethod =>
    obtain ⟨type, member, inside⟩ := List.any_eq_true.1 isHidden
    obtain ⟨method, found, hidden⟩ := (Option.any_eq_true _ _).1 inside
    rw [TypeDefinition.method?] at found
    have same : method.token = token := by simpa using List.find?_some found
    subst same
    exact ⟨_, _, _, _, .method isMethod member (List.mem_of_find?_eq_some found),
      hides_method method, hidden⟩
  case isFalse => cases isHidden

/-- Only tokens of definitions that a compiler generated are hidden. -/
theorem exists_defines_of_memberHidden
    {module : Module}
    {token : Token}
    {concealment : Concealment}
    (isHidden : memberHidden concealment module token = true) :
    ∃ attributes name, Defines module token attributes name ∧ Generated attributes name := by
  obtain ⟨hidden, attributes, name, _, defines, hides, isHidden⟩ :=
    exists_hides_of_memberHidden isHidden
  exact ⟨attributes, name, defines, hides.generated isHidden⟩

/-- Where no artifact is chosen, no token is hidden. -/
theorem memberHidden_none
    (module : Module)
    (token : Token) :
    memberHidden (.all false) module token = false := by
  rw [Bool.eq_false_iff]
  intro isHidden
  obtain ⟨hidden, _, _, _, -, hides, isHidden⟩ := exists_hides_of_memberHidden isHidden
  rw [hides.none] at isHidden
  cases isHidden

end Declaration
end AssemblyAtlas
