import AssemblyAtlas.Proofs.Text.Joined
import AssemblyAtlas.Syntax.Piece

/-!
# Pieces within one line

The words and names of a laid-out tree stand within one line each, if the names in the tree do.
Constants need no such condition, since their texts are escaped.

* `SourceUnit.texts` lists what a tree takes over as it is: the names of declarations, parameters,
  types and attributes, modifiers, and targets of attributes;
* `newline_not_mem_literal` is about constants and `SourceUnit.allInLine_pieces` about trees.
-/

namespace AssemblyAtlas
namespace Syntax

open Assembly
open Text

/-- The text has no line feed. -/
abbrev OneLine (text : String) : Prop :=
  '\n' ∉ text.toList

/-- No text of the list has a line feed. -/
def AllOneLine (texts : List String) : Prop :=
  ∀ text ∈ texts, OneLine text

instance (texts : List String) : Decidable (AllOneLine texts) :=
  inferInstanceAs (Decidable (∀ text ∈ texts, OneLine text))

section Lists

theorem oneLine_append
    {left right : String} :
    OneLine (left ++ right) ↔ OneLine left ∧ OneLine right := by
  simp [OneLine]

@[simp] theorem allOneLine_nil :
    AllOneLine [] := by
  simp [AllOneLine]

@[simp] theorem allOneLine_cons
    {text : String}
    {texts : List String} :
    AllOneLine (text :: texts) ↔ OneLine text ∧ AllOneLine texts := by
  simp [AllOneLine]

@[simp] theorem allOneLine_append
    {left right : List String} :
    AllOneLine (left ++ right) ↔ AllOneLine left ∧ AllOneLine right := by
  simp [AllOneLine, or_imp, forall_and]

theorem allOneLine_flatMap
    {α : Type}
    {elements : List α}
    {texts : α → List String} :
    AllOneLine (elements.flatMap texts) ↔ ∀ element ∈ elements, AllOneLine (texts element) := by
  simp only [AllOneLine, List.mem_flatMap]
  constructor
  · intro all element isElement text isText
    exact all text ⟨element, isElement, isText⟩
  · rintro all text ⟨element, isElement, isText⟩
    exact all element isElement text isText

/-- Texts within one line with such texts between them stand within one line. -/
theorem oneLine_intercalate
    {separator : String}
    (between : OneLine separator)
    {texts : List String}
    (all : AllOneLine texts) :
    OneLine (String.intercalate separator texts) := by
  induction texts with
  | nil =>
      rw [String.intercalate_nil]
      simp [OneLine]
  | cons text rest ih =>
      obtain ⟨first, later⟩ := allOneLine_cons.1 all
      cases rest with
      | nil =>
          rw [String.intercalate_singleton]
          exact first
      | cons next others =>
          have behind := ih later
          rw [String.intercalate_cons_cons, oneLine_append, oneLine_append]
          exact ⟨⟨first, between⟩, behind⟩

end Lists

/-! ## Constants -/

/-- An escaped character is no line feed. -/
theorem newline_not_mem_escapeChar
    {quote : Char}
    (printable : quote ≠ '\n')
    (c : Char) :
    '\n' ∉ escapeChar quote c := by
  have digits := newline_not_mem_hexFixed 4 c.toNat
  rw [escapeChar]
  split_ifs with _ isNewline _ _ _ isQuote _
  · decide
  · decide
  · decide
  · decide
  · decide
  · subst isQuote
    simpa using printable.symm
  · simpa using digits
  · simpa using Ne.symm isNewline

theorem newline_not_mem_quoted
    {quote : Char}
    (printable : quote ≠ '\n')
    (text : List Char) :
    '\n' ∉ quoted quote text := by
  have escaped := newline_not_mem_escapeChar printable
  simp [quoted, escaped, printable.symm]

theorem newline_not_mem_integerText (value : Int) :
    '\n' ∉ integerText value := by
  have digits := newline_not_mem_decimal value.natAbs
  rw [integerText]
  split <;> simp [digits]

theorem newline_not_mem_floatText (bits : UInt64) :
    '\n' ∉ floatText bits := by
  rw [floatText]
  split
  · simp
  · simp
  · simp
  · exact Double.newline_not_mem_finiteText _ _ _ _

/-- Texts within one line joined by such a text stand within one line. -/
theorem newline_not_mem_join
    {separator : List Char}
    (between : '\n' ∉ separator)
    {parts : List (List Char)}
    (all : ∀ part ∈ parts, '\n' ∉ part) :
    '\n' ∉ join separator parts := by
  induction parts with
  | nil => simp [join]
  | cons part rest ih =>
      have first := all part List.mem_cons_self
      have later := ih fun other isOther => all other (List.mem_cons_of_mem part isOther)
      cases rest with
      | nil => exact first
      | cons next others => simp [join, first, between, later]

mutual

/-- The text of a constant stands within one line, whatever the constant holds. -/
theorem newline_not_mem_literal : (value : Constant) → '\n' ∉ literal value
  | .bool value => by
      rw [literal]
      split <;> simp
  | .char value => newline_not_mem_quoted (by decide) [value]
  | .int value => newline_not_mem_integerText value
  | .natural value => newline_not_mem_decimal value
  | .float bits => newline_not_mem_floatText bits
  | .string value => newline_not_mem_quoted (by decide) value.toList
  | .null => by simp [literal]
  | .type _ => by simp [literal]
  | .array elements => by
      have comma : '\n' ∉ ", ".toList := by decide
      have each := newline_not_mem_literals elements
      have joined := newline_not_mem_join comma each
      have opened : '\n' ∉ arrayStart := by decide
      have closed : '\n' ∉ arrayEnd := by decide
      rw [literal, List.mem_append, List.mem_append, not_or, not_or]
      exact ⟨⟨opened, joined⟩, closed⟩

theorem newline_not_mem_literals :
    (values : List Constant) → ∀ text ∈ literals values, '\n' ∉ text
  | [] => by simp [literals]
  | value :: rest => by
      rw [literals, List.forall_mem_cons]
      exact ⟨newline_not_mem_literal value, newline_not_mem_literals rest⟩

end

/-! ## The texts in a tree -/

mutual

/-- The keywords and names in a type. -/
def TypeNode.texts : TypeNode → List String
  | .primitive keyword => [keyword]
  | .named name arguments _ => name :: TypeNode.textsOfAll arguments
  | .array element _ => element.texts
  | .pointer target => target.texts
  | .byReference target => target.texts
  | .parameter name => [name]

/-- The keywords and names in types. -/
def TypeNode.textsOfAll : List TypeNode → List String
  | [] => []
  | type :: rest => type.texts ++ TypeNode.textsOfAll rest

end

mutual

/-- The keywords and names in an expression; constants have none. -/
def Expression.texts : Expression → List String
  | .constant _ => []
  | .typeOf type => type.texts
  | .array elements => Expression.textsOfAll elements

/-- The keywords and names in expressions. -/
def Expression.textsOfAll : List Expression → List String
  | [] => []
  | expression :: rest => expression.texts ++ Expression.textsOfAll rest

end

/-- The target and the names of an attribute. -/
def Mark.texts (mark : Mark) : List String :=
  mark.target.toList ++ mark.fullName :: mark.type.texts ++ mark.arguments.flatMap (·.texts)
    ++ mark.named.flatMap fun argument => argument.1 :: argument.2.texts

/-- The names in a statement. -/
def Statement.texts : Statement → List String
  | .declareLocal type name => type.texts ++ [name]
  | .throwNull => []

/-- The names in a body. -/
def Body.texts (body : Body) : List String :=
  (body.getD []).flatMap (·.texts)

/-- The names in a parameter. -/
def ParameterNode.texts (parameter : ParameterNode) : List String :=
  parameter.type.texts ++ [parameter.name]

/-- The names in the signature of a delegate. -/
def DelegateNode.texts (delegate : DelegateNode) : List String :=
  delegate.returns.texts ++ delegate.parameters.flatMap (·.texts)

/-- The names and modifiers of a type declaration. -/
def TypeHead.texts (head : TypeHead) : List String :=
  head.modifiers ++ head.name :: head.typeParameters ++ TypeNode.textsOfAll head.bases
    ++ head.marks.flatMap (·.texts) ++ (head.delegate.map (·.texts)).getD []

/-- The names and modifiers of a field. -/
def FieldNode.texts (field : FieldNode) : List String :=
  field.modifiers ++ field.type.texts ++ field.name :: (field.value.map (·.texts)).getD []
    ++ field.marks.flatMap (·.texts)

/-- The names of a member of an enum. -/
def EnumMemberNode.texts (member : EnumMemberNode) : List String :=
  member.name :: (member.value.map (·.texts)).getD [] ++ member.marks.flatMap (·.texts)

/-- The names and modifiers of a method. -/
def MethodNode.texts (method : MethodNode) : List String :=
  method.modifiers ++ (method.returns.map (·.texts)).getD [] ++ method.name :: method.typeParameters
    ++ method.parameters.flatMap (·.texts) ++ Body.texts method.body
    ++ method.marks.flatMap (·.texts)

/-- The names in the bodies of accessors. -/
def Accessor.texts (accessor : Option Accessor) : List String :=
  (accessor.map fun accessor => Body.texts accessor.body).getD []

/-- The names and modifiers of a property. -/
def PropertyNode.texts (property : PropertyNode) : List String :=
  property.modifiers ++ property.type.texts ++ property.name :: Accessor.texts property.getter
    ++ Accessor.texts property.setter ++ property.marks.flatMap (·.texts)

/-- The names and modifiers of an event. -/
def EventNode.texts (event : EventNode) : List String :=
  event.modifiers ++ event.type.texts ++ event.name :: event.marks.flatMap (·.texts)

mutual

/-- The names, modifiers and targets in a declaration and those inside it. -/
def Node.texts : Node → List String
  | .space name members => name :: Node.textsOfAll members
  | .type head members => head.texts ++ Node.textsOfAll members
  | .field declaration => declaration.texts
  | .enumMember declaration => declaration.texts
  | .method declaration => declaration.texts
  | .property declaration => declaration.texts
  | .event declaration => declaration.texts

/-- The names, modifiers and targets in declarations. -/
def Node.textsOfAll : List Node → List String
  | [] => []
  | node :: rest => node.texts ++ Node.textsOfAll rest

end

/-- The names, modifiers and targets in a source file. -/
def SourceUnit.texts (unit : SourceUnit) : List String :=
  unit.marks.flatMap (·.texts) ++ Node.textsOfAll unit.members

/-! ## Spellings -/

mutual

theorem TypeNode.oneLine_spelling :
    (type : TypeNode) → AllOneLine type.texts → OneLine type.spelling
  | .primitive keyword, plain => by simpa [spelling, texts] using plain
  | .named name [] resolved, plain => by simpa [spelling, texts, textsOfAll] using plain
  | .named name (first :: rest) resolved, plain => by
      simp only [texts, textsOfAll, allOneLine_cons, allOneLine_append] at plain
      obtain ⟨ownName, inFirst, inRest⟩ := plain
      have argument := first.oneLine_spelling inFirst
      have further := oneLine_furtherSpelling rest inRest
      simp [spelling, ownName, argument, further, OneLine]
  | .array element rank, plain => by
      have inner := element.oneLine_spelling plain
      simp [spelling, inner, OneLine]
  | .pointer target, plain => by
      have inner := target.oneLine_spelling plain
      simp [spelling, inner, OneLine]
  | .byReference target, plain => by
      have inner := target.oneLine_spelling plain
      simp [spelling, inner, OneLine]
  | .parameter name, plain => by simpa [spelling, texts] using plain

theorem TypeNode.oneLine_furtherSpelling :
    (types : List TypeNode) → AllOneLine (textsOfAll types) → OneLine (furtherSpelling types)
  | [], _ => by simp [furtherSpelling, OneLine]
  | type :: rest, plain => by
      rw [textsOfAll, allOneLine_append] at plain
      have first := type.oneLine_spelling plain.1
      have further := oneLine_furtherSpelling rest plain.2
      simp [furtherSpelling, first, further, OneLine]

end

mutual

theorem Expression.oneLine_spelling :
    (expression : Expression) → AllOneLine expression.texts → OneLine expression.spelling
  | .constant value, _ => by
      have escaped := newline_not_mem_literal value
      simp [spelling, escaped, OneLine]
  | .typeOf type, plain => by
      have inner := type.oneLine_spelling plain
      simp [spelling, inner, OneLine]
  | .array [], _ => by
      have empty : '\n' ∉ arrayStart ++ arrayEnd := by decide
      simpa [spelling, OneLine] using empty
  | .array (first :: rest), plain => by
      simp only [texts, textsOfAll, allOneLine_append] at plain
      have opened : '\n' ∉ arrayStart := by decide
      have closed : '\n' ∉ arrayEnd := by decide
      have element := first.oneLine_spelling plain.1
      have further := oneLine_furtherSpelling rest plain.2
      simp [spelling, opened, closed, element, further, OneLine]

theorem Expression.oneLine_furtherSpelling :
    (expressions : List Expression) →
      AllOneLine (textsOfAll expressions) → OneLine (furtherSpelling expressions)
  | [], _ => by simp [furtherSpelling, OneLine]
  | expression :: rest, plain => by
      rw [textsOfAll, allOneLine_append] at plain
      have first := expression.oneLine_spelling plain.1
      have further := oneLine_furtherSpelling rest plain.2
      simp [furtherSpelling, first, further, OneLine]

end

/-- A shorter name has characters of the name only. -/
theorem oneLine_attributeName
    {name : String}
    (plain : OneLine name) :
    OneLine (attributeName name) := by
  rw [attributeName]
  split
  · exact plain
  · exact plain
  · exact plain
  · next short found =>
      intro newline
      rw [String.toList_ofList, List.mem_reverse] at newline
      refine plain (List.mem_reverse.1 ?_)
      rw [eq_of_afterLead? found]
      exact List.mem_append_right _ newline

/-- The text of an attribute. -/
theorem Mark.oneLine_spelling
    (mark : Mark)
    (plain : AllOneLine mark.texts) :
    OneLine mark.spelling := by
  simp only [texts, allOneLine_append, allOneLine_cons, allOneLine_flatMap] at plain
  obtain ⟨⟨⟨inTarget, fullName, inType⟩, inArguments⟩, inNamed⟩ := plain
  have target : OneLine (mark.target.elim "" (· ++ ": ")) := by
    cases chosen : mark.target with
    | none => simp [OneLine]
    | some text =>
        have plain : OneLine text := inTarget text (by simp [chosen])
        simp [OneLine, plain]
  have arguments : AllOneLine (mark.arguments.map (·.spelling) ++
      mark.named.map fun argument => argument.1 ++ " = " ++ argument.2.spelling) := by
    rw [allOneLine_append]
    constructor
    · intro text isText
      obtain ⟨argument, isArgument, rfl⟩ := List.mem_map.1 isText
      exact argument.oneLine_spelling (inArguments argument isArgument)
    · intro text isText
      obtain ⟨argument, isArgument, rfl⟩ := List.mem_map.1 isText
      obtain ⟨first, second⟩ := inNamed argument isArgument
      have value := argument.2.oneLine_spelling second
      simp [OneLine, first, value]
  have listed := oneLine_intercalate (by decide : OneLine ", ") arguments
  simp only [spelling, oneLine_append]
  refine ⟨⟨⟨⟨by decide, target⟩, oneLine_attributeName ?name⟩, ?list⟩, by decide⟩
  case name =>
    split
    · next name arguments resolved shape =>
        rw [shape, TypeNode.texts, allOneLine_cons] at inType
        exact inType.1
    · exact fullName
  case list =>
    split
    · decide
    · simp only [oneLine_append]
      exact ⟨⟨by decide, listed⟩, by decide⟩

/-! ## Pieces -/

/-- The piece stands within one line. -/
def Piece.InLine : Piece → Prop
  | .word text => OneLine text
  | .name _ text => OneLine text
  | .endLine | .deeper | .shallower => True

/-- Every piece of the list stands within one line. -/
def Piece.AllInLine (pieces : List Piece) : Prop :=
  ∀ piece ∈ pieces, piece.InLine

namespace Piece

@[simp] theorem allInLine_nil :
    AllInLine [] := by
  simp [AllInLine]

@[simp] theorem allInLine_word
    {text : String}
    {pieces : List Piece} :
    AllInLine (.word text :: pieces) ↔ OneLine text ∧ AllInLine pieces := by
  simp [AllInLine, InLine]

@[simp] theorem allInLine_name
    {key : SymbolKey}
    {text : String}
    {pieces : List Piece} :
    AllInLine (.name key text :: pieces) ↔ OneLine text ∧ AllInLine pieces := by
  simp [AllInLine, InLine]

@[simp] theorem allInLine_endLine
    {pieces : List Piece} :
    AllInLine (.endLine :: pieces) ↔ AllInLine pieces := by
  simp [AllInLine, InLine]

@[simp] theorem allInLine_deeper
    {pieces : List Piece} :
    AllInLine (.deeper :: pieces) ↔ AllInLine pieces := by
  simp [AllInLine, InLine]

@[simp] theorem allInLine_shallower
    {pieces : List Piece} :
    AllInLine (.shallower :: pieces) ↔ AllInLine pieces := by
  simp [AllInLine, InLine]

@[simp] theorem allInLine_append
    {left right : List Piece} :
    AllInLine (left ++ right) ↔ AllInLine left ∧ AllInLine right := by
  simp [AllInLine, or_imp, forall_and]

theorem allInLine_flatMap
    {α : Type}
    {elements : List α}
    {pieces : α → List Piece}
    (each : ∀ element ∈ elements, AllInLine (pieces element)) :
    AllInLine (elements.flatMap pieces) := by
  intro piece isPiece
  obtain ⟨element, isElement, inElement⟩ := List.mem_flatMap.1 isPiece
  exact each element isElement piece inElement

@[simp] theorem allInLine_opening : AllInLine opening := by
  simp [opening, OneLine]

@[simp] theorem allInLine_closing : AllInLine closing := by
  simp [closing, OneLine]

@[simp] theorem allInLine_semicolon : AllInLine semicolon := by
  simp [semicolon, OneLine]

end Piece

open Piece

theorem Mark.allInLine_pieces
    {marks : List Mark}
    (plain : ∀ mark ∈ marks, AllOneLine mark.texts) :
    AllInLine (pieces marks) := by
  refine allInLine_flatMap fun mark isMark => ?_
  simpa using mark.oneLine_spelling (plain mark isMark)

theorem allInLine_modifierPieces
    {modifiers : List String}
    (plain : AllOneLine modifiers) :
    AllInLine (modifierPieces modifiers) := by
  intro piece isPiece
  obtain ⟨modifier, isModifier, rfl⟩ := List.mem_map.1 isPiece
  have text := plain modifier isModifier
  simp [InLine, OneLine, text]

theorem allInLine_typeParameterPieces
    {names : List String}
    (plain : AllOneLine names) :
    AllInLine (typeParameterPieces names) := by
  have listed := oneLine_intercalate (by decide : OneLine ", ") plain
  rw [typeParameterPieces]
  split
  · simp
  · simp only [allInLine_word, oneLine_append]
    exact ⟨⟨⟨by decide, listed⟩, by decide⟩, allInLine_nil⟩

theorem allInLine_parameterPieces
    {parameters : List ParameterNode}
    (plain : ∀ parameter ∈ parameters, AllOneLine parameter.texts) :
    AllInLine (parameterPieces parameters) := by
  have texts : AllOneLine (parameters.map fun parameter =>
      parameter.type.spelling ++ " " ++ parameter.name) := by
    intro text isText
    obtain ⟨parameter, isParameter, rfl⟩ := List.mem_map.1 isText
    have inside := plain parameter isParameter
    simp only [ParameterNode.texts, allOneLine_append, allOneLine_cons] at inside
    have type := parameter.type.oneLine_spelling inside.1
    simp [OneLine, type, inside]
  have listed := oneLine_intercalate (by decide : OneLine ", ") texts
  simp only [parameterPieces, allInLine_word, oneLine_append]
  exact ⟨⟨⟨by decide, listed⟩, by decide⟩, allInLine_nil⟩

theorem Statement.allInLine_pieces
    (statement : Statement)
    (plain : AllOneLine statement.texts) :
    AllInLine statement.pieces := by
  cases statement with
  | declareLocal type name =>
      simp only [texts, allOneLine_append, allOneLine_cons] at plain
      have spelled := type.oneLine_spelling plain.1
      simp [pieces, OneLine, spelled, plain]
  | throwNull =>
      have text : OneLine "throw null;" := by decide
      simp only [pieces, allInLine_word]
      exact ⟨text, by simp⟩

theorem Body.allInLine_pieces
    (body : Body)
    (plain : AllOneLine (Body.texts body)) :
    AllInLine (Body.pieces body) := by
  cases body with
  | none => simp [pieces]
  | some statements =>
      have inside : AllInLine (statements.flatMap (·.pieces)) :=
        allInLine_flatMap fun statement isStatement =>
          statement.allInLine_pieces (allOneLine_flatMap.1 plain statement isStatement)
      simp [pieces, inside]

theorem allInLine_valuePieces
    {value : Option Expression}
    (plain : AllOneLine ((value.map (·.texts)).getD [])) :
    AllInLine (valuePieces value) := by
  cases value with
  | none => simp [valuePieces]
  | some expression =>
      have spelled := expression.oneLine_spelling plain
      simp [valuePieces, OneLine, spelled]

theorem allInLine_accessorPieces
    {accessors : List (String × Accessor)}
    (keywords : ∀ accessor ∈ accessors, OneLine accessor.1)
    (bodies : ∀ accessor ∈ accessors, AllOneLine (Body.texts accessor.2.body)) :
    AllInLine (accessorPieces accessors) := by
  rw [accessorPieces]
  split
  · have words : AllInLine (accessors.map fun accessor => .word (" " ++ accessor.1 ++ ";")) := by
      intro piece isPiece
      obtain ⟨accessor, isAccessor, rfl⟩ := List.mem_map.1 isPiece
      have keyword := keywords accessor isAccessor
      simp [InLine, OneLine, keyword]
    simp [words, OneLine]
  · have blocks : AllInLine (accessors.flatMap fun accessor =>
        .word accessor.1 :: Body.pieces accessor.2.body) := by
      refine allInLine_flatMap fun accessor isAccessor => ?_
      rw [allInLine_word]
      exact ⟨keywords accessor isAccessor, Body.allInLine_pieces _ (bodies accessor isAccessor)⟩
    simp [blocks]

theorem FieldNode.allInLine_pieces
    (field : FieldNode)
    (plain : AllOneLine field.texts) :
    AllInLine field.pieces := by
  simp only [texts, allOneLine_append, allOneLine_cons, allOneLine_flatMap] at plain
  obtain ⟨⟨⟨inModifiers, inType⟩, ownName, inValue⟩, inMarks⟩ := plain
  have marks := Mark.allInLine_pieces inMarks
  have modifiers := allInLine_modifierPieces inModifiers
  have type := field.type.oneLine_spelling inType
  have value := allInLine_valuePieces inValue
  simp [pieces, marks, modifiers, type, ownName, value, OneLine]

theorem EnumMemberNode.allInLine_pieces
    (member : EnumMemberNode)
    (plain : AllOneLine member.texts) :
    AllInLine member.pieces := by
  simp only [texts, allOneLine_append, allOneLine_cons, allOneLine_flatMap] at plain
  obtain ⟨⟨ownName, inValue⟩, inMarks⟩ := plain
  have marks := Mark.allInLine_pieces inMarks
  have value := allInLine_valuePieces inValue
  simp [pieces, marks, ownName, value, OneLine]

theorem MethodNode.allInLine_pieces
    (method : MethodNode)
    (plain : AllOneLine method.texts) :
    AllInLine method.pieces := by
  simp only [texts, allOneLine_append, allOneLine_cons, allOneLine_flatMap] at plain
  obtain ⟨⟨⟨⟨⟨inModifiers, inReturns⟩, ownName, inNames⟩, inParameters⟩, inBody⟩, inMarks⟩ := plain
  have marks := Mark.allInLine_pieces inMarks
  have modifiers := allInLine_modifierPieces inModifiers
  have returns : AllInLine (method.returns.elim [] fun type => [.word (type.spelling ++ " ")]) := by
    cases result : method.returns with
    | none => simp
    | some type =>
        rw [result] at inReturns
        have spelled := type.oneLine_spelling inReturns
        simp [OneLine, spelled]
  have names := allInLine_typeParameterPieces inNames
  have parameters := allInLine_parameterPieces inParameters
  have body := Body.allInLine_pieces method.body inBody
  simp [pieces, marks, modifiers, returns, ownName, names, parameters, body, OneLine]

theorem PropertyNode.allInLine_pieces
    (property : PropertyNode)
    (plain : AllOneLine property.texts) :
    AllInLine property.pieces := by
  simp only [texts, allOneLine_append, allOneLine_cons, allOneLine_flatMap] at plain
  obtain ⟨⟨⟨⟨inModifiers, inType⟩, ownName, inGetter⟩, inSetter⟩, inMarks⟩ := plain
  have marks := Mark.allInLine_pieces inMarks
  have modifiers := allInLine_modifierPieces inModifiers
  have type := property.type.oneLine_spelling inType
  have accessors : AllInLine (accessorPieces
      (property.getter.toList.map (("get", ·)) ++ property.setter.toList.map (("set", ·)))) := by
    refine allInLine_accessorPieces ?_ ?_
    · intro accessor isAccessor
      rcases List.mem_append.1 isAccessor with get | set
      · obtain ⟨_, _, rfl⟩ := List.mem_map.1 get
        simp [OneLine]
      · obtain ⟨_, _, rfl⟩ := List.mem_map.1 set
        simp [OneLine]
    · intro accessor isAccessor
      rcases List.mem_append.1 isAccessor with get | set
      · obtain ⟨getter, isGetter, rfl⟩ := List.mem_map.1 get
        rw [Option.mem_toList] at isGetter
        simpa [Accessor.texts, isGetter] using inGetter
      · obtain ⟨setter, isSetter, rfl⟩ := List.mem_map.1 set
        rw [Option.mem_toList] at isSetter
        simpa [Accessor.texts, isSetter] using inSetter
  simp [pieces, marks, modifiers, type, ownName, accessors, OneLine]

theorem EventNode.allInLine_pieces
    (event : EventNode)
    (plain : AllOneLine event.texts) :
    AllInLine event.pieces := by
  simp only [texts, allOneLine_append, allOneLine_cons, allOneLine_flatMap] at plain
  obtain ⟨⟨inModifiers, inType⟩, ownName, inMarks⟩ := plain
  have marks := Mark.allInLine_pieces inMarks
  have modifiers := allInLine_modifierPieces inModifiers
  have type := event.type.oneLine_spelling inType
  simp [pieces, marks, modifiers, type, ownName, OneLine]

namespace TypeHead

theorem oneLine_keyword (kind : TypeKind) :
    OneLine kind.keyword := by
  cases kind <;> decide

theorem allInLine_leadPieces
    (head : TypeHead)
    (plain : AllOneLine head.texts) :
    AllInLine head.leadPieces := by
  simp only [texts, allOneLine_append, allOneLine_cons, allOneLine_flatMap] at plain
  obtain ⟨⟨⟨⟨inModifiers, -, -⟩, -⟩, inMarks⟩, -⟩ := plain
  have marks := Mark.allInLine_pieces inMarks
  have modifiers := allInLine_modifierPieces inModifiers
  have keyword := oneLine_keyword head.kind
  simp [leadPieces, marks, modifiers, keyword, OneLine]

theorem allInLine_namePieces
    (head : TypeHead)
    (plain : AllOneLine head.texts) :
    AllInLine head.namePieces := by
  simp only [texts, allOneLine_append, allOneLine_cons] at plain
  obtain ⟨⟨⟨⟨-, ownName, inNames⟩, -⟩, -⟩, -⟩ := plain
  have names := allInLine_typeParameterPieces inNames
  simp [namePieces, ownName, names, OneLine]

theorem allInLine_delegatePieces
    {head : TypeHead}
    {delegate : DelegateNode}
    (isDelegate : head.delegate = some delegate)
    (plain : AllOneLine head.texts) :
    AllInLine (head.delegatePieces delegate) := by
  have lead := head.allInLine_leadPieces plain
  have ownName := head.allInLine_namePieces plain
  have inDelegate : AllOneLine delegate.texts := by
    simp only [texts, isDelegate, allOneLine_append] at plain
    exact plain.2
  simp only [DelegateNode.texts, allOneLine_append, allOneLine_flatMap] at inDelegate
  have returns := delegate.returns.oneLine_spelling inDelegate.1
  have parameters := allInLine_parameterPieces inDelegate.2
  simp [delegatePieces, lead, ownName, returns, parameters, OneLine]

theorem allInLine_blockPieces
    (head : TypeHead)
    (plain : AllOneLine head.texts) :
    AllInLine head.blockPieces := by
  have lead := head.allInLine_leadPieces plain
  have ownName := head.allInLine_namePieces plain
  have bases : AllInLine (basePieces head.bases) := by
    simp only [texts, allOneLine_append] at plain
    have inBases := plain.1.1.2
    cases types : head.bases with
    | nil => simp [basePieces]
    | cons first rest =>
        rw [types, TypeNode.textsOfAll, allOneLine_append] at inBases
        have spelled := first.oneLine_spelling inBases.1
        have further := TypeNode.oneLine_furtherSpelling rest inBases.2
        simp [basePieces, spelled, further, OneLine]
  simp [blockPieces, lead, ownName, bases]

end TypeHead

mutual

/-- The pieces of a declaration stand within one line each. -/
theorem Node.allInLine_pieces :
    (node : Node) → AllOneLine node.texts → AllInLine node.pieces
  | .space ownName members, plain => by
      rw [texts, allOneLine_cons] at plain
      have inside := allInLine_spacedPieces members plain.2
      have head : OneLine ("namespace " ++ ownName) :=
        oneLine_append.2 ⟨by decide, plain.1⟩
      simpa [pieces, inside] using head
  | .type head members, plain => by
      rw [texts, allOneLine_append] at plain
      rw [pieces]
      split
      · next delegate isDelegate => exact TypeHead.allInLine_delegatePieces isDelegate plain.1
      · have block := head.allInLine_blockPieces plain.1
        have spaced := allInLine_spacedPieces members plain.2
        have stacked := allInLine_stackedPieces members plain.2
        split
        · simp [block, stacked]
        · simp [block, spaced]
  | .field declaration, plain => declaration.allInLine_pieces plain
  | .enumMember declaration, plain => declaration.allInLine_pieces plain
  | .method declaration, plain => declaration.allInLine_pieces plain
  | .property declaration, plain => declaration.allInLine_pieces plain
  | .event declaration, plain => declaration.allInLine_pieces plain

theorem Node.allInLine_spacedPieces :
    (nodes : List Node) → AllOneLine (textsOfAll nodes) → AllInLine (spacedPieces nodes)
  | [], _ => by simp [spacedPieces]
  | node :: rest, plain => by
      rw [textsOfAll, allOneLine_append] at plain
      have first := node.allInLine_pieces plain.1
      have further := allInLine_furtherPieces rest plain.2
      simp [spacedPieces, first, further]

theorem Node.allInLine_furtherPieces :
    (nodes : List Node) → AllOneLine (textsOfAll nodes) → AllInLine (furtherPieces nodes)
  | [], _ => by simp [furtherPieces]
  | node :: rest, plain => by
      rw [textsOfAll, allOneLine_append] at plain
      have first := node.allInLine_pieces plain.1
      have further := allInLine_furtherPieces rest plain.2
      simp [furtherPieces, first, further]

theorem Node.allInLine_stackedPieces :
    (nodes : List Node) → AllOneLine (textsOfAll nodes) → AllInLine (stackedPieces nodes)
  | [], _ => by simp [stackedPieces]
  | node :: rest, plain => by
      rw [textsOfAll, allOneLine_append] at plain
      have first := node.allInLine_pieces plain.1
      have further := allInLine_stackedPieces rest plain.2
      simp [stackedPieces, first, further]

end

/-- The pieces of a source file stand within one line each. -/
theorem SourceUnit.allInLine_pieces
    (unit : SourceUnit)
    (plain : AllOneLine unit.texts) :
    AllInLine unit.pieces := by
  simp only [texts, allOneLine_append, allOneLine_flatMap] at plain
  have marks := Mark.allInLine_pieces plain.1
  have members := Node.allInLine_spacedPieces unit.members plain.2
  have between : AllInLine
      (if unit.marks.isEmpty ∨ unit.members.isEmpty then [] else [.endLine]) := by
    split <;> simp
  rw [pieces, allInLine_append, allInLine_append]
  exact ⟨⟨marks, between⟩, members⟩

end Syntax
end AssemblyAtlas
