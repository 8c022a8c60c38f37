import AssemblyAtlas.Proofs.Syntax.Places

/-!
# The layout of declarations

A declaration is laid out in whole lines, and blocks that it opens are closed. So a page is indented
afterwards as it was before, and no block is closed that was not opened.

* `Laid` is the grammar of such layouts: lines of words and names, and blocks of such lines between
  two braces;
* `Node.laid_pieces` and `SourceUnit.laid_pieces` say that all declarations are laid out like this;
* `Page.Braced` is about the lines of the braces, and `Page.Balances` about all that a layout leaves
  on a page;
* `layout_balanced` is about declarations on any page, and about whole files.
-/

namespace AssemblyAtlas
namespace Syntax

/-! ## Layouts -/

/-- The piece stays within its line. -/
def Piece.isInline : Piece → Bool
  | .word _ | .name _ _ => true
  | .endLine | .deeper | .shallower => false

/-- Whole lines, in which blocks are opened and closed in pairs. The first line may have been
started before. A brace that opens or closes a block has a line of its own. -/
inductive Laid : (started : Bool) → List Piece → Prop
  | done : Laid false []
  | inline {started : Bool} {piece : Piece} {rest : List Piece} :
      piece.isInline = true →
      Laid true rest →
      Laid started (piece :: rest)
  | line {started : Bool} {rest : List Piece} :
      Laid false rest →
      Laid started (.endLine :: rest)
  | block {inner rest : List Piece} :
      Laid false inner →
      Laid false rest →
      Laid false (opening ++ inner ++ closing ++ rest)

namespace Laid

/-- Behind whole lines others may follow. -/
theorem append
    {started : Bool}
    {pieces more : List Piece}
    (laid : Laid started pieces)
    (later : Laid false more) :
    Laid started (pieces ++ more) := by
  induction laid with
  | done => exact later
  | inline stays _ ih => exact .inline stays ih
  | line _ ih => exact .line ih
  | block inside _ _ ih =>
      rw [List.append_assoc]
      exact .block inside ih

/-- Lines between braces are a block. -/
theorem braced
    {inner : List Piece}
    (inside : Laid false inner) :
    Laid false (opening ++ inner ++ closing) := by
  have closed := Laid.block inside .done
  rwa [List.append_nil] at closed

/-- Words and names may stand before what goes on with a line. -/
theorem after_inline
    {parts rest : List Piece}
    (stay : parts.all Piece.isInline = true)
    (completed : ∀ started, Laid started rest)
    (started : Bool) :
    Laid started (parts ++ rest) := by
  induction parts generalizing started with
  | nil => exact completed started
  | cons part parts ih =>
      rw [List.all_cons, Bool.and_eq_true] at stay
      exact .inline stay.1 (ih stay.2 true)

/-- Whole lines for each element make whole lines. -/
theorem flatMap
    {α : Type}
    {elements : List α}
    {pieces : α → List Piece}
    (each : ∀ element ∈ elements, Laid false (pieces element)) :
    Laid false (elements.flatMap pieces) := by
  induction elements with
  | nil => exact .done
  | cons element rest ih =>
      rw [List.forall_mem_cons] at each
      rw [List.flatMap_cons]
      exact each.1.append (ih each.2)

end Laid

/-! ## The parts of declarations -/

section Inline

open Piece

@[simp] theorem isInline_word (text : String) : isInline (.word text) = true := rfl

@[simp] theorem isInline_name (key : Assembly.SymbolKey) (text : String) :
    isInline (.name key text) = true := rfl

@[simp] theorem all_isInline_modifierPieces (modifiers : List String) :
    (modifierPieces modifiers).all isInline = true := by
  simp [modifierPieces]

@[simp] theorem all_isInline_typeParameterPieces (names : List String) :
    (typeParameterPieces names).all isInline = true := by
  rw [typeParameterPieces]
  split <;> rfl

@[simp] theorem all_isInline_parameterPieces (parameters : List ParameterNode) :
    (parameterPieces parameters).all isInline = true := rfl

@[simp] theorem all_isInline_valuePieces (value : Option Expression) :
    (valuePieces value).all isInline = true := by
  cases value <;> rfl

@[simp] theorem all_isInline_basePieces (bases : List TypeNode) :
    (basePieces bases).all isInline = true := by
  cases bases <;> rfl

@[simp] theorem all_isInline_namePieces (head : TypeHead) :
    head.namePieces.all isInline = true := by
  simp [TypeHead.namePieces]

end Inline

theorem laid_semicolon (started : Bool) : Laid started semicolon :=
  .inline rfl (.line .done)

/-- Attributes have their own lines, so they go before anything that starts with a line. -/
theorem Mark.laid_pieces
    (marks : List Mark)
    {rest : List Piece}
    (completed : ∀ started, Laid started rest)
    (started : Bool) :
    Laid started (Mark.pieces marks ++ rest) := by
  induction marks generalizing started with
  | nil => exact completed started
  | cons mark marks ih => exact .inline rfl (.line (ih false))

theorem Statement.laid_pieces (statement : Statement) : Laid false statement.pieces := by
  cases statement with
  | declareLocal type name => exact .inline rfl (laid_semicolon true)
  | throwNull => exact .inline rfl (.line .done)

/-- A body ends the line of its declaration. -/
theorem Body.laid_pieces (body : Body) (started : Bool) : Laid started (Body.pieces body) := by
  cases body with
  | none => exact laid_semicolon started
  | some statements =>
      exact .line (.braced (.flatMap fun statement _ => statement.laid_pieces))

/-- So do accessors, whether some of them have bodies or none has. -/
theorem laid_accessorPieces
    (accessors : List (String × Accessor))
    (started : Bool) :
    Laid started (accessorPieces accessors) := by
  rw [accessorPieces]
  split
  · have stay : (Piece.word " \x7b" :: accessors.map fun accessor =>
        Piece.word (" " ++ accessor.1 ++ ";")).all Piece.isInline = true := by
      simp
    exact .after_inline stay (fun _ => .inline rfl (.line .done)) started
  · exact .line (.braced (.flatMap fun accessor _ =>
      .inline rfl (Body.laid_pieces accessor.2.body true)))

/-! ## Declarations -/

theorem FieldNode.laid_pieces (field : FieldNode) (started : Bool) :
    Laid started field.pieces := by
  rw [pieces, List.append_assoc, List.append_assoc, List.append_assoc]
  refine Mark.laid_pieces field.marks (fun started => ?_) started
  rw [← List.append_assoc, ← List.append_assoc]
  exact .after_inline (by simp) laid_semicolon started

theorem EnumMemberNode.laid_pieces (member : EnumMemberNode) (started : Bool) :
    Laid started member.pieces := by
  rw [pieces, List.append_assoc, List.append_assoc]
  refine Mark.laid_pieces member.marks (fun started => ?_) started
  rw [← List.append_assoc]
  exact .after_inline (by simp) (fun _ => .inline rfl (.line .done)) started

theorem MethodNode.laid_pieces (method : MethodNode) (started : Bool) :
    Laid started method.pieces := by
  have returns : (method.returns.elim [] fun type =>
      [Piece.word (type.spelling ++ " ")]).all Piece.isInline = true := by
    cases method.returns <;> rfl
  rw [pieces]
  simp only [List.append_assoc]
  refine Mark.laid_pieces method.marks (fun started => ?_) started
  simp only [← List.append_assoc]
  exact .after_inline (by simp [returns]) (Body.laid_pieces method.body) started

theorem PropertyNode.laid_pieces (property : PropertyNode) (started : Bool) :
    Laid started property.pieces := by
  rw [pieces, List.append_assoc, List.append_assoc]
  refine Mark.laid_pieces property.marks (fun started => ?_) started
  rw [← List.append_assoc]
  exact .after_inline (by simp) (laid_accessorPieces _) started

theorem EventNode.laid_pieces (event : EventNode) (started : Bool) :
    Laid started event.pieces := by
  rw [pieces, List.append_assoc, List.append_assoc]
  refine Mark.laid_pieces event.marks (fun started => ?_) started
  rw [← List.append_assoc]
  exact .after_inline (by simp) laid_semicolon started

/-- The line with the keyword and the name of a type may go on. -/
theorem TypeHead.laid_leadPieces
    (head : TypeHead)
    {rest : List Piece}
    (completed : ∀ started, Laid started rest)
    (started : Bool) :
    Laid started (head.leadPieces ++ rest) := by
  rw [leadPieces, List.append_assoc, List.append_assoc]
  refine Mark.laid_pieces head.marks (fun started => ?_) started
  rw [← List.append_assoc]
  exact .after_inline (by simp) completed started

/-- A delegate ends within its line. -/
theorem TypeHead.laid_delegatePieces
    (head : TypeHead)
    (delegate : DelegateNode)
    (started : Bool) :
    Laid started (head.delegatePieces delegate) := by
  rw [delegatePieces]
  simp only [List.append_assoc]
  refine head.laid_leadPieces (fun started => ?_) started
  simp only [← List.append_assoc]
  exact .after_inline (by simp) laid_semicolon started

/-- The members of any other type are a block below its line. -/
theorem TypeHead.laid_blockPieces
    (head : TypeHead)
    {members : List Piece}
    (inside : Laid false members)
    (started : Bool) :
    Laid started (head.blockPieces ++ members ++ closing) := by
  rw [blockPieces]
  simp only [List.append_assoc]
  refine head.laid_leadPieces (fun started => ?_) started
  rw [← List.append_assoc]
  refine .after_inline (by simp) (fun _ => .line ?_) started
  show Laid false (opening ++ (members ++ closing))
  rw [← List.append_assoc]
  exact inside.braced

mutual

/-- A declaration is laid out in whole lines and blocks. -/
theorem Node.laid_pieces : (node : Node) → (started : Bool) → Laid started node.pieces
  | .space _ members, _ => .inline rfl (.line (laid_spacedPieces members).braced)
  | .type head members, started => by
      rw [pieces]
      split
      · exact head.laid_delegatePieces _ started
      · split
        · exact head.laid_blockPieces (laid_stackedPieces members) started
        · exact head.laid_blockPieces (laid_spacedPieces members) started
  | .field declaration, started => declaration.laid_pieces started
  | .enumMember declaration, started => declaration.laid_pieces started
  | .method declaration, started => declaration.laid_pieces started
  | .property declaration, started => declaration.laid_pieces started
  | .event declaration, started => declaration.laid_pieces started

theorem Node.laid_spacedPieces : (nodes : List Node) → Laid false (spacedPieces nodes)
  | [] => .done
  | node :: rest => (node.laid_pieces false).append (laid_furtherPieces rest)

theorem Node.laid_furtherPieces : (nodes : List Node) → Laid false (furtherPieces nodes)
  | [] => .done
  | node :: rest => .line ((node.laid_pieces false).append (laid_furtherPieces rest))

theorem Node.laid_stackedPieces : (nodes : List Node) → Laid false (stackedPieces nodes)
  | [] => .done
  | node :: rest => (node.laid_pieces false).append (laid_stackedPieces rest)

end

/-- A source file is laid out in whole lines and blocks. -/
theorem SourceUnit.laid_pieces (unit : SourceUnit) : Laid false unit.pieces := by
  have marks : Laid false (Mark.pieces unit.marks) :=
    .flatMap fun _ _ => .inline rfl (.line .done)
  have between : Laid false
      (if unit.marks.isEmpty ∨ unit.members.isEmpty then [] else [.endLine]) := by
    split
    · exact .done
    · exact .line .done
  exact (marks.append between).append (Node.laid_spacedPieces unit.members)

/-! ## Layouts on a page -/

namespace Page

variable {format : Format} {page : Page}

@[simp] theorem addAll_nil (format : Format) (page : Page) :
    page.addAll format [] = page := rfl

@[simp] theorem addAll_cons
    (format : Format)
    (page : Page)
    (piece : Piece)
    (rest : List Piece) :
    page.addAll format (piece :: rest) = (page.add format piece).addAll format rest := rfl

@[simp] theorem addAll_append
    (format : Format)
    (page : Page)
    (first second : List Piece) :
    page.addAll format (first ++ second) = (page.addAll format first).addAll format second :=
  List.foldl_append

/-- A text has got a line of its own, behind as many indentations as blocks are open. -/
structure GetsLine (format : Format) (page next : Page) (text : String) : Prop where
  fresh : page.location.column = 0
  written : next.text = page.text
    ++ (String.join (List.replicate page.indent format.indentation) ++ text ++ format.newLine)
  further : next.location = ⟨page.location.line + 1, 0⟩

/-- Each block that is opened has a line with an opening brace before it, and each one that is
closed a line with a closing brace behind it. More blocks than a number are open when one is
closed. -/
structure Braced (format : Format) (page : Page) (below : Nat) (pieces : List Piece) : Prop where
  opened : ∀ before after, pieces = before ++ .deeper :: after →
    ∃ front, before = front ++ [.word "\x7b", .endLine]
      ∧ GetsLine format (page.addAll format front) (page.addAll format before) "\x7b"
  closed : ∀ before after, pieces = before ++ .shallower :: after →
    below < (page.addAll format before).indent
      ∧ ∃ rest, after = [.word "\x7d", .endLine] ++ rest
        ∧ GetsLine format (page.addAll format (before ++ [.shallower]))
          (page.addAll format (before ++ closing)) "\x7d"

/-- Pieces leave a page at the start of a line, as far in as it was before. The lines that they put
on it are counted, and braces open and close blocks in pairs, above those that were open before. -/
structure Balances (format : Format) (page : Page) (pieces : List Piece) : Prop where
  indent : (page.addAll format pieces).indent = page.indent
  location : (page.addAll format pieces).location
    = ⟨page.location.line + pieces.count .endLine, 0⟩
  braced : Braced format page page.indent pieces
  even : pieces.count .deeper = pieces.count .shallower

/-! ### Single pieces -/

@[simp] theorem write_indent (page : Page) (format : Format) (text : String) :
    (page.write format text).indent = page.indent := by
  rw [write, indented]
  split
  · rfl
  · split <;> rfl

@[simp] theorem write_line (page : Page) (format : Format) (text : String) :
    (page.write format text).location.line = page.location.line := by
  rw [write, indented]
  split
  · rfl
  · split <;> rfl

@[simp] theorem indented_indent (page : Page) (format : Format) :
    (page.indented format).indent = page.indent := by
  rw [indented]
  split <;> rfl

@[simp] theorem indented_line (page : Page) (format : Format) :
    (page.indented format).location.line = page.location.line := by
  rw [indented]
  split <;> rfl

theorem add_inline
    (format : Format)
    (page : Page)
    {piece : Piece}
    (stays : piece.isInline = true) :
    (page.add format piece).indent = page.indent
      ∧ (page.add format piece).location.line = page.location.line := by
  cases piece with
  | word text => exact ⟨page.write_indent format text, page.write_line format text⟩
  | name key text => simp [add]
  | endLine | deeper | shallower => cases stays

/-- A word that is not empty gets a line, if none is started. -/
theorem getsLine
    (fresh : page.location.column = 0)
    (text : String)
    (some_text : text ≠ "") :
    GetsLine format page (page.addAll format [.word text, .endLine]) text := by
  have written : page.write format text
      = (page.append (String.join
        (List.replicate page.indent format.indentation))).append text := by
    rw [write, if_neg some_text, indented, if_pos fresh]
  refine ⟨fresh, ?_, ?_⟩
  · rw [addAll_cons, addAll_cons, addAll_nil, add, add, written]
    simp only [append, String.append_assoc]
  · rw [addAll_cons, addAll_cons, addAll_nil, add, add, written]
    rfl

/-! ### Braces -/

/-- A piece of a composed list is in the one part or in the other. -/
theorem split_append
    {first second before after : List Piece}
    {piece : Piece}
    (whole : first ++ second = before ++ piece :: after) :
    (∃ rest, first = before ++ piece :: rest ∧ after = rest ++ second)
      ∨ ∃ front, before = first ++ front ∧ second = front ++ piece :: after := by
  rcases List.append_eq_append_iff.1 whole with ⟨front, isBefore, isSecond⟩ | ⟨rest, isFirst, both⟩
  · exact .inr ⟨front, isBefore, isSecond⟩
  · cases rest with
    | nil =>
        rw [List.append_nil] at isFirst
        exact .inr ⟨[], by rw [List.append_nil, isFirst], both.symm⟩
    | cons head rest =>
        obtain ⟨rfl, rfl⟩ := List.cons_eq_cons.1 both
        exact .inl ⟨rest, isFirst, rfl⟩

namespace Braced

variable {below : Nat}

theorem mono
    {pieces : List Piece}
    (braced : Braced format page below pieces)
    {lower : Nat}
    (le : lower ≤ below) :
    Braced format page lower pieces where
  opened := braced.opened
  closed := fun before after whole =>
    (braced.closed before after whole).imp_left (Nat.lt_of_le_of_lt le)

theorem append
    {first second : List Piece}
    (left : Braced format page below first)
    (right : Braced format (page.addAll format first) below second) :
    Braced format page below (first ++ second) := by
  refine ⟨fun before after whole => ?opened, fun before after whole => ?closed⟩
  case opened =>
    rcases split_append whole with ⟨rest, inFirst, -⟩ | ⟨front, rfl, inSecond⟩
    · exact left.opened before rest inFirst
    · obtain ⟨start, rfl, line⟩ := right.opened front after inSecond
      refine ⟨first ++ start, by rw [List.append_assoc], ?_⟩
      rwa [addAll_append, addAll_append]
  case closed =>
    rcases split_append whole with ⟨rest, inFirst, rfl⟩ | ⟨front, rfl, inSecond⟩
    · obtain ⟨deep, later, rfl, line⟩ := left.closed before rest inFirst
      exact ⟨deep, later ++ second, by rw [List.append_assoc], line⟩
    · obtain ⟨deep, later, rfl, line⟩ := right.closed front after inSecond
      rw [addAll_append, List.append_assoc, List.append_assoc, addAll_append,
        addAll_append _ _ first]
      exact ⟨deep, later, rfl, line⟩

/-- Other pieces have nothing to do with blocks. -/
theorem of_not_mem
    {pieces : List Piece}
    (notDeeper : .deeper ∉ pieces)
    (notShallower : .shallower ∉ pieces) :
    Braced format page below pieces where
  opened := fun before _ whole =>
    absurd (whole ▸ List.mem_append_right before List.mem_cons_self) notDeeper
  closed := fun before _ whole =>
    absurd (whole ▸ List.mem_append_right before List.mem_cons_self) notShallower

theorem of_opening (fresh : page.location.column = 0) :
    Braced format page below opening := by
  refine ⟨fun before after whole => ⟨[], ?_⟩, fun before after whole => ?_⟩
  · obtain rfl : before = [.word "\x7b", .endLine] := by
      match before with
      | [] | [_] | [_, _] | _ :: _ :: _ :: _ => simp_all [opening]
    exact ⟨rfl, getsLine fresh "\x7b" (by decide)⟩
  · have inside : Piece.shallower ∈ opening :=
      whole ▸ List.mem_append_right before List.mem_cons_self
    exact absurd inside (by decide)

theorem of_closing
    (fresh : page.location.column = 0)
    (deep : below < page.indent) :
    Braced format page below closing := by
  refine ⟨fun before after whole => ?_, fun before after whole => ?_⟩
  · have inside : Piece.deeper ∈ closing :=
      whole ▸ List.mem_append_right before List.mem_cons_self
    exact absurd inside (by decide)
  · obtain ⟨rfl, rfl⟩ : before = [] ∧ after = [.word "\x7d", .endLine] := by
      match before with
      | [] | [_] | [_, _] | _ :: _ :: _ :: _ => simp_all [closing]
    have still : (page.add format .shallower).location.column = 0 := fresh
    exact ⟨deep, [], rfl, getsLine still "\x7d" (by decide)⟩

end Braced

/-! ### Whole layouts -/

theorem addAll_opening (format : Format) (page : Page) :
    (page.addAll format opening).indent = page.indent + 1
      ∧ (page.addAll format opening).location = ⟨page.location.line + 1, 0⟩ := by
  simp [opening, add]

theorem addAll_closing (format : Format) (page : Page) :
    (page.addAll format closing).indent = page.indent - 1
      ∧ (page.addAll format closing).location = ⟨page.location.line + 1, 0⟩ := by
  simp [closing, add]

namespace Balances

theorem append
    {first second : List Piece}
    (left : page.Balances format first)
    (right : (page.addAll format first).Balances format second) :
    page.Balances format (first ++ second) where
  indent := by rw [addAll_append, right.indent, left.indent]
  location := by
    rw [addAll_append, right.location, left.location, List.count_append, Nat.add_assoc]
  braced := left.braced.append (left.indent ▸ right.braced)
  even := by rw [List.count_append, List.count_append, left.even, right.even]

/-- A piece that has nothing to do with blocks may go before. -/
theorem cons
    {piece : Piece}
    {rest : List Piece}
    (notDeeper : piece ≠ .deeper)
    (notShallower : piece ≠ .shallower)
    (indent : (page.add format piece).indent = page.indent)
    (line : (page.add format piece).location.line
      = page.location.line + [piece].count .endLine)
    (later : (page.add format piece).Balances format rest) :
    page.Balances format (piece :: rest) where
  indent := by rw [addAll_cons, later.indent, indent]
  location := by
    rw [addAll_cons, later.location, line, Nat.add_assoc, ← List.count_append]
    rfl
  braced := by
    have alone : Braced format page page.indent [piece] :=
      .of_not_mem (by simpa using notDeeper.symm) (by simpa using notShallower.symm)
    exact alone.append (indent ▸ later.braced)
  even := by
    rw [List.count_cons_of_ne notDeeper, List.count_cons_of_ne notShallower, later.even]

/-- A block is as far in as what is around it, and what is inside of it is one step further in. -/
theorem block
    {inner : List Piece}
    (fresh : page.location.column = 0)
    (inside : (page.addAll format opening).Balances format inner) :
    page.Balances format (opening ++ inner ++ closing) := by
  obtain ⟨deeper, started⟩ := page.addAll_opening format
  have within : (page.addAll format (opening ++ inner)).indent = page.indent + 1 := by
    rw [addAll_append, inside.indent, deeper]
  have place : (page.addAll format (opening ++ inner)).location
      = ⟨page.location.line + 1 + inner.count .endLine, 0⟩ := by
    rw [addAll_append, inside.location, started]
  obtain ⟨shallower, ended⟩ := (page.addAll format (opening ++ inner)).addAll_closing format
  refine ⟨?indent, ?location, ?braced, ?even⟩
  case indent => rw [addAll_append, shallower, within, Nat.add_sub_cancel]
  case location =>
    rw [addAll_append, ended, place, List.count_append, List.count_append]
    have lines : opening.count .endLine = 1 ∧ closing.count .endLine = 1 := by decide
    rw [lines.1, lines.2, Nat.add_assoc, Nat.add_assoc, Nat.add_assoc]
  case braced =>
    have deep : page.indent < (page.addAll format (opening ++ inner)).indent := by omega
    have further : page.indent ≤ (page.addAll format opening).indent := by omega
    refine ((Braced.of_opening fresh).append (inside.braced.mono further)).append ?_
    exact .of_closing (by rw [place]) deep
  case even =>
    have braces : opening.count .deeper = 1 ∧ opening.count .shallower = 0
        ∧ closing.count .deeper = 0 ∧ closing.count .shallower = 1 := by decide
    simp only [List.count_append, braces, inside.even]
    omega

end Balances

/-- Whole lines and blocks are balanced on a page, if their first line has the place it needs. -/
theorem balances_of_laid
    {started : Bool}
    {pieces : List Piece}
    (laid : Laid started pieces)
    (fresh : started = false → page.location.column = 0) :
    page.Balances format pieces := by
  induction laid generalizing page with
  | done =>
      refine ⟨rfl, ?_, .of_not_mem List.not_mem_nil List.not_mem_nil, rfl⟩
      rw [addAll_nil, List.count_nil, Nat.add_zero, ← fresh rfl]
  | @inline started piece rest stays _ ih =>
      obtain ⟨indent, line⟩ := page.add_inline format stays
      refine .cons ?_ ?_ indent ?_ (ih fun never => nomatch never)
      · rintro rfl
        cases stays
      · rintro rfl
        cases stays
      · cases piece with
        | word text => exact line
        | name key text => exact line
        | endLine | deeper | shallower => cases stays
  | line _ ih => exact .cons Piece.noConfusion Piece.noConfusion rfl rfl (ih fun _ => rfl)
  | @block inner rest _ _ ihInside ihRest =>
      obtain ⟨-, started⟩ := page.addAll_opening format
      have whole : page.Balances format (opening ++ inner ++ closing) :=
        .block (fresh rfl) (ihInside fun _ => by rw [started])
      exact whole.append (ihRest fun _ => by rw [whole.location])

/-! ### The end of the text -/

/-- Behind the text of a page there may only be more. -/
theorem exists_add_text (format : Format) (page : Page) (piece : Piece) :
    ∃ more, (page.add format piece).text = page.text ++ more := by
  cases piece with
  | word text => exact page.exists_write_text format text
  | name key text =>
      obtain ⟨more, found⟩ := page.exists_indented_text format
      refine ⟨more ++ text, ?_⟩
      rw [add, write_indented_text, found, String.append_assoc]
  | endLine => exact ⟨format.newLine, rfl⟩
  | deeper | shallower => exact ⟨"", String.append_empty.symm⟩

theorem exists_addAll_text (format : Format) (page : Page) (pieces : List Piece) :
    ∃ more, (page.addAll format pieces).text = page.text ++ more := by
  induction pieces generalizing page with
  | nil => exact ⟨"", String.append_empty.symm⟩
  | cons piece rest ih =>
      obtain ⟨first, found⟩ := page.exists_add_text format piece
      obtain ⟨more, later⟩ := ih (page.add format piece)
      exact ⟨first ++ more, by rw [addAll_cons, later, found, String.append_assoc]⟩

end Page

/-- Whole lines end with the end of a line. -/
theorem Laid.exists_concat
    {started : Bool}
    {pieces : List Piece}
    (laid : Laid started pieces)
    (some_line : started = true ∨ pieces ≠ []) :
    ∃ front, pieces = front ++ [.endLine] := by
  induction laid with
  | done => exact absurd rfl (some_line.resolve_left Bool.false_ne_true)
  | @inline started piece rest _ _ ih =>
      obtain ⟨front, rfl⟩ := ih (.inl rfl)
      exact ⟨piece :: front, rfl⟩
  | @line started rest _ ih =>
      cases rest with
      | nil => exact ⟨[], rfl⟩
      | cons head tail =>
          obtain ⟨front, same⟩ := ih (.inr (List.cons_ne_nil head tail))
          exact ⟨.endLine :: front, congrArg (List.cons _) same⟩
  | @block inner rest _ _ _ ih =>
      cases rest with
      | nil => exact ⟨opening ++ inner ++ [.shallower, .word "\x7d"], by simp [closing]⟩
      | cons head tail =>
          obtain ⟨front, same⟩ := ih (.inr (List.cons_ne_nil head tail))
          exact ⟨opening ++ inner ++ closing ++ front, by rw [same, ← List.append_assoc]⟩

/-- On any page a declaration ends with the end of a line, at the start of the next one and as far
in as before; each end of a line counts for one line. Each block that is opened or closed in it has
a line of its own with the brace, and no block is closed that was open before. So it is in a whole
file, where no block is open at the start or at the end. -/
theorem layout_balanced (format : Format) :
    (∀ (node : Node) (page : Page),
        page.Balances format node.pieces
          ∧ ∃ written, (page.addAll format node.pieces).text
            = page.text ++ (written ++ format.newLine))
      ∧ ∀ unit : SourceUnit,
        Page.empty.Balances format unit.pieces
          ∧ (Page.empty.addAll format unit.pieces).indent = 0 := by
  refine ⟨fun node page => ⟨?_, ?_⟩, fun unit => ?_⟩
  · exact Page.balances_of_laid (node.laid_pieces true) fun never => nomatch never
  · obtain ⟨front, whole⟩ := (node.laid_pieces true).exists_concat (.inl rfl)
    obtain ⟨written, found⟩ := page.exists_addAll_text format front
    refine ⟨written, ?_⟩
    rw [whole, Page.addAll_append, ← String.append_assoc, ← found]
    rfl
  · have balances : Page.empty.Balances format unit.pieces :=
      Page.balances_of_laid unit.laid_pieces fun _ => rfl
    exact ⟨balances, balances.indent⟩

end Syntax
end AssemblyAtlas
