import AssemblyAtlas.Syntax.Page
import Mathlib.Data.List.Nodup

/-!
# The keys of a rendered tree

A page notes the keys of the declarations that are laid out: all of a tree but those inside a
delegate.

* `SourceUnit.declarations` lists the keys and names of these declarations in the order in which
  they are written, and `SourceUnit.declared_pieces` finds them among the pieces;
* `SourceUnit.mem_keys_render_iff` is about the keys that a page notes.
-/

namespace AssemblyAtlas
namespace Syntax

open Assembly

mutual

/-- The keys and names of a declaration and of those inside it, but not of those inside a
delegate. -/
def Node.declarations : Node → List (SymbolKey × String)
  | .space _ members => Node.declarationsOfAll members
  | .type head members =>
      (head.symbol, head.name) ::
        if head.delegate.isSome then [] else Node.declarationsOfAll members
  | .field declaration => [(declaration.symbol, declaration.name)]
  | .enumMember declaration => [(declaration.symbol, declaration.name)]
  | .method declaration => [(declaration.symbol, declaration.name)]
  | .property declaration => [(declaration.symbol, declaration.name)]
  | .event declaration => [(declaration.symbol, declaration.name)]

/-- The keys and names of declarations, one declaration after the other. -/
def Node.declarationsOfAll : List Node → List (SymbolKey × String)
  | [] => []
  | node :: rest => node.declarations ++ Node.declarationsOfAll rest

end

/-- The keys and names of the declarations of a source file. -/
def SourceUnit.declarations (unit : SourceUnit) : List (SymbolKey × String) :=
  Node.declarationsOfAll unit.members

/-- The declaration, or one inside it, has the key. -/
def Node.Declares (key : SymbolKey) (node : Node) : Prop :=
  key ∈ node.declarations.map (·.1)

/-- A declaration of the source file has the key. -/
def SourceUnit.Declares (key : SymbolKey) (unit : SourceUnit) : Prop :=
  key ∈ unit.declarations.map (·.1)

theorem Node.mem_declarationsOfAll_iff
    {key : SymbolKey}
    {nodes : List Node} :
    key ∈ (declarationsOfAll nodes).map (·.1) ↔ ∃ node ∈ nodes, node.Declares key := by
  induction nodes with
  | nil => simp [declarationsOfAll]
  | cons node rest ih =>
      rw [declarationsOfAll, List.map_append, List.mem_append, ih]
      simp only [List.mem_cons, exists_eq_or_imp, Declares]

/-! ## Names among pieces -/

/-- The key and the name of a piece that declares. -/
def Piece.declared? : Piece → Option (SymbolKey × String)
  | .name key text => some (key, text)
  | .word _ | .endLine | .deeper | .shallower => none

/-- The keys and names among pieces. -/
def Piece.declared (pieces : List Piece) : List (SymbolKey × String) :=
  pieces.filterMap Piece.declared?

namespace Piece

@[simp] theorem declared_nil :
    declared [] = [] := rfl

@[simp] theorem declared_word
    (text : String)
    (pieces : List Piece) :
    declared (.word text :: pieces) = declared pieces := rfl

@[simp] theorem declared_name
    (key : SymbolKey)
    (text : String)
    (pieces : List Piece) :
    declared (.name key text :: pieces) = (key, text) :: declared pieces := rfl

@[simp] theorem declared_endLine
    (pieces : List Piece) :
    declared (.endLine :: pieces) = declared pieces := rfl

@[simp] theorem declared_append
    (left right : List Piece) :
    declared (left ++ right) = declared left ++ declared right :=
  List.filterMap_append

@[simp] theorem declared_opening : declared opening = [] := rfl

@[simp] theorem declared_closing : declared closing = [] := rfl

@[simp] theorem declared_semicolon : declared semicolon = [] := rfl

/-- Where no element declares, all of them together declare nothing. -/
theorem declared_flatMap
    {α : Type}
    {elements : List α}
    {pieces : α → List Piece}
    (silent : ∀ element, declared (pieces element) = []) :
    declared (elements.flatMap pieces) = [] := by
  induction elements with
  | nil => rfl
  | cons element rest ih =>
      rw [List.flatMap_cons, declared_append, silent element, ih]
      rfl

end Piece

open Piece (declared)

@[simp] theorem Mark.declared_pieces (marks : List Mark) :
    declared (pieces marks) = [] :=
  Piece.declared_flatMap fun _ => rfl

@[simp] theorem declared_modifierPieces (modifiers : List String) :
    declared (modifierPieces modifiers) = [] := by
  induction modifiers with
  | nil => rfl
  | cons modifier rest ih => exact ih

@[simp] theorem declared_typeParameterPieces (names : List String) :
    declared (typeParameterPieces names) = [] := by
  rw [typeParameterPieces]
  split <;> rfl

@[simp] theorem declared_parameterPieces (parameters : List ParameterNode) :
    declared (parameterPieces parameters) = [] := rfl

@[simp] theorem Body.declared_pieces (body : Body) :
    declared (Body.pieces body) = [] := by
  cases body with
  | none => rfl
  | some statements =>
      have silent (statement : Statement) : declared statement.pieces = [] := by
        cases statement <;> rfl
      simp [pieces, Piece.declared_flatMap silent]

@[simp] theorem declared_valuePieces (value : Option Expression) :
    declared (valuePieces value) = [] := by
  cases value <;> rfl

@[simp] theorem declared_accessorPieces (accessors : List (String × Accessor)) :
    declared (accessorPieces accessors) = [] := by
  rw [accessorPieces]
  split
  · have words (some : List (String × Accessor)) :
        declared (some.map fun accessor => .word (" " ++ accessor.1 ++ ";")) = [] := by
      induction some with
      | nil => rfl
      | cons accessor rest ih => exact ih
    simp [words accessors]
  · have blocks : declared (accessors.flatMap fun accessor =>
        .word accessor.1 :: Body.pieces accessor.2.body) = [] :=
      Piece.declared_flatMap fun accessor => by simp
    simp [blocks]

@[simp] theorem declared_basePieces (bases : List TypeNode) :
    declared (basePieces bases) = [] := by
  cases bases <;> rfl

@[simp] theorem MethodNode.declared_pieces (method : MethodNode) :
    declared method.pieces = [(method.symbol, method.name)] := by
  cases result : method.returns <;> simp [pieces, result]

@[simp] theorem TypeHead.declared_delegatePieces
    (head : TypeHead)
    (delegate : DelegateNode) :
    declared (head.delegatePieces delegate) = [(head.symbol, head.name)] := by
  simp [delegatePieces, leadPieces, namePieces]

@[simp] theorem TypeHead.declared_blockPieces (head : TypeHead) :
    declared head.blockPieces = [(head.symbol, head.name)] := by
  simp [blockPieces, leadPieces, namePieces]

mutual

/-- The pieces of a declaration declare what the declaration does. -/
theorem Node.declared_pieces :
    (node : Node) → declared node.pieces = node.declarations
  | .space _ members => by simp [pieces, declarations, declared_spacedPieces members]
  | .type head members => by
      rw [pieces, declarations]
      split
      · next delegate isDelegate => simp [isDelegate]
      · next plain =>
          split <;> simp [plain, declared_stackedPieces members, declared_spacedPieces members]
  | .field declaration => by simp [pieces, FieldNode.pieces, declarations]
  | .enumMember declaration => by simp [pieces, EnumMemberNode.pieces, declarations]
  | .method declaration => by simp [pieces, declarations]
  | .property declaration => by simp [pieces, PropertyNode.pieces, declarations]
  | .event declaration => by simp [pieces, EventNode.pieces, declarations]

theorem Node.declared_spacedPieces :
    (nodes : List Node) → declared (spacedPieces nodes) = declarationsOfAll nodes
  | [] => rfl
  | node :: rest => by
      simp [spacedPieces, declarationsOfAll, node.declared_pieces, declared_furtherPieces rest]

theorem Node.declared_furtherPieces :
    (nodes : List Node) → declared (furtherPieces nodes) = declarationsOfAll nodes
  | [] => rfl
  | node :: rest => by
      simp [furtherPieces, declarationsOfAll, node.declared_pieces, declared_furtherPieces rest]

theorem Node.declared_stackedPieces :
    (nodes : List Node) → declared (stackedPieces nodes) = declarationsOfAll nodes
  | [] => rfl
  | node :: rest => by
      simp [stackedPieces, declarationsOfAll, node.declared_pieces, declared_stackedPieces rest]

end

/-- The pieces of a source file declare what the file does. -/
theorem SourceUnit.declared_pieces (unit : SourceUnit) :
    declared unit.pieces = unit.declarations := by
  have between : declared
      (if unit.marks.isEmpty ∨ unit.members.isEmpty then [] else [.endLine]) = [] := by
    split <;> rfl
  rw [pieces, Piece.declared_append, Piece.declared_append, between, Mark.declared_pieces,
    Node.declared_spacedPieces]
  rfl

/-! ## Noted keys -/

namespace SymbolIndex

/-- The keys that are noted. -/
def keys (index : SymbolIndex) : List SymbolKey :=
  index.entries.map (·.1)

theorem isSome_find?_iff
    {index : SymbolIndex}
    {key : SymbolKey} :
    (index.find? key).isSome ↔ key ∈ index.keys := by
  simp [find?, keys]

/-- A place of a key that is noted already changes nothing. -/
theorem note_of_mem
    {index : SymbolIndex}
    {key : SymbolKey}
    (noted : key ∈ index.keys)
    (location : Location) :
    index.note key location = index := by
  rw [note, if_pos (isSome_find?_iff.2 noted)]

/-- The place of a new key comes last. -/
theorem note_of_not_mem
    {index : SymbolIndex}
    {key : SymbolKey}
    (new : key ∉ index.keys)
    (location : Location) :
    index.note key location = ⟨index.entries ++ [(key, location)]⟩ := by
  rw [note, if_neg (new ∘ isSome_find?_iff.1)]

theorem mem_keys_note
    {index : SymbolIndex}
    {key other : SymbolKey}
    {location : Location} :
    other ∈ (index.note key location).keys ↔ other ∈ index.keys ∨ other = key := by
  by_cases noted : key ∈ index.keys
  · rw [note_of_mem noted]
    constructor
    · exact Or.inl
    · rintro (old | rfl)
      · exact old
      · exact noted
  · rw [note_of_not_mem noted]
    simp [keys]

/-- Noting keeps the keys distinct. -/
theorem nodup_keys_note
    {index : SymbolIndex}
    (nodup : index.keys.Nodup)
    (key : SymbolKey)
    (location : Location) :
    (index.note key location).keys.Nodup := by
  by_cases noted : key ∈ index.keys
  · rw [note_of_mem noted]
    exact nodup
  · rw [note_of_not_mem noted, keys, List.map_append, List.nodup_append']
    refine ⟨nodup, by simp, ?_⟩
    simpa [keys] using noted

end SymbolIndex

namespace Page

@[simp] theorem indented_symbols
    (page : Page)
    (format : Format) :
    (page.indented format).symbols = page.symbols := by
  rw [indented]
  split <;> rfl

@[simp] theorem write_symbols
    (page : Page)
    (format : Format)
    (text : String) :
    (page.write format text).symbols = page.symbols := by
  rw [write]
  split
  · rfl
  · exact page.indented_symbols format

/-- Pieces that declare note their keys. -/
theorem add_symbols
    (format : Format)
    (page : Page)
    (piece : Piece) :
    (page.add format piece).symbols =
      match piece.declared? with
      | some (key, _) => page.symbols.note key (page.indented format).location
      | none => page.symbols := by
  cases piece <;> simp [add, Piece.declared?]

/-- A page notes the keys of what is declared, each once. -/
theorem keys_addAll
    (format : Format)
    (pieces : List Piece)
    (page : Page)
    (nodup : page.symbols.keys.Nodup) :
    (page.addAll format pieces).symbols.keys.Nodup ∧
      ∀ key, key ∈ (page.addAll format pieces).symbols.keys ↔
        key ∈ page.symbols.keys ∨ key ∈ (declared pieces).map (·.1) := by
  induction pieces generalizing page with
  | nil => exact ⟨nodup, fun key => by simp [addAll]⟩
  | cons piece rest ih =>
      have after := page.add_symbols format piece
      cases declares : piece.declared? with
      | none =>
          rw [declares] at after
          have silent : declared (piece :: rest) = declared rest :=
            List.filterMap_cons_none declares
          obtain ⟨distinct, noted⟩ := ih (page.add format piece) (after ▸ nodup)
          refine ⟨distinct, fun key => ?_⟩
          rw [silent]
          have := noted key
          rwa [after] at this
      | some declaration =>
          obtain ⟨own, text⟩ := declaration
          rw [declares] at after
          have speaks : declared (piece :: rest) = (own, text) :: declared rest :=
            List.filterMap_cons_some declares
          have once := SymbolIndex.nodup_keys_note nodup own (page.indented format).location
          obtain ⟨distinct, noted⟩ := ih (page.add format piece) (after ▸ once)
          refine ⟨distinct, fun key => ?_⟩
          have step := noted key
          rw [after, SymbolIndex.mem_keys_note] at step
          rw [speaks, List.map_cons, List.mem_cons, ← or_assoc]
          exact step

end Page

/-- The keys of a rendered source file are those of its declarations. -/
theorem SourceUnit.mem_keys_render_iff
    (unit : SourceUnit)
    (format : Format)
    (key : SymbolKey) :
    key ∈ (unit.render format).symbols.keys ↔ unit.Declares key := by
  have noted := (Page.keys_addAll format unit.pieces .empty List.nodup_nil).2 key
  rw [unit.declared_pieces] at noted
  have empty : key ∉ Page.empty.symbols.keys := List.not_mem_nil
  exact noted.trans ⟨fun either => either.resolve_left empty, Or.inr⟩

/-- A rendered source file notes each key once. -/
theorem SourceUnit.nodup_keys_render
    (unit : SourceUnit)
    (format : Format) :
    (unit.render format).symbols.keys.Nodup :=
  (Page.keys_addAll format unit.pieces .empty List.nodup_nil).1

/-- A rendered source file without declarations notes nothing. -/
theorem SourceUnit.symbols_render_of_members
    {unit : SourceUnit}
    (none : unit.members = [])
    (format : Format) :
    (unit.render format).symbols = .empty := by
  have keys : (unit.render format).symbols.keys = [] := by
    refine List.eq_nil_iff_forall_not_mem.2 fun key isKey => ?_
    have declares := (unit.mem_keys_render_iff format key).1 isKey
    rw [Declares, declarations, none] at declares
    exact absurd declares List.not_mem_nil
  have entries : (unit.render format).symbols.entries = [] := List.map_eq_nil_iff.1 keys
  cases rendered : (unit.render format).symbols with
  | mk noted =>
      rw [rendered] at entries
      exact congrArg SymbolIndex.mk entries

end Syntax
end AssemblyAtlas
