import AssemblyAtlas.Proofs.Syntax.Declared
import AssemblyAtlas.Proofs.Syntax.OneLine

/-!
# The places of declared names

A page knows at which line and column its text ends. So a noted place is where the name stands, and
it stays so, since text is put behind what is there.

* `Stands` says that a name stands at a place of a text;
* `Page.Tracked` is what each piece keeps; it needs pieces and indentation within one line, and ends
  of lines with a line feed at their end only;
* `SourceUnit.stands_render` is about whole files.
-/

namespace AssemblyAtlas
namespace Syntax

open Assembly

/-- The line at the place goes on with the name from the column on. -/
def Stands (text : String) (location : Location) (name : String) : Prop :=
  ∃ line, (Text.pieces '\n' text.toList)[location.line]? = some line
    ∧ name.toList <+: line.drop location.column

/-- The place is where the text ends. -/
def EndsAt (text : String) (location : Location) : Prop :=
  ∃ earlier last, Text.pieces '\n' text.toList = earlier ++ [last]
    ∧ earlier.length = location.line ∧ last.length = location.column

/-- What stands at a place stands there in every longer text. -/
theorem Stands.append
    {text name : String}
    {location : Location}
    (stands : Stands text location name)
    (more : String) :
    Stands (text ++ more) location name := by
  obtain ⟨line, found, starts⟩ := stands
  obtain ⟨rest, further⟩ := Text.getElem?_pieces_append found more.toList
  refine ⟨line ++ rest, ?_, ?_⟩
  · rw [String.toList_append]
    exact further
  · -- A name that ends behind the line has no characters, so both cases are one.
    refine starts.trans ?_
    rw [List.drop_append]
    exact List.prefix_append _ _

theorem EndsAt.append
    {text more : String}
    {location : Location}
    (ends : EndsAt text location)
    (plain : OneLine more) :
    EndsAt (text ++ more) { location with column := location.column + more.length } := by
  obtain ⟨earlier, last, parts, line, column⟩ := ends
  refine ⟨earlier, last ++ more.toList, ?_, line, ?_⟩
  · rw [String.toList_append]
    exact Text.pieces_append parts (Text.pieces_of_not_mem plain)
  · rw [List.length_append, String.length_toList, column]

/-- What is put behind a text stands at its end. -/
theorem EndsAt.stands
    {text name : String}
    {location : Location}
    (ends : EndsAt text location)
    (plain : OneLine name) :
    Stands (text ++ name) location name := by
  obtain ⟨earlier, last, parts, line, column⟩ := ends
  refine ⟨last ++ name.toList, ?_, ?_⟩
  · rw [String.toList_append, Text.pieces_append parts (Text.pieces_of_not_mem plain), ← line]
    simp
  · have behind : (last ++ name.toList).drop location.column = name.toList := by
      rw [← column, List.drop_left]
    exact ⟨[], (List.append_nil _).trans behind.symm⟩

/-- Behind a line feed a new line starts. -/
theorem EndsAt.newLine
    {text ending : String}
    {location : Location}
    (ends : EndsAt text location)
    (plain : OneLine ending) :
    EndsAt (text ++ (ending ++ "\n")) ⟨location.line + 1, 0⟩ := by
  obtain ⟨earlier, last, parts, line, -⟩ := ends
  have start : Text.pieces '\n' ending.toList = [] ++ [ending.toList] :=
    Text.pieces_of_not_mem plain
  have stop : Text.pieces '\n' "\n".toList = [[], []] := by decide
  have feed : Text.pieces '\n' (ending ++ "\n").toList = [ending.toList, []] := by
    rw [String.toList_append, Text.pieces_append start stop, List.append_nil]
    rfl
  refine ⟨earlier ++ [last ++ ending.toList], [], ?_, ?_, rfl⟩
  · rw [String.toList_append, Text.pieces_append parts feed, List.append_assoc]
    rfl
  · rw [List.length_append, List.length_singleton, line]

namespace Page

variable {format : Format}

/-- The page ends where it says, and the names that are declared so far stand where it says. -/
structure Tracked (page : Page) (declared : List (SymbolKey × String)) : Prop where
  ends : EndsAt page.text page.location
  noted : ∀ key, key ∈ page.symbols.keys ↔ key ∈ declared.map (·.1)
  /-- The first name with a key is the one that stands at the place. -/
  stands : ∀ key location, (key, location) ∈ page.symbols.entries →
    ∃ name, declared.find? (·.1 = key) = some (key, name) ∧ Stands page.text location name

/-- Copies of a text within one line stand within one line. -/
theorem oneLine_copies
    {text : String}
    (plain : OneLine text)
    (count : Nat) :
    OneLine (String.join (List.replicate count text)) := by
  rw [OneLine, String.toList_join]
  intro newline
  obtain ⟨copy, isCopy, inCopy⟩ := List.mem_flatMap.1 newline
  rw [List.eq_of_mem_replicate isCopy] at inCopy
  exact plain inCopy

/-- The indentation is put behind the text. -/
theorem exists_indented_text
    (page : Page)
    (format : Format) :
    ∃ more, (page.indented format).text = page.text ++ more := by
  rw [indented]
  split
  · exact ⟨_, rfl⟩
  · exact ⟨"", String.append_empty.symm⟩

/-- A word is put behind the text, with the indentation before it. -/
theorem exists_write_text
    (page : Page)
    (format : Format)
    (text : String) :
    ∃ more, (page.write format text).text = page.text ++ more := by
  rw [write]
  split
  · exact ⟨"", String.append_empty.symm⟩
  · obtain ⟨indentation, found⟩ := page.exists_indented_text format
    refine ⟨indentation ++ text, ?_⟩
    show (page.indented format).text ++ text = _
    rw [found, String.append_assoc]

theorem ends_indented
    {page : Page}
    (ends : EndsAt page.text page.location)
    (plain : OneLine format.indentation) :
    EndsAt (page.indented format).text (page.indented format).location := by
  rw [indented]
  split
  · exact ends.append (oneLine_copies plain page.indent)
  · exact ends

theorem ends_write
    (page : Page)
    (ends : EndsAt page.text page.location)
    (plain : OneLine format.indentation)
    {text : String}
    (inLine : OneLine text) :
    EndsAt (page.write format text).text (page.write format text).location := by
  rw [write]
  split
  · exact ends
  · exact (ends_indented ends plain).append inLine

/-- A line that is indented already is not indented again. -/
theorem indented_again_text
    (page : Page)
    (format : Format)
    (symbols : SymbolIndex) :
    ({ page.indented format with symbols := symbols }.indented format).text
      = (page.indented format).text := by
  by_cases start : page.location.column = 0
  · have first : page.indented format
        = page.append (String.join (List.replicate page.indent format.indentation)) := by
      rw [Page.indented, if_pos start]
    rw [first, Page.indented]
    split
    · next still =>
        -- The column is still zero, so the indentation has no characters.
        have none : (String.join (List.replicate page.indent format.indentation)).length = 0 := by
          have sum : page.location.column
              + (String.join (List.replicate page.indent format.indentation)).length = 0 := still
          omega
        have empty : String.join (List.replicate page.indent format.indentation) = "" :=
          String.length_eq_zero_iff.1 none
        show page.text ++ String.join (List.replicate page.indent format.indentation)
          ++ String.join (List.replicate page.indent format.indentation) = page.text ++ _
        rw [empty, String.append_empty, String.append_empty]
    · rfl
  · have first : page.indented format = page := by
      rw [Page.indented, if_neg start]
    rw [first, Page.indented, if_neg start]

/-- A word is put right behind an indented line. -/
theorem write_indented_text
    (page : Page)
    (format : Format)
    (symbols : SymbolIndex)
    (text : String) :
    ({ page.indented format with symbols := symbols }.write format text).text
      = (page.indented format).text ++ text := by
  rw [Page.write]
  split
  · next none => rw [none, String.append_empty]
  · have again := page.indented_again_text format symbols
    show ({ page.indented format with symbols := symbols }.indented format).text ++ text = _
    rw [again]

/-- Text that is put behind the text of a page keeps what is known. -/
theorem Tracked.longer
    {page next : Page}
    {declared : List (SymbolKey × String)}
    (tracked : page.Tracked declared)
    (ends : EndsAt next.text next.location)
    (symbols : next.symbols = page.symbols)
    {more : String}
    (text : next.text = page.text ++ more) :
    next.Tracked declared := by
  refine ⟨ends, ?_, ?_⟩
  · rw [symbols]
    exact tracked.noted
  · intro key location isEntry
    rw [symbols] at isEntry
    obtain ⟨name, first, stands⟩ := tracked.stands key location isEntry
    rw [text]
    exact ⟨name, first, stands.append more⟩

/-- A declared name is noted at its place, unless its key is noted already. -/
theorem Tracked.name
    {page : Page}
    {declared : List (SymbolKey × String)}
    (tracked : page.Tracked declared)
    (plain : OneLine format.indentation)
    (key : SymbolKey)
    {text : String}
    (inLine : OneLine text) :
    (page.add format (.name key text)).Tracked (declared ++ [(key, text)]) := by
  have indented := ends_indented tracked.ends plain
  have written : (page.add format (.name key text)).text = (page.indented format).text ++ text :=
    page.write_indented_text format _ text
  have symbols : (page.add format (.name key text)).symbols
      = page.symbols.note key (page.indented format).location :=
    page.add_symbols format (.name key text)
  obtain ⟨indentation, found⟩ := page.exists_indented_text format
  -- What was declared before still stands, and is still the first with its key.
  have old : ∀ other location, (other, location) ∈ page.symbols.entries →
      ∃ name, (declared ++ [(key, text)]).find? (·.1 = other) = some (other, name)
        ∧ Stands (page.add format (.name key text)).text location name := by
    intro other location isEntry
    obtain ⟨name, first, stands⟩ := tracked.stands other location isEntry
    refine ⟨name, by rw [List.find?_append, first, Option.some_or], ?_⟩
    rw [written, found]
    exact (stands.append indentation).append text
  refine ⟨?_, ?_, ?_⟩
  · exact ends_write
      { page.indented format with
        symbols := (page.indented format).symbols.note key (page.indented format).location }
      indented plain inLine
  · intro other
    rw [symbols, SymbolIndex.mem_keys_note, tracked.noted]
    simp [List.mem_append, eq_comm]
  · intro other location isEntry
    rw [symbols] at isEntry
    by_cases known : key ∈ page.symbols.keys
    · rw [SymbolIndex.note_of_mem known] at isEntry
      exact old other location isEntry
    · rw [SymbolIndex.note_of_not_mem known, List.mem_append, List.mem_singleton] at isEntry
      rcases isEntry with before | new
      · exact old other location before
      · obtain ⟨rfl, rfl⟩ := Prod.mk.inj new
        have first : declared.find? (·.1 = other) = none := by
          refine List.find?_eq_none.2 fun entry isEntry same => ?_
          have isKey := List.mem_map.2 ⟨entry, isEntry, of_decide_eq_true same⟩
          exact known ((tracked.noted other).2 isKey)
        refine ⟨text, by simp [List.find?_append, first], ?_⟩
        rw [written]
        exact indented.stands inLine

/-- A piece keeps what is known. -/
theorem Tracked.add
    {page : Page}
    {declared : List (SymbolKey × String)}
    (tracked : page.Tracked declared)
    (plain : OneLine format.indentation)
    {ending : String}
    (newLine : format.newLine = ending ++ "\n")
    (plainEnding : OneLine ending)
    (piece : Piece)
    (inLine : piece.InLine) :
    (page.add format piece).Tracked (declared ++ piece.declared?.toList) := by
  cases piece with
  | word text =>
      obtain ⟨more, written⟩ := page.exists_write_text format text
      have ends := ends_write page tracked.ends plain inLine
      have symbols := page.write_symbols format text
      rw [Piece.declared?, Option.toList_none, List.append_nil]
      exact tracked.longer ends symbols written
  | name key text => exact tracked.name plain key inLine
  | endLine =>
      have ends := tracked.ends.newLine plainEnding
      rw [← newLine] at ends
      have behind : (page.add format .endLine).text = page.text ++ format.newLine := rfl
      rw [Piece.declared?, Option.toList_none, List.append_nil]
      exact tracked.longer ends rfl behind
  | deeper =>
      have same : (page.add format .deeper).text = page.text ++ "" := String.append_empty.symm
      rw [Piece.declared?, Option.toList_none, List.append_nil]
      exact tracked.longer tracked.ends rfl same
  | shallower =>
      have same : (page.add format .shallower).text = page.text ++ "" := String.append_empty.symm
      rw [Piece.declared?, Option.toList_none, List.append_nil]
      exact tracked.longer tracked.ends rfl same

/-- Pieces keep what is known. -/
theorem Tracked.addAll
    (plain : OneLine format.indentation)
    {ending : String}
    (newLine : format.newLine = ending ++ "\n")
    (plainEnding : OneLine ending)
    {pieces : List Piece}
    (inLine : Piece.AllInLine pieces)
    {page : Page}
    {declared : List (SymbolKey × String)}
    (tracked : page.Tracked declared) :
    (page.addAll format pieces).Tracked (declared ++ Piece.declared pieces) := by
  induction pieces generalizing page declared with
  | nil => simpa [Page.addAll] using tracked
  | cons piece rest ih =>
      have first := inLine piece List.mem_cons_self
      have later : Piece.AllInLine rest := fun other isOther =>
        inLine other (List.mem_cons_of_mem piece isOther)
      have step := ih later (tracked.add plain newLine plainEnding piece first)
      have declares : piece.declared?.toList ++ Piece.declared rest
          = Piece.declared (piece :: rest) := by
        cases own : piece.declared? <;> simp [Piece.declared, own]
      rw [List.append_assoc, declares] at step
      exact step

/-- An empty page declares nothing. -/
theorem tracked_empty : Page.empty.Tracked [] where
  ends := ⟨[], [], rfl, rfl, rfl⟩
  noted := fun key => by simp [Page.empty, SymbolIndex.empty, SymbolIndex.keys]
  stands := fun key location isEntry => absurd isEntry List.not_mem_nil

end Page

/-- A rendered source file notes exactly the keys of its declarations, each once; and at the place
of a key stands the name of the first declaration with the key. -/
theorem SourceUnit.stands_render
    (unit : SourceUnit)
    (format : Format)
    (indentation : OneLine format.indentation)
    (newLine : format.newLine = "\n" ∨ format.newLine = "\r\n")
    (texts : AllOneLine unit.texts) :
    (unit.render format).symbols.keys.Nodup
      ∧ (∀ key, key ∈ (unit.render format).symbols.keys ↔ key ∈ unit.declarations.map (·.1))
      ∧ ∀ key location, (key, location) ∈ (unit.render format).symbols.entries →
          ∃ name, unit.declarations.find? (·.1 = key) = some (key, name)
            ∧ Stands (unit.render format).text location name := by
  obtain ⟨ending, plain, ends⟩ : ∃ ending, OneLine ending ∧ format.newLine = ending ++ "\n" := by
    rcases newLine with feed | both
    · exact ⟨"", by decide, feed⟩
    · exact ⟨"\r", by decide, both⟩
  have inLine := unit.allInLine_pieces texts
  have tracked := Page.tracked_empty.addAll indentation ends plain inLine
  rw [List.nil_append, unit.declared_pieces] at tracked
  exact ⟨unit.nodup_keys_render format, unit.mem_keys_render_iff format, tracked.stands⟩

/-- A class with two methods of one name. -/
def overloadSample : SourceUnit :=
  let type := SymbolKey.ofTypePath "Shop" ["Order"]
  let pay (parameters : List ParameterNode) : Node :=
    .method
      { symbol := type.memberKey .method "Pay"
        modifiers := ["public"]
        returns := some (.primitive "void")
        name := "Pay"
        typeParameters := []
        parameters := parameters
        body := some [.throwNull]
        marks := [] }
  ⟨[],
    [.space "Shop"
      [.type ⟨type, .ofRow .typeDefinition 2, .classType, ["public"], "Order", [], [], [], none⟩
        [pay [], pay [⟨.primitive "int", "amount"⟩]]]]⟩

/-- Of two overloads the first is noted. -/
theorem stands_render_overloadSample :
    ((SymbolKey.ofTypePath "Shop" ["Order"]).memberKey .method "Pay", ⟨4, 16⟩)
        ∈ (overloadSample.render ⟨"  ", "\r\n"⟩).symbols.entries
      ∧ Stands (overloadSample.render ⟨"  ", "\r\n"⟩).text ⟨4, 16⟩ "Pay" := by
  have noted : ((SymbolKey.ofTypePath "Shop" ["Order"]).memberKey .method "Pay", ⟨4, 16⟩)
      ∈ (overloadSample.render ⟨"  ", "\r\n"⟩).symbols.entries := by
    decide +kernel
  obtain ⟨-, -, stands⟩ :=
    overloadSample.stands_render ⟨"  ", "\r\n"⟩ (by decide) (Or.inr rfl) (by decide)
  obtain ⟨name, first, here⟩ := stands _ _ noted
  have pay : overloadSample.declarations.find?
        (·.1 = (SymbolKey.ofTypePath "Shop" ["Order"]).memberKey .method "Pay")
      = some ((SymbolKey.ofTypePath "Shop" ["Order"]).memberKey .method "Pay", "Pay") := by
    decide
  obtain rfl : name = "Pay" := by
    rw [pay] at first
    exact (Prod.mk.inj (Option.some.inj first)).2.symm
  exact ⟨noted, here⟩

end Syntax
end AssemblyAtlas
