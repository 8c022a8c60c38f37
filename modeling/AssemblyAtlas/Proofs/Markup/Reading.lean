import AssemblyAtlas.Markup.Element
import AssemblyAtlas.Markup.Writer
import Mathlib.Data.List.TakeDrop

/-!
# Reading what was written

A text that is written with entities is read back, and has no character by which a tag or a quoted
value could end. So what is put together of tags and such texts is read part by part.

* `unescape?_escape` and `not_mem_escape` are about entities;
* `Reads` says which parts a marked-up text has, in terms of the reader for one part, and with what
  text before each; `ReadsAs` is about texts that are read as the same parts whatever follows;
* `readsAs_start`, `readsAs_finish` and `readsAs_single` are about tags, and `attribute?_single`
  about the attribute of an element without content;
* `IsNested` says that each end belongs to the element that was started last.
-/

namespace AssemblyAtlas
namespace Markup

open Text

/-! ## Entities -/

/-- The entity of a character is read as the character. -/
theorem decode_escapeChar (c : Char) (rest : List Char) :
    decode none (escapeChar c ++ rest) = (decode none rest).map (c :: ·) := by
  rw [escapeChar]
  by_cases ampersand : c = '&'
  · rw [if_pos ampersand, ampersand]
    rfl
  · rw [if_neg ampersand]
    by_cases less : c = '<'
    · rw [if_pos less, less]
      rfl
    · rw [if_neg less]
      by_cases greater : c = '>'
      · rw [if_pos greater, greater]
        rfl
      · rw [if_neg greater]
        by_cases apostrophe : c = '\''
        · rw [if_pos apostrophe, apostrophe]
          rfl
        · rw [if_neg apostrophe]
          by_cases quote : c = '"'
          · rw [if_pos quote, quote]
            rfl
          · rw [if_neg quote, List.singleton_append, decode, if_neg ampersand]

/-- What is written is read back. -/
theorem unescape?_escape (text : List Char) :
    unescape? (escape text) = some text := by
  rw [unescape?]
  induction text with
  | nil => rfl
  | cons c rest ih =>
      rw [escape, List.flatMap_cons, decode_escapeChar]
      exact congrArg (Option.map (c :: ·)) ih

/-- No bracket and no quote is written but by its entity. -/
theorem not_mem_escape
    {c : Char}
    (marks : c ∈ ['<', '>', '\'', '"'])
    (text : List Char) :
    c ∉ escape text := by
  intro member
  obtain ⟨written, -, inside⟩ := List.mem_flatMap.1 member
  have entities : ∀ entity ∈ ["&amp;", "&lt;", "&gt;", "&apos;", "&quot;"], c ∉ entity.toList := by
    intro entity isEntity
    have each : (["&amp;", "&lt;", "&gt;", "&apos;", "&quot;"].all fun entity =>
        ['<', '>', '\'', '"'].all (· ∉ entity.toList)) = true := by
      decide
    exact of_decide_eq_true (List.all_eq_true.1 (List.all_eq_true.1 each entity isEntity) c marks)
  rw [escapeChar] at inside
  split_ifs at inside with ampersand less greater apostrophe quote
  · exact entities "&amp;" (by decide) inside
  · exact entities "&lt;" (by decide) inside
  · exact entities "&gt;" (by decide) inside
  · exact entities "&apos;" (by decide) inside
  · exact entities "&quot;" (by decide) inside
  · rw [List.mem_singleton.1 inside] at marks
    simp [less, greater, apostrophe, quote] at marks

/-- A text without the five characters is written as it is. -/
theorem escape_eq_self
    {text : List Char}
    (plain : ∀ c ∈ text, c ≠ '&' ∧ c ≠ '<' ∧ c ≠ '>' ∧ c ≠ '\'' ∧ c ≠ '"') :
    escape text = text := by
  induction text with
  | nil => rfl
  | cons c rest ih =>
      rw [List.forall_mem_cons] at plain
      obtain ⟨⟨ampersand, less, greater, apostrophe, quote⟩, later⟩ := plain
      have own : escapeChar c = [c] := by
        simp only [escapeChar, ampersand, less, greater, apostrophe, quote, if_false]
      rw [escape, List.flatMap_cons, own]
      exact congrArg (c :: ·) (ih later)

/-! ## Parts of a text -/

/-- A text is cut where nothing before is the separator. -/
theorem cutFirst?_append
    {separator : Char}
    {left : List Char}
    (absent : separator ∉ left)
    (right : List Char) :
    cutFirst? separator (left ++ separator :: right) = some (left, right) := by
  induction left with
  | nil => simp [cutFirst?]
  | cons c rest ih =>
      rw [List.mem_cons, not_or] at absent
      rw [List.cons_append, cutFirst?, if_neg (Ne.symm absent.1), ih absent.2]
      rfl

/-- The parts of a marked-up text, each with the text before it. The text behind the last part is
not told. -/
inductive Reads : List Char → List (List Char × Part) → Prop
  | done {text : List Char} :
      cutFirst? '<' text = none →
      Reads text []
  | more {text before behind rest : List Char} {part : Part} {parts : List (List Char × Part)} :
      cutFirst? '<' text = some (before, behind) →
      part? behind = some (part, rest) →
      Reads rest parts →
      Reads text ((before, part) :: parts)

/-- A text has its parts in one way only. -/
theorem Reads.unique
    {text : List Char}
    {parts others : List (List Char × Part)}
    (reads : Reads text parts)
    (also : Reads text others) :
    others = parts := by
  induction reads generalizing others with
  | done last =>
      cases also with
      | done _ => rfl
      | more cut _ _ => exact nomatch last.symm.trans cut
  | more cut isPart _ ih =>
      cases also with
      | done last => exact nomatch last.symm.trans cut
      | more alsoCut alsoPart later =>
          obtain ⟨rfl, rfl⟩ := Prod.mk.inj (Option.some.inj (alsoCut.symm.trans cut))
          obtain ⟨rfl, rfl⟩ := Prod.mk.inj (Option.some.inj (alsoPart.symm.trans isPart))
          rw [ih later]

/-- The text is read as the parts, and what follows is read as if it stood alone. -/
def ReadsAs (text : List Char) (parts : List (List Char × Part)) : Prop :=
  ∀ (rest : List Char) (later : List (List Char × Part)),
    Reads rest later → Reads (text ++ rest) (parts ++ later)

namespace ReadsAs

theorem nil : ReadsAs [] [] :=
  fun _ _ reads => reads

theorem append
    {first second : List Char}
    {left right : List (List Char × Part)}
    (isFirst : ReadsAs first left)
    (isSecond : ReadsAs second right) :
    ReadsAs (first ++ second) (left ++ right) := by
  intro rest later reads
  rw [List.append_assoc, List.append_assoc]
  exact isFirst _ _ (isSecond rest later reads)

theorem flatMap
    {α : Type}
    {elements : List α}
    {text : α → List Char}
    {parts : α → List (List Char × Part)}
    (each : ∀ element ∈ elements, ReadsAs (text element) (parts element)) :
    ReadsAs (elements.flatMap text) (elements.flatMap parts) := by
  induction elements with
  | nil => exact nil
  | cons element rest ih =>
      rw [List.forall_mem_cons] at each
      rw [List.flatMap_cons, List.flatMap_cons]
      exact each.1.append (ih each.2)

/-- A part is read as such behind a text without an opening bracket. -/
theorem single
    {before content : List Char}
    {part : Part}
    (plain : '<' ∉ before)
    (isPart : ∀ rest, part? (content ++ rest) = some (part, rest)) :
    ReadsAs (before ++ '<' :: content) [(before, part)] := by
  intro rest later reads
  rw [List.append_assoc]
  exact .more (cutFirst?_append plain _) (isPart rest) reads

/-- A text that is read as some parts is read, at the end. -/
theorem reads
    {text : List Char}
    {parts : List (List Char × Part)}
    (readsAs : ReadsAs text parts) :
    Reads text parts := by
  have all := readsAs [] [] (.done rfl)
  rwa [List.append_nil, List.append_nil] at all

end ReadsAs

/-! ## Tags -/

/-- The text can be the name of an element or an attribute. -/
def IsPlainName (name : List Char) : Prop :=
  name ≠ [] ∧ name.all Char.isAlpha = true

instance (name : List Char) : Decidable (IsPlainName name) :=
  inferInstanceAs (Decidable (_ ∧ _))

theorem IsPlainName.isAlpha
    {name : List Char}
    (plain : IsPlainName name)
    {c : Char}
    (isChar : c ∈ name) :
    c.isAlpha = true :=
  List.all_eq_true.1 plain.2 c isChar

/-- A letter ends no tag and no word, and starts no quotes. -/
theorem of_isAlpha
    {c : Char}
    (alpha : c.isAlpha = true) :
    c ∉ ['<', '>', '"', '\'', '/', '!', '?', '='] ∧ isSpace c = false := by
  have others : (['<', '>', '"', '\'', '/', '!', '?', '='].all (!·.isAlpha)) = true := by decide
  have blanks : ([' ', '\t', '\n', '\r'].all (!·.isAlpha)) = true := by decide
  refine ⟨fun other => ?_, ?_⟩
  · have plain := List.all_eq_true.1 others c other
    rw [alpha] at plain
    cases plain
  · rw [Bool.eq_false_iff]
    intro blank
    have isBlank : c ∈ [' ', '\t', '\n', '\r'] := by
      simpa [isSpace, or_assoc] using blank
    have plain := List.all_eq_true.1 blanks c isBlank
    rw [alpha] at plain
    cases plain

/-- The end of a tag is sought behind characters that do not end it. -/
theorem untilClose?_append
    {front : List Char}
    (plain : ∀ c ∈ front, c ≠ '>' ∧ c ≠ '"' ∧ c ≠ '\'')
    (rest : List Char) :
    untilClose? none (front ++ rest)
      = (untilClose? none rest).map fun sides => (front ++ sides.1, sides.2) := by
  induction front with
  | nil => simp
  | cons c front ih =>
      rw [List.forall_mem_cons] at plain
      obtain ⟨⟨close, double, single⟩, later⟩ := plain
      have quotes : ¬(c = '"' ∨ c = '\'') := not_or.2 ⟨double, single⟩
      rw [List.cons_append, untilClose?, if_neg close]
      simp only [if_neg quotes, ih later, Option.map_map]
      rfl

/-- It is sought behind a quoted value. -/
theorem untilClose?_quoted
    {quote : Char}
    {value : List Char}
    (plain : quote ∉ value)
    (rest : List Char) :
    untilClose? (some quote) (value ++ quote :: rest)
      = (untilClose? none rest).map fun sides => (value ++ quote :: sides.1, sides.2) := by
  induction value with
  | nil => simp [untilClose?]
  | cons c value ih =>
      rw [List.mem_cons, not_or] at plain
      rw [List.cons_append, untilClose?, if_neg (Ne.symm plain.1), ih plain.2, Option.map_map]
      rfl

/-- A text can stand behind the name in a tag: it is set off from the name, leaves no quoted value
open, and does not make the tag one of an element without content. -/
structure IsBehindName (text : List Char) : Prop where
  separated : ∀ c ∈ text.head?, isSpace c = true
  closed : ∀ rest, untilClose? none (text ++ rest)
    = (untilClose? none rest).map fun sides => (text ++ sides.1, sides.2)
  open_ended : text.getLast? ≠ some '/'

theorem IsBehindName.nil : IsBehindName [] where
  separated := fun _ member => nomatch member
  closed := fun rest => by simp
  open_ended := fun last => nomatch last

section Tags

variable {name : List Char} (plain : IsPlainName name)
include plain

theorem closes_isPlainName : ∀ c ∈ name, c ≠ '>' ∧ c ≠ '"' ∧ c ≠ '\'' := by
  intro c isChar
  have other := (of_isAlpha (plain.isAlpha isChar)).1
  simp only [List.mem_cons, List.not_mem_nil, not_or] at other
  exact ⟨other.2.1, other.2.2.1, other.2.2.2.1⟩

/-- The name is what stands before the white space. -/
theorem span_name
    {behind : List Char}
    (separated : ∀ c ∈ behind.head?, isSpace c = true) :
    (name ++ behind).span (!isSpace ·) = (name, behind) := by
  have inName : ∀ c ∈ name, (!isSpace c) = true := fun c isChar => by
    rw [(of_isAlpha (plain.isAlpha isChar)).2]
    rfl
  rw [List.span_eq_takeWhile_dropWhile, List.takeWhile_append_of_pos inName,
    List.dropWhile_append_of_pos inName]
  cases behind with
  | nil => simp
  | cons c rest => simp [separated c rfl]

theorem IsBehindName.attribute
    {value : List Char}
    (quoted : '"' ∉ value) :
    IsBehindName (attributeText name value) where
  separated := fun c isFirst => by
    rw [← Option.some.inj isFirst]
    rfl
  closed := fun rest => by
    have front : ∀ c ∈ ' ' :: (name ++ ['=']), c ≠ '>' ∧ c ≠ '"' ∧ c ≠ '\'' := by
      intro c isChar
      rw [List.mem_cons, List.mem_append, List.mem_singleton] at isChar
      obtain rfl | inName | rfl := isChar
      · decide
      · exact closes_isPlainName plain c inName
      · decide
    have cut : attributeText name value ++ rest
        = (' ' :: (name ++ ['='])) ++ '"' :: (value ++ '"' :: rest) := by
      simp [attributeText]
    rw [cut, untilClose?_append front, untilClose?]
    simp only [show ('"' : Char) ≠ '>' by decide, if_false, true_or, if_true,
      untilClose?_quoted quoted, Option.map_map]
    congr 1
    funext sides
    simp [attributeText]
  open_ended := by
    have last : attributeText name value = (' ' :: (name ++ '=' :: '"' :: value)) ++ ['"'] := by
      simp [attributeText]
    rw [last, List.getLast?_concat]
    decide

/-- A tag that starts with a name is read to its closing bracket. -/
theorem part?_tag
    {behind : List Char}
    (closed : ∀ rest, untilClose? none (behind ++ rest)
      = (untilClose? none rest).map fun sides => (behind ++ sides.1, sides.2))
    (rest : List Char) :
    part? (name ++ (behind ++ '>' :: rest)) = some (.ofTag (name ++ behind), rest) := by
  have whole : untilClose? none (name ++ (behind ++ '>' :: rest))
      = some (name ++ behind, rest) := by
    rw [untilClose?_append (closes_isPlainName plain), closed]
    simp [untilClose?]
  cases name with
  | nil => exact absurd rfl plain.1
  | cons first name =>
      have other := (of_isAlpha (plain.isAlpha List.mem_cons_self)).1
      simp only [List.mem_cons, List.not_mem_nil, not_or] at other
      obtain ⟨-, -, -, -, slash, mark, question, -⟩ := other
      rw [part?]
      · rw [whole]
        rfl
      all_goals
        simp_all

/-- A tag with a name is the start of an element. -/
theorem part?_start
    {behind : List Char}
    (isBehind : IsBehindName behind)
    (rest : List Char) :
    part? (name ++ (behind ++ '>' :: rest)) = some (.start name behind, rest) := by
  have last : (name ++ behind).getLast? ≠ some '/' := by
    rw [List.getLast?_append]
    intro isLast
    obtain inBehind | ⟨-, inName⟩ := Option.or_eq_some_iff.1 isLast
    · exact isBehind.open_ended inBehind
    · exact absurd (of_isAlpha (plain.isAlpha (List.mem_of_getLast? inName))).1 (by decide)
  rw [part?_tag plain isBehind.closed]
  simp only [Part.ofTag, if_neg last, span_name plain isBehind.separated]

/-- With a slash before the closing bracket it is an element without content. -/
theorem part?_single
    {behind : List Char}
    (isBehind : IsBehindName behind)
    (rest : List Char) :
    part? (name ++ (behind ++ '/' :: '>' :: rest)) = some (.single name behind, rest) := by
  have closed (rest : List Char) : untilClose? none (behind ++ ['/'] ++ rest)
      = (untilClose? none rest).map fun sides => (behind ++ ['/'] ++ sides.1, sides.2) := by
    have slash : ∀ c ∈ ['/'], c ≠ '>' ∧ c ≠ '"' ∧ c ≠ '\'' :=
      List.forall_mem_singleton.2 (by decide)
    rw [List.append_assoc, isBehind.closed, untilClose?_append slash, Option.map_map]
    simp only [List.append_assoc]
    rfl
  have tag := part?_tag plain closed rest
  rw [← List.append_assoc name behind, Part.ofTag, List.getLast?_concat, if_pos rfl] at tag
  simp only [List.dropLast_concat, span_name plain isBehind.separated] at tag
  rw [← tag, List.append_assoc]
  rfl

/-- With a slash before the name it is the end of an element. -/
theorem part?_finish (rest : List Char) :
    part? ('/' :: (name ++ '>' :: rest)) = some (.finish name, rest) := by
  have unblank : ∀ c ∈ name.reverse, ¬isSpace c = true := fun c isChar => by
    rw [(of_isAlpha (plain.isAlpha (List.mem_reverse.1 isChar))).2]
    decide
  have trimmed : finishName name = name := by
    have kept : name.reverse.dropWhile isSpace = name.reverse := by
      cases reversed : name.reverse with
      | nil => rfl
      | cons last others => exact List.dropWhile_cons_of_neg (unblank last (by simp [reversed]))
    rw [finishName, kept, List.reverse_reverse]
    exact ite_self name
  rw [part?, untilClose?_append (closes_isPlainName plain), untilClose?, if_pos rfl]
  simp [trimmed]

section Positions

variable {before behind : List Char} (unopened : '<' ∉ before) (isBehind : IsBehindName behind)

include isBehind unopened in
theorem readsAs_start :
    ReadsAs (before ++ '<' :: (name ++ (behind ++ ['>']))) [(before, .start name behind)] :=
  ReadsAs.single unopened fun rest => by
    simpa only [List.append_assoc, List.singleton_append] using part?_start plain isBehind rest

include isBehind unopened in
theorem readsAs_single :
    ReadsAs (before ++ '<' :: (name ++ (behind ++ ['/', '>']))) [(before, .single name behind)] :=
  ReadsAs.single unopened fun rest => by
    simpa only [List.append_assoc, List.cons_append, List.nil_append] using
      part?_single plain isBehind rest

include unopened in
theorem readsAs_finish :
    ReadsAs (before ++ '<' :: '/' :: (name ++ ['>'])) [(before, .finish name)] :=
  ReadsAs.single unopened fun rest => by
    simpa only [List.append_assoc, List.cons_append, List.nil_append] using
      part?_finish plain rest

end Positions

theorem attributes_attributeText
    {value : List Char}
    (quoted : '"' ∉ value)
    (count : Nat) :
    attributes (count + 1) [] (attributeText name value) = [(name, some value)] := by
  have read : value? ('"' :: (value ++ ['"'])) = (some value, []) := by
    rw [value?, List.dropWhile_cons_of_neg (by decide)]
    simp only [true_or, if_true, cutFirst?_append quoted]
  have rest : attributes count [name] [] = [] := by
    cases count <;> rfl
  cases name with
  | nil => exact absurd rfl plain.1
  | cons first name =>
      have inKey : ∀ c ∈ name, (c != '=' && !isSpace c) = true := fun c isChar => by
        have other := of_isAlpha (plain.isAlpha (List.mem_cons_of_mem _ isChar))
        simp only [List.mem_cons, List.not_mem_nil, not_or] at other
        simp [other]
      have start := (of_isAlpha (plain.isAlpha List.mem_cons_self)).2
      have key : (attributeText (first :: name) value).dropWhile isSpace
          = first :: (name ++ '=' :: '"' :: (value ++ ['"'])) := by
        rw [attributeText, List.dropWhile_cons_of_pos (by decide), List.cons_append,
          List.dropWhile_cons_of_neg (by simp [start])]
      generalize attributeText (first :: name) value = text at key
      conv =>
        lhs
        whnf
      rw [key]
      dsimp only
      rw [List.takeWhile_append_of_pos inKey, List.dropWhile_append_of_pos inKey,
        List.takeWhile_cons_of_neg (by decide), List.dropWhile_cons_of_neg (by decide),
        List.dropWhile_cons_of_neg (by decide), List.append_nil]
      simp only [List.not_mem_nil, if_false, read, rest]

/-- The only attribute in a tag has the value between its quotes. -/
theorem attribute?_single
    {value : List Char}
    (quoted : '"' ∉ value) :
    attribute? name (attributeText name value) = unescape? value := by
  rw [attribute?, attributeText, List.length_cons, ← attributeText,
    attributes_attributeText plain quoted]
  simp

end Tags

/-! ## Elements -/

/-- What a tag with the name says behind the name. -/
def Part.tagged? (name : List Char) : Part → Option (List Char)
  | .start found rest | .single found rest => if found = name then some rest else none
  | .finish _ | .other => none

/-- What the tags with the name say behind the name. -/
def tags (name : List Char) (parts : List Part) : List (List Char) :=
  parts.filterMap (Part.tagged? name)

/-- Only one element has the name, and the text stands between its start and its end. -/
def HasOnly (parts : List (List Char × Part)) (name inside : List Char) : Prop :=
  ∃ front before behind,
    parts = front ++ [(before, .start name []), (inside, .finish name)] ++ behind
      ∧ tags name (front.map (·.2)) = [] ∧ tags name (behind.map (·.2)) = []

/-- The elements that are open behind a part, the last one first. There are none if the part is the
end of an element that was not started last. -/
def Part.opened? (opened : List (List Char)) : Part → Option (List (List Char))
  | .start name _ => some (name :: opened)
  | .finish name => if opened.head? = some name then some opened.tail else none
  | .single _ _ | .other => some opened

/-- Each end belongs to the element that was started last, and all elements that are started
end. -/
def IsNested (parts : List Part) : Prop :=
  ∀ opened, parts.foldlM Part.opened? opened = some opened

namespace IsNested

theorem nil : IsNested [] :=
  fun _ => rfl

theorem append
    {left right : List Part}
    (isLeft : IsNested left)
    (isRight : IsNested right) :
    IsNested (left ++ right) := by
  intro opened
  rw [List.foldlM_append, isLeft opened]
  exact isRight opened

theorem flatMap
    {α : Type}
    {parts : α → List Part}
    (each : ∀ element, IsNested (parts element))
    (elements : List α) :
    IsNested (elements.flatMap parts) := by
  induction elements with
  | nil => exact nil
  | cons element rest ih => exact append (each element) ih

theorem single (name behind : List Char) :
    IsNested [.single name behind] :=
  fun _ => rfl

theorem element
    {inside : List Part}
    (nested : IsNested inside)
    (name behind : List Char) :
    IsNested (.start name behind :: (inside ++ [.finish name])) := by
  intro opened
  rw [List.foldlM_cons, Part.opened?, Option.bind_eq_bind, Option.bind_some,
    List.foldlM_append, nested]
  simp [Part.opened?]

end IsNested

end Markup
end AssemblyAtlas
