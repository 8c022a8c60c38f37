import AssemblyAtlas.Proofs.Markup.Reading
import AssemblyAtlas.Proofs.Success
import AssemblyAtlas.Text.Utf8

/-!
# Markup that is written event by event

What a writer has written is the markup of the events, with blanks before some of them. So its parts
are those that the events stand for. What stands before a part are the texts behind the part before
it, and perhaps blanks, but none next to a text.

* `Laid` says where blanks may be, and `Writer.Documented.run` what is written for events in a row;
* `partsOf` has the parts of what is written, and `readsAs_partsOf` says that it is read so;
* `hasOnly_partsOf` is about an element with a text.
-/

namespace AssemblyAtlas
namespace Markup

open Success
open Text

/-! ## What is written -/

/-- A blank as a writer may put it before an event. -/
structure IsBlank (indent : Char) (blank : List Char) (event : Event) (behindText : Bool) :
    Prop where
  chars : ∀ c ∈ blank, c = '\n' ∨ c = indent
  text : event.isText = true → blank = []
  behind : behindText = true → blank = []

theorem IsBlank.unopened
    {indent : Char}
    {blank waiting : List Char}
    {event : Event}
    {behindText : Bool}
    (isBlank : IsBlank indent blank event behindText)
    (unopened : indent ≠ '<')
    (plain : '<' ∉ waiting) :
    '<' ∉ waiting ++ blank := by
  rw [List.mem_append, not_or]
  refine ⟨plain, fun member => ?_⟩
  rcases isBlank.chars _ member with isBreak | isIndent
  · exact absurd isBreak (by decide)
  · exact unopened isIndent.symm

/-- The events are written with blanks before them. The first one may come behind a text. -/
inductive Laid (indent : Char) : Bool → List (List Char × Event) → Prop
  | nil (behindText : Bool) : Laid indent behindText []
  | cons {behindText : Bool} {blank : List Char} {event : Event}
      {pieces : List (List Char × Event)} :
      IsBlank indent blank event behindText →
      Laid indent event.isText pieces →
      Laid indent behindText ((blank, event) :: pieces)

/-- The text of events with blanks before them. -/
def pieceText (pieces : List (List Char × Event)) : List Char :=
  pieces.flatMap fun piece => piece.1 ++ piece.2.markup

theorem Writer.Documented.step
    {writer : Writer}
    {indent : Char}
    (documented : writer.Documented indent)
    {state : writer.State}
    {behindText : Bool}
    (last : behindText = true → ∃ before content, writer.write before (.text content) = .ok state)
    (event : Event) :
    ∃ after blank,
      writer.write state event = .ok after
        ∧ writer.bytes after
          = writer.bytes state ++ (String.ofList (blank ++ event.markup)).toUTF8
        ∧ IsBlank indent blank event behindText := by
  obtain ⟨after, blank, written, bytes, chars, text⟩ := documented.writes state event
  cases behindText with
  | false => exact ⟨after, blank, written, bytes, chars, text, nofun⟩
  | true =>
      obtain ⟨before, content, isLast⟩ := last rfl
      have bare := documented.behind before content state event after isLast written
      exact ⟨after, [], written, bare, nofun, fun _ => rfl, fun _ => rfl⟩

/-- All events can be written, one behind the other. -/
theorem Writer.Documented.run
    {writer : Writer}
    {indent : Char}
    (documented : writer.Documented indent)
    {state : writer.State}
    (behindText : Bool)
    (last : behindText = true → ∃ before content, writer.write before (.text content) = .ok state)
    (events : List Event) :
    ∃ after pieces,
      events.foldlM writer.write state = .ok after
        ∧ pieces.map (·.2) = events
        ∧ Laid indent behindText pieces
        ∧ writer.bytes after
          = writer.bytes state ++ (String.ofList (pieceText pieces)).toUTF8 := by
  induction events generalizing state behindText with
  | nil => exact ⟨state, [], rfl, rfl, .nil behindText, ByteArray.append_empty.symm⟩
  | cons event rest ih =>
      obtain ⟨next, blank, written, bytes, isBlank⟩ := documented.step last event
      have isLast : event.isText = true →
          ∃ before content, writer.write before (.text content) = .ok next := by
        intro isText
        cases event with
        | text content => exact ⟨state, content, written⟩
        | _ => cases isText
      obtain ⟨after, pieces, later, same, laid, more⟩ := ih _ isLast
      refine ⟨after, (blank, event) :: pieces, ?_, congrArg (event :: ·) same,
        .cons isBlank laid, ?_⟩
      · rw [List.foldlM_cons, written]
        exact later
      · rw [more, bytes, ByteArray.append_assoc, String.toUTF8_eq_toByteArray,
          String.toUTF8_eq_toByteArray, ← String.toByteArray_append, ← String.ofList_append]
        rfl

/-! ## What is read -/

/-- The part that an event stands for. A text is none. -/
def Event.part? : Event → Option Part
  | heading _ _ => some .other
  | start name attributes => some (.start name.toList (attributeTexts attributes))
  | single name attributes => some (.single name.toList (attributeTexts attributes))
  | text _ => none
  | finish name => some (.finish name.toList)

/-- The parts of what is written for events, behind some characters that belong to no part yet. -/
def partsOf : List Char → List (List Char × Event) → List (List Char × Part)
  | _, [] => []
  | waiting, (blank, event) :: rest =>
      match event.part? with
      | some part => (waiting ++ blank, part) :: partsOf [] rest
      | none => partsOf (waiting ++ (blank ++ event.markup)) rest

/-- The parts do not depend on the blanks. -/
theorem map_partsOf
    (waiting : List Char)
    (pieces : List (List Char × Event)) :
    (partsOf waiting pieces).map (·.2) = (pieces.map (·.2)).filterMap Event.part? := by
  induction pieces generalizing waiting with
  | nil => rfl
  | cons piece rest ih =>
      obtain ⟨blank, event⟩ := piece
      rw [partsOf, List.map_cons, List.filterMap_cons]
      cases event.part? with
      | none => exact ih _
      | some part => exact congrArg (part :: ·) (ih [])

/-- Behind some events, the others have their parts behind what waits there. -/
theorem exists_partsOf_append
    (waiting : List Char)
    (left : List (List Char × Event)) :
    ∃ behind, ∀ right,
      partsOf waiting (left ++ right) = partsOf waiting left ++ partsOf behind right := by
  induction left generalizing waiting with
  | nil => exact ⟨waiting, fun _ => rfl⟩
  | cons piece rest ih =>
      obtain ⟨blank, event⟩ := piece
      simp only [List.cons_append, partsOf]
      cases event.part? with
      | none => exact ih _
      | some part =>
          obtain ⟨behind, same⟩ := ih []
          exact ⟨behind, fun right => congrArg (_ :: ·) (same right)⟩

/-- What is written for an event is read as its part. A text has no opening bracket. -/
def Event.Legible (event : Event) : Prop :=
  match event.part? with
  | some part =>
      ∀ before, '<' ∉ before → ReadsAs (before ++ event.markup) [(before, part)]
  | none => '<' ∉ event.markup

theorem attributeTexts_singleton (key value : String) :
    attributeTexts [(key, value)] = attributeText key.toList value.toList :=
  List.append_nil _

section Legible

variable {name : String} (plain : IsPlainName name.toList)
include plain

theorem legible_start
    {attributes : List (String × String)}
    (isBehind : IsBehindName (attributeTexts attributes)) :
    (Event.start name attributes).Legible :=
  fun _ unopened => readsAs_start plain unopened isBehind

theorem legible_single
    {attributes : List (String × String)}
    (isBehind : IsBehindName (attributeTexts attributes)) :
    (Event.single name attributes).Legible :=
  fun _ unopened => readsAs_single plain unopened isBehind

theorem legible_finish :
    (Event.finish name).Legible :=
  fun _ unopened => readsAs_finish plain unopened

/-- One attribute can stand behind the name of an element. -/
theorem isBehindName_attribute
    {value : String}
    (quoted : '"' ∉ value.toList) :
    IsBehindName (attributeTexts [(name, value)]) := by
  rw [attributeTexts_singleton]
  exact .attribute plain quoted

end Legible

theorem Event.exists_part
    {event : Event}
    (isTag : event.isText = false) :
    ∃ part, event.part? = some part := by
  cases event with
  | text content => cases isTag
  | _ => exact ⟨_, rfl⟩

section Pieces

variable {indent : Char} {behindText : Bool} {pieces : List (List Char × Event)}

/-- Behind some events, the others are laid out too. -/
theorem Laid.exists_of_append
    {left right : List (List Char × Event)}
    (laid : Laid indent behindText (left ++ right)) :
    ∃ behind, Laid indent behind right := by
  induction left generalizing behindText with
  | nil => exact ⟨behindText, laid⟩
  | cons piece rest ih =>
      cases laid with
      | cons _ later => exact ih later

/-- What is written is read as its parts, if it ends in a tag. -/
theorem readsAs_partsOf
    (unopened : indent ≠ '<')
    {blank : List Char}
    {last : Event}
    (isTag : last.isText = false)
    (laid : Laid indent behindText (pieces ++ [(blank, last)]))
    (legible : ∀ piece ∈ pieces ++ [(blank, last)], piece.2.Legible)
    {waiting : List Char}
    (plain : '<' ∉ waiting) :
    ReadsAs (waiting ++ pieceText (pieces ++ [(blank, last)]))
      (partsOf waiting (pieces ++ [(blank, last)])) := by
  induction pieces generalizing waiting behindText with
  | nil =>
      obtain ⟨part, isPart⟩ := Event.exists_part isTag
      cases laid with
      | cons isBlank _ =>
          have own := legible _ List.mem_cons_self
          simp only [Event.Legible, isPart] at own
          simp only [List.nil_append, partsOf, isPart, pieceText, List.flatMap_cons,
            List.flatMap_nil, List.append_nil]
          rw [← List.append_assoc]
          exact own _ (isBlank.unopened unopened plain)
  | cons piece rest ih =>
      obtain ⟨front, event⟩ := piece
      rw [List.cons_append] at laid legible ⊢
      rw [List.forall_mem_cons] at legible
      obtain ⟨own, others⟩ := legible
      cases laid with
      | cons isBlank later =>
          have text : waiting ++ pieceText ((front, event) :: (rest ++ [(blank, last)]))
              = waiting ++ front ++ event.markup ++ pieceText (rest ++ [(blank, last)]) := by
            simp [pieceText]
          rw [text, partsOf]
          cases isPart : event.part? with
          | none =>
              simp only [Event.Legible, isPart] at own
              have plainText : '<' ∉ waiting ++ (front ++ event.markup) := by
                rw [← List.append_assoc, List.mem_append, not_or]
                exact ⟨isBlank.unopened unopened plain, own⟩
              have read := ih later others plainText
              rwa [← List.append_assoc] at read ⊢
          | some part =>
              simp only [Event.Legible, isPart] at own
              exact (own _ (isBlank.unopened unopened plain)).append
                (ih later others List.not_mem_nil)

/-- An element with a text has the text between its tags. -/
theorem hasOnly_partsOf
    {name content : String}
    {left right : List Event}
    (events : pieces.map (·.2)
      = left ++ .start name [] :: .text content :: .finish name :: right)
    (laid : Laid indent behindText pieces)
    (before : tags name.toList (left.filterMap Event.part?) = [])
    (after : tags name.toList (right.filterMap Event.part?) = [])
    (waiting : List Char) :
    HasOnly (partsOf waiting pieces) name.toList content.toList := by
  obtain ⟨front, element, rfl, isFront, isElement⟩ := List.map_eq_append_iff.1 events
  obtain ⟨⟨blank, _⟩, inner, rfl, rfl, isInner⟩ := List.map_eq_cons_iff.1 isElement
  obtain ⟨⟨second, _⟩, ending, rfl, rfl, isEnding⟩ := List.map_eq_cons_iff.1 isInner
  obtain ⟨⟨third, _⟩, behind, rfl, rfl, isBehind⟩ := List.map_eq_cons_iff.1 isEnding
  obtain ⟨_, laid⟩ := laid.exists_of_append
  obtain ⟨waits, same⟩ := exists_partsOf_append waiting front
  cases laid with
  | cons _ laid =>
      cases laid with
      | cons isText laid =>
          cases laid with
          | cons isEnd _ =>
              obtain rfl := isText.text rfl
              obtain rfl := isEnd.behind rfl
              refine ⟨partsOf waiting front, waits ++ blank, partsOf [] behind, ?_, ?_, ?_⟩
              · rw [same, List.append_assoc]
                simp [partsOf, Event.part?, Event.markup, attributeTexts]
              · rw [map_partsOf, isFront, before]
              · rw [map_partsOf, isBehind, after]

end Pieces

end Markup
end AssemblyAtlas
