import AssemblyAtlas.Markup.Entity

/-!
# Writing markup

A library writes marked-up texts event by event: the start of an element, its content, its end. How
it keeps what is written so far is its own affair, and it may put white space between tags.

* `Event` is what a writer is told, and `Event.markup` what it has to write for it;
* `Writer` and `Library` are what is used of a library, and `Library.Documented` is what is known
  of it;
* `Library.indenting` is one such library.
-/

namespace AssemblyAtlas
namespace Markup

/-- What a writer is told to write. Contents and the values of attributes are escaped before. -/
inductive Event where
  /-- The declaration at the head of a document. -/
  | heading (version encoding : String)
  | start (name : String) (attributes : List (String × String))
  /-- An element without content. -/
  | single (name : String) (attributes : List (String × String))
  | text (content : String)
  | finish (name : String)

/-- An attribute as it is written in a tag. -/
def attributeText (key value : List Char) : List Char :=
  ' ' :: (key ++ '=' :: '"' :: (value ++ ['"']))

/-- What a tag says behind the name. -/
def attributeTexts (attributes : List (String × String)) : List Char :=
  attributes.flatMap fun (key, value) => attributeText key.toList value.toList

namespace Event

/-- The event is a text. -/
def isText : Event → Bool
  | text _ => true
  | _ => false

/-- What is written for an event. -/
def markup : Event → List Char
  | heading version encoding =>
      "<?xml".toList ++ attributeTexts [("version", version), ("encoding", encoding)]
        ++ "?>".toList
  | start name attributes => '<' :: (name.toList ++ (attributeTexts attributes ++ ['>']))
  | single name attributes => '<' :: (name.toList ++ (attributeTexts attributes ++ ['/', '>']))
  | text content => content.toList
  | finish name => '<' :: '/' :: (name.toList ++ ['>'])

end Event

/-- A writer to memory. -/
structure Writer where
  State : Type
  start : State
  /-- Writes an event, or says why it cannot be written. -/
  write : State → Event → Except String State
  /-- What is written so far. -/
  bytes : State → ByteArray

/-- What is used of a library that writes markup. -/
structure Library where
  /-- Escapes the content of an element. -/
  content : String → String
  /-- Escapes the value of an attribute. -/
  value : String → String
  /-- The writer that indents by a number of characters for each level. -/
  writer : (indent : Char) → (width : Nat) → Writer

/-- The documented behaviour of a writer that indents. -/
structure Writer.Documented (writer : Writer) (indent : Char) : Prop where
  /-- At first nothing is written. -/
  fresh : writer.bytes writer.start = .empty
  /-- Writing to memory does not fail. The event is written behind what is there, perhaps on a new
  line; but a text is not. -/
  writes : ∀ state event, ∃ after blank,
    writer.write state event = .ok after
      ∧ writer.bytes after
        = writer.bytes state ++ (String.ofList (blank ++ event.markup)).toUTF8
      ∧ (∀ c ∈ blank, c = '\n' ∨ c = indent)
      ∧ (event.isText = true → blank = [])
  /-- Nor is what comes behind a text. -/
  behind : ∀ state content after event next,
    writer.write state (.text content) = .ok after → writer.write after event = .ok next →
      writer.bytes next = writer.bytes after ++ (String.ofList event.markup).toUTF8

/-- The documented behaviour of a library: it replaces the characters that mean something in markup
by entities, and no others, and its writers write what they are told. They indent by one byte. -/
structure Library.Documented (library : Library) : Prop where
  content : ∀ text, (library.content text).toList = escape text.toList
  value : ∀ text, (library.value text).toList = escape text.toList
  writer : ∀ indent width, indent.toNat < 0x80 → (library.writer indent width).Documented indent

/-! ## A library that indents -/

namespace Writer

/-- What is written so far, on which level, and whether a tag goes on a new line. -/
structure Page where
  written : String
  level : Nat
  breaks : Bool

namespace Page

/-- Writes an event on the level that is reached with it. -/
def add (page : Page) (indent : Char) (width : Nat) (level : Nat) (event : Event) : Page :=
  let blank :=
    if page.breaks && !event.isText then '\n' :: List.replicate (level * width) indent else []
  { page with
    written := page.written ++ String.ofList (blank ++ event.markup)
    breaks := !event.isText }

/-- Writes an event. The content of an element is one level below its tags. -/
def write (page : Page) (indent : Char) (width : Nat) (event : Event) : Page :=
  match event with
  | .start _ _ => { page.add indent width page.level event with level := page.level + 1 }
  | .finish _ =>
      { page.add indent width (page.level - 1) event with level := page.level - 1 }
  | _ => page.add indent width page.level event

end Page

/-- A writer that puts every tag on a line of its own, unless there is text before it. -/
def indenting (indent : Char) (width : Nat) : Writer where
  State := Page
  start := ⟨"", 0, false⟩
  write := fun page event => .ok (page.write indent width event)
  bytes := fun page => page.written.toUTF8

/-- Only blanks are put before an event, and none before or behind a text. -/
theorem Page.exists_blank
    (page : Page)
    (indent : Char)
    (width : Nat)
    (event : Event) :
    ∃ blank,
      (page.write indent width event).written
          = page.written ++ String.ofList (blank ++ event.markup)
        ∧ (∀ c ∈ blank, c = '\n' ∨ c = indent)
        ∧ (event.isText = true → blank = [])
        ∧ (page.breaks = false → blank = []) := by
  have added (level : Nat) : ∃ blank,
      (page.add indent width level event).written
          = page.written ++ String.ofList (blank ++ event.markup)
        ∧ (∀ c ∈ blank, c = '\n' ∨ c = indent)
        ∧ (event.isText = true → blank = [])
        ∧ (page.breaks = false → blank = []) := by
    refine ⟨_, rfl, fun c isBlank => ?_, fun isText => ?_, fun unbroken => ?_⟩
    · split at isBlank
      · exact (List.mem_cons.1 isBlank).imp_right List.eq_of_mem_replicate
      · cases isBlank
    · rw [isText, Bool.not_true, Bool.and_false]
      rfl
    · rw [unbroken, Bool.false_and]
      rfl
  cases event with
  | finish name => exact added (page.level - 1)
  | _ => exact added page.level

theorem documented_indenting (indent : Char) (width : Nat) :
    (indenting indent width).Documented indent where
  fresh := rfl
  writes := fun page event => by
    obtain ⟨blank, written, blanks, isBare, -⟩ := page.exists_blank indent width event
    refine ⟨page.write indent width event, blank, rfl, ?_, blanks, isBare⟩
    exact (congrArg String.toUTF8 written).trans String.toByteArray_append
  behind := fun page content after event next first second => by
    obtain rfl := Except.ok.inj first
    obtain rfl := Except.ok.inj second
    obtain ⟨blank, written, -, -, isBare⟩ :=
      Page.exists_blank (page.write indent width (.text content)) indent width event
    rw [isBare rfl] at written
    exact (congrArg String.toUTF8 written).trans String.toByteArray_append

end Writer

/-- A library with the writer that indents. -/
def Library.indenting : Library :=
  let escaped (text : String) : String := String.ofList (escape text.toList)
  ⟨escaped, escaped, Writer.indenting⟩

theorem Library.documented_indenting :
    Library.indenting.Documented where
  content := fun _ => String.toList_ofList
  value := fun _ => String.toList_ofList
  writer := fun indent width _ => Writer.documented_indenting indent width

end Markup
end AssemblyAtlas
