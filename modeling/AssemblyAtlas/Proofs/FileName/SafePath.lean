import AssemblyAtlas.Path
import AssemblyAtlas.Proofs.FileName.Scan

/-!
# Names that lead down

The segments of generated paths are short, have plain characters only, and are none of the two that
lead to a directory itself or to the one around it. So a generated path leads down from wherever it
is followed.

* `SafeSegment` and `SafePath` say so of a segment and of a path;
* `safeSegment_withExtension`, `safeSegment_directory` and `safeSegment_of_mem_path` are about the
  names that are made of any text.
-/

namespace AssemblyAtlas
namespace FileName

open Text

/-- A segment that every file system takes as the name of something in a directory. -/
structure SafeSegment (segment : String) : Prop where
  short : segment.utf8ByteSize ≤ 255
  /-- Letters and decimal digits of the basic plane, hyphens, underscores and dots. -/
  plain : ∀ c ∈ segment.toList,
    c.toNat ≤ 0xffff ∧ (isLetterOrDigit c = true ∨ c = '-' ∨ c = '_' ∨ c = '.')
  notCurrent : segment ≠ "."
  notParent : segment ≠ ".."

/-- A path that leads down to something with a name. -/
structure SafePath (path : String) : Prop where
  relative : Path.isAbsolute path = false
  segments : ∀ segment ∈ Path.segments path, SafeSegment segment
  named : Path.lastSegment path ≠ ""

/-- The characters of names are plain. -/
theorem plain_of_isNameChar
    {c : Char}
    (isName : isNameChar c = true) :
    c.toNat ≤ 0xffff ∧ (isLetterOrDigit c = true ∨ c = '-' ∨ c = '_' ∨ c = '.') := by
  simp only [isNameChar, Bool.and_eq_true, decide_eq_true_eq, Bool.or_eq_true, beq_iff_eq] at isName
  tauto

/-- A slash is no plain character. -/
theorem SafeSegment.slash_not_mem
    {segment : String}
    (safe : SafeSegment segment) :
    '/' ∉ segment.toList := by
  intro slash
  exact absurd (safe.plain '/' slash) (by decide)

theorem SafeSegment.segments_eq
    {segment : String}
    (safe : SafeSegment segment) :
    Path.segments segment = [segment] := by
  rw [Path.segments, pieces_of_not_mem safe.slash_not_mem, List.map_singleton, String.ofList_toList]

/-- A safe segment that is not empty is a safe path. -/
theorem SafeSegment.safePath
    {segment : String}
    (safe : SafeSegment segment)
    (some_char : segment ≠ "") :
    SafePath segment := by
  refine ⟨?_, ?_, ?_⟩
  · rw [Path.isAbsolute, decide_eq_false_iff_not]
    intro slash
    exact safe.slash_not_mem (List.mem_of_head? slash)
  · rw [safe.segments_eq]
    intro other member
    rw [List.mem_singleton.1 member]
    exact safe
  · rw [Path.lastSegment, safe.segments_eq]
    exact some_char

theorem segments_append
    (directory path : String) :
    Path.segments (directory ++ "/" ++ path) = Path.segments directory ++ Path.segments path := by
  have text : (directory ++ "/" ++ path).toList = directory.toList ++ '/' :: path.toList := by
    simp
  rw [Path.segments, text, pieces_append_separator, List.map_append, Path.segments, Path.segments]

theorem isAbsolute_append
    {directory : String}
    (some_char : directory ≠ "")
    (path : String) :
    Path.isAbsolute (directory ++ path) = Path.isAbsolute directory := by
  obtain ⟨c, rest, chars⟩ := List.exists_cons_of_ne_nil
    (fun empty => some_char (String.toList_inj.1 empty) : directory.toList ≠ [])
  rw [Path.isAbsolute, Path.isAbsolute, String.toList_append, chars]
  rfl

/-- A file with a safe name is on a safe path in any directory whose segments are safe. -/
theorem SafeSegment.safePath_append
    {directory file : String}
    (safe : SafeSegment file)
    (some_char : file ≠ "")
    (notEmpty : directory ≠ "")
    (relative : Path.isAbsolute directory = false)
    (segments : ∀ segment ∈ Path.segments directory, SafeSegment segment) :
    SafePath (directory ++ "/" ++ file) := by
  refine ⟨?_, ?_, ?_⟩
  · rw [String.append_assoc, isAbsolute_append notEmpty, relative]
  · intro segment member
    rw [segments_append, safe.segments_eq] at member
    rcases List.mem_append.1 member with inside | last
    · exact segments segment inside
    · rw [List.mem_singleton.1 last]
      exact safe
  · rw [Path.lastSegment, segments_append, safe.segments_eq, List.getLastD_concat]
    exact some_char

/-! ## Names with an extension -/

theorem utf8Length_takeBytes_le
    (budget : Nat)
    (text : List Char) :
    utf8Length (takeBytes budget text) ≤ budget := by
  induction text generalizing budget with
  | nil => exact Nat.zero_le _
  | cons c rest ih =>
      rw [takeBytes]
      split
      · next fits =>
          have later := ih (budget - c.utf8Size)
          rw [utf8Length_cons]
          omega
      · exact Nat.zero_le _

theorem takeBytes_prefix
    (budget : Nat)
    (text : List Char) :
    takeBytes budget text <+: text := by
  induction text generalizing budget with
  | nil => exact List.prefix_rfl
  | cons c rest ih =>
      rw [takeBytes]
      split
      · exact List.cons_prefix_cons.2 ⟨rfl, ih _⟩
      · exact List.nil_prefix

theorem mem_of_mem_takeBytes
    {budget : Nat}
    {text : List Char}
    {c : Char}
    (member : c ∈ takeBytes budget text) :
    c ∈ text := by
  have front := takeBytes_prefix budget text
  exact front.subset member

/-- A dot and at least one character that names keep, with room for something in front. -/
structure IsExtension (extension : List Char) : Prop where
  dotted : ∃ tail, extension = '.' :: tail ∧ tail ≠ [] ∧ ∀ c ∈ tail, isNameChar c = true
  short : utf8Length extension < maxSegment

/-- An extension that is put behind a text is separated from it again. -/
theorem splitExtension_append
    {extension : List Char}
    (isExtension : IsExtension extension)
    (text : List Char) :
    splitExtension (text ++ extension) = (text, extension) := by
  obtain ⟨tail, rfl, -, plain⟩ := isExtension.dotted
  have noDot : '.' ∉ tail := fun dot => ne_dot_of_isNameChar (plain '.' dot) rfl
  have short := isExtension.short
  rw [splitExtension, cutLast?_append text noDot]
  exact if_pos ⟨short, List.all_eq_true.2 plain⟩

/-- Only a dot with characters behind it that names keep is separated, and only if there is room for
something in front. -/
theorem splitExtension_cases (text : List Char) :
    (splitExtension text).2 = []
      ∨ ∃ tail, (splitExtension text).2 = '.' :: tail
        ∧ (∀ c ∈ tail, isNameChar c = true)
        ∧ utf8Length (splitExtension text).2 < maxSegment := by
  rw [splitExtension]
  split
  · exact Or.inl rfl
  · next base tail _ =>
      split
      · next isExtension => exact Or.inr ⟨tail, rfl, List.all_eq_true.1 isExtension.2, isExtension.1⟩
      · exact Or.inl rfl

/-- What an extension is attached to has a character and leaves room for it. -/
theorem attach_eq
    {extension : List Char}
    (someChar : extension ≠ [])
    (short : utf8Length extension < maxSegment)
    (name : List Char) :
    ∃ stem, attach name extension = stem ++ extension
      ∧ stem ≠ []
      ∧ utf8Length stem + utf8Length extension ≤ maxSegment
      ∧ (stem = takeBytes (maxSegment - utf8Length extension) name
        ∨ takeBytes (maxSegment - utf8Length extension) name = [] ∧ stem = ['-']) := by
  have notEmpty : extension.isEmpty = false := List.isEmpty_eq_false_iff.2 someChar
  have fits := utf8Length_takeBytes_le (maxSegment - utf8Length extension) name
  refine ⟨_, by rw [attach, notEmpty]; rfl, ?_⟩
  cases taken : takeBytes (maxSegment - utf8Length extension) name with
  | nil =>
      have hyphen : utf8Length ['-'] = 1 := by decide
      refine ⟨by simp, ?_, Or.inr ⟨rfl, rfl⟩⟩
      rw [List.isEmpty_nil, if_pos rfl, hyphen]
      omega
  | cons c rest =>
      rw [taken] at fits
      rw [List.isEmpty_cons, if_neg Bool.false_ne_true]
      exact ⟨List.cons_ne_nil _ _, by omega, Or.inl rfl⟩

/-- A text is taken apart, its front is made usable, and its extension is put behind it again. -/
theorem clean_eq_attach
    {style : Style}
    (hasExtension : style.hasExtension = true)
    (text : List Char) :
    clean style text
      = attach (usable (scanned style (relevantPart (splitExtension text).1)))
          (splitExtension text).2 := by
  obtain ⟨sound, someName⟩ :=
    (sound_scanned style (relevantPart (splitExtension text).1)).usable
  have noDot : attach (usable (scanned style (relevantPart (splitExtension text).1)))
      (splitExtension text).2 ≠ ['.'] := by
    intro dot
    rcases splitExtension_cases text with none | ⟨tail, dotted, -, short⟩
    · rw [none, attach, List.isEmpty_nil, if_pos rfl] at dot
      exact (sound.start '.' (by rw [dot]; rfl)).1 rfl
    · obtain ⟨stem, attached, someStem, -⟩ := attach_eq (by rw [dotted]; simp) short
        (usable (scanned style (relevantPart (splitExtension text).1)))
      obtain ⟨c, rest, rfl⟩ := List.exists_cons_of_ne_nil someStem
      rw [attached, dotted] at dot
      simp at dot
  rw [clean, hasExtension]
  simp only [↓reduceIte, if_neg noDot]

/-- Text and extension are taken apart, and the one is put before the other again. -/
theorem clean_append_extension
    {style : Style}
    (hasExtension : style.hasExtension = true)
    {extension : List Char}
    (isExtension : IsExtension extension)
    (text : List Char) :
    clean style (text ++ extension)
      = attach (usable (scanned style (relevantPart text))) extension := by
  rw [clean_eq_attach hasExtension, splitExtension_append isExtension]

theorem toList_withExtension
    {extension : String}
    (isExtension : IsExtension extension.toList)
    (text : String) :
    (withExtension text extension).toList
      = attach (usable (scanned ⟨false, true, false⟩ (relevantPart text.toList)))
          extension.toList := by
  obtain ⟨tail, dotted, -⟩ := isExtension.dotted
  rw [withExtension, if_pos (by rw [dotted]; rfl), List.append_nil, String.toList_ofList,
    clean_append_extension rfl isExtension]

/-- A name with an extension is safe, and it has more than the extension. -/
theorem safeSegment_withExtension
    (text : String)
    {extension : String}
    (isExtension : IsExtension extension.toList) :
    SafeSegment (withExtension text extension)
      ∧ ∃ stem, stem ≠ "" ∧ withExtension text extension = stem ++ extension := by
  obtain ⟨tail, dotted, someTail, plain⟩ := isExtension.dotted
  obtain ⟨sound, -⟩ := (sound_scanned ⟨false, true, false⟩ (relevantPart text.toList)).usable
  obtain ⟨stem, attached, someStem, short, source⟩ := attach_eq (by rw [dotted]; simp)
    isExtension.short (usable (scanned ⟨false, true, false⟩ (relevantPart text.toList)))
  have chars : withExtension text extension = String.ofList (stem ++ extension.toList) := by
    rw [← String.toList_inj, toList_withExtension isExtension, attached, String.toList_ofList]
  -- The last character is one that names keep, so the segment is none of the two special ones.
  obtain ⟨front, last, split⟩ := List.eq_nil_or_concat' tail |>.resolve_left someTail
  have lastPlain : isNameChar last = true := plain last (by rw [split]; simp)
  have ending : (withExtension text extension).toList.getLast? = some last := by
    rw [chars, String.toList_ofList, dotted, split, ← List.cons_append, ← List.append_assoc,
      List.getLast?_concat]
  have special (segment : String) (dots : segment.toList.getLast? = some '.') :
      withExtension text extension ≠ segment := by
    rintro rfl
    exact ne_dot_of_isNameChar lastPlain (Option.some.inj (ending.symm.trans dots))
  refine ⟨⟨?_, ?_, special "." (by decide), special ".." (by decide)⟩, String.ofList stem, ?_, ?_⟩
  · rw [chars, utf8ByteSize_ofList, utf8Length_append]
    exact short
  · intro c member
    rw [chars, String.toList_ofList] at member
    rcases List.mem_append.1 member with inStem | inExtension
    · rcases source with taken | ⟨-, rfl⟩
      · rw [taken] at inStem
        rcases sound.allowed c (mem_of_mem_takeBytes inStem) with isName | rfl | slash
        · exact plain_of_isNameChar isName
        · decide
        · exact absurd slash.1 Bool.false_ne_true
      · rw [List.mem_singleton.1 inStem]
        exact plain_of_isNameChar isNameChar_hyphen
    · rw [dotted] at inExtension
      rcases List.mem_cons.1 inExtension with rfl | inTail
      · decide
      · exact plain_of_isNameChar (plain c inTail)
  · intro empty
    exact someStem (by rw [← String.toList_ofList (l := stem), empty]; rfl)
  · rw [chars, String.ofList_append, String.ofList_toList]

/-! ## Directories -/

/-- Without an extension a name is what the scanner keeps, made usable. -/
theorem clean_eq
    (style : Style)
    (noExtension : style.hasExtension = false)
    (text : List Char) :
    clean style text = usable (scanned style (relevantPart text))
      ∧ Sound style (clean style text)
      ∧ clean style text ≠ [] := by
  obtain ⟨sound, some_char⟩ := (sound_scanned style (relevantPart text)).usable
  have notDot : usable (scanned style (relevantPart text)) ≠ ['.'] := by
    intro dot
    exact (sound.start '.' (by rw [dot]; rfl)).1 rfl
  have same : clean style text = usable (scanned style (relevantPart text)) := by
    rw [clean, noExtension]
    simp only [Bool.false_eq_true, ↓reduceIte, attach, List.isEmpty_nil, if_neg notDot]
  rw [same]
  exact ⟨rfl, sound, some_char⟩

/-- The name of a directory is safe. -/
theorem safeSegment_directory (text : String) :
    SafeSegment (directory text)
      ∧ directory text ≠ "" := by
  obtain ⟨-, sound, some_char⟩ :=
    clean_eq ⟨false, false, false⟩ rfl text.toList
  have plain (c : Char) (member : c ∈ (directory text).toList) : isNameChar c = true ∨ c = '.' := by
    rw [directory, String.toList_ofList] at member
    rcases sound.allowed c member with isName | dot | slash
    · exact Or.inl isName
    · exact Or.inr dot
    · exact absurd slash.1 Bool.false_ne_true
  have special (segment : String) (dots : segment.toList.head? = some '.') :
      directory text ≠ segment := by
    rintro rfl
    rw [directory, String.toList_ofList] at dots
    exact (sound.start '.' dots).1 rfl
  refine ⟨⟨?_, ?_, special "." (by decide), special ".." (by decide)⟩, ?_⟩
  · have noSlash : '/' ∉ clean ⟨false, false, false⟩ text.toList := by
      intro slash
      rcases plain '/' (by rw [directory, String.toList_ofList]; exact slash) with isName | dot
      · exact ne_slash_of_isNameChar isName rfl
      · exact absurd dot (by decide)
    have short := sound.short (clean ⟨false, false, false⟩ text.toList)
      (by rw [parts_of_whole rfl noSlash]; exact List.mem_singleton_self _)
    rw [directory, utf8ByteSize_ofList]
    exact short
  · intro c member
    rcases plain c member with isName | rfl
    · exact plain_of_isNameChar isName
    · decide
  · intro empty
    rw [directory] at empty
    exact some_char (by rw [← String.toList_ofList (l := clean _ _), empty]; rfl)

/-- The segments of a path for a dotted name are safe, and it does not start at the root. -/
theorem safeSegment_of_mem_path (text : String) :
    (∀ segment ∈ Path.segments (path text), SafeSegment segment)
      ∧ Path.isAbsolute (path text) = false
      ∧ path text ≠ "" := by
  obtain ⟨-, sound, some_char⟩ :=
    clean_eq ⟨true, false, true⟩ rfl text.toList
  have chars : (path text).toList
      = Style.divided ⟨true, false, true⟩ (clean ⟨true, false, true⟩ text.toList) := by
    rw [path, String.toList_ofList]
    rfl
  obtain ⟨first, rest, split⟩ := List.exists_cons_of_ne_nil some_char
  have start := sound.start first (by rw [split]; rfl)
  have head : (path text).toList = first :: Style.divided ⟨true, false, true⟩ rest := by
    rw [chars, split, divided_cons, if_neg (fun dot => start.1 dot.2)]
  refine ⟨?_, ?_, ?_⟩
  · intro segment member
    rw [Path.segments, chars] at member
    obtain ⟨part, isPart, rfl⟩ := List.mem_map.1 member
    -- The dots are slashes now, so the parts have characters that names keep.
    have plain (c : Char) (inPart : c ∈ part) : isNameChar c = true := by
      obtain ⟨inside, noSlash⟩ := of_mem_pieces isPart inPart
      obtain ⟨old, isOld, changed⟩ := List.mem_map.1 inside
      split at changed
      · exact absurd changed.symm noSlash
      · next notDot =>
          rw [← changed] at noSlash ⊢
          rcases sound.allowed old isOld with isName | dot | slash
          · exact isName
          · exact absurd dot notDot
          · exact absurd slash.2 noSlash
    have special (segment : String) (dot : '.' ∈ segment.toList) :
        String.ofList part ≠ segment := by
      rintro rfl
      rw [String.toList_ofList] at dot
      exact ne_dot_of_isNameChar (plain '.' dot) rfl
    refine ⟨?_, ?_, special "." (by decide), special ".." (by decide)⟩
    · rw [utf8ByteSize_ofList]
      exact sound.short part isPart
    · intro c inPart
      rw [String.toList_ofList] at inPart
      exact plain_of_isNameChar (plain c inPart)
  · rw [Path.isAbsolute, head, decide_eq_false_iff_not]
    intro slash
    exact start.2 (by simpa using slash)
  · intro empty
    rw [empty] at head
    exact absurd head (by simp)

end FileName
end AssemblyAtlas
