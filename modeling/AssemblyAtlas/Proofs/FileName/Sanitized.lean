import AssemblyAtlas.Proofs.FileName.Tidy
import AssemblyAtlas.Proofs.Text.Joined

/-!
# File names with directories

A sanitized file name is never empty, never starts at the root, and none of its segments is too
long. It may still have a segment that leads to the directory itself or to the one around it: the
scanner takes a dot behind a slash for one inside a name, and the extension, which is a dot alone if
the text ends in one, is put behind a slash or a dot as it is.

* `keptBase` and `extensionOf` are what a sanitized name has of its text, and `exists_sanitize_eq`
  puts them together;
* `dots_mem_segments_iff` finds a segment of dots in them;
* `dots_sanitize_iff` says exactly which texts get such a segment, and `dots_sanitize_samples` gives
  one of each kind.
-/

namespace AssemblyAtlas
namespace FileName

open Text

/-- The extension of a text, with its dot. -/
def extensionOf (text : String) : List Char :=
  (splitExtension text.toList).2

/-- What the scanner keeps of a text before its extension. -/
def scannedBase (text : String) : List Char :=
  scanned ⟨false, true, true⟩ (relevantPart (splitExtension text.toList).1)

/-- As much of that as the extension leaves room for. -/
def keptBase (text : String) : List Char :=
  if extensionOf text = [] then
    scannedBase text
  else
    takeBytes (maxSegment - utf8Length (extensionOf text)) (scannedBase text)

theorem sound_scannedBase (text : String) :
    Sound ⟨false, true, true⟩ (scannedBase text) :=
  sound_scanned _ _

/-! ## The two sides of a sanitized name -/

/-- What stands before the extension of a sanitized name. -/
structure IsStem (text : String) (stem : List Char) : Prop where
  someChar : stem ≠ []
  start : ∀ c, stem.head? = some c → c ≠ '.' ∧ c ≠ '/'
  apart : stem.IsChain NotDots
  short : ∀ part ∈ pieces '/' (stem ++ extensionOf text), utf8Length part ≤ maxSegment
  /-- Where something else is put in the place of what was kept, neither has a slash. -/
  source : stem = keptBase text ∨ '/' ∉ stem ∧ '/' ∉ keptBase text

/-- A name with a slash is usable as it is. -/
theorem usable_eq_or_slash_not_mem (name : List Char) :
    usable name = name ∨ '/' ∉ usable name ∧ '/' ∉ name := by
  rcases usable_cases name with ⟨rfl, made⟩ | ⟨device, made⟩ | ⟨-, -, made⟩
  · rw [made]
    exact Or.inr ⟨by decide, List.not_mem_nil⟩
  · have noSlash := (of_isDeviceName device).2.2
    rw [made]
    exact Or.inr ⟨by simpa using noSlash, noSlash⟩
  · exact Or.inl made

/-- A beginning of a name is that of the usable name, or neither has a slash. -/
theorem takeBytes_usable_eq_or_slash_not_mem
    (budget : Nat)
    (name : List Char) :
    takeBytes budget (usable name) = takeBytes budget name
      ∨ '/' ∉ takeBytes budget (usable name) ∧ '/' ∉ takeBytes budget name := by
  rcases usable_eq_or_slash_not_mem name with same | ⟨noUsable, noName⟩
  · exact Or.inl (congrArg (takeBytes budget) same)
  · exact Or.inr ⟨fun slash => noUsable (mem_of_mem_takeBytes slash),
      fun slash => noName (mem_of_mem_takeBytes slash)⟩

/-- A part of a text takes no more bytes than the text. -/
theorem utf8Length_le_of_mem_pieces
    {text part : List Char}
    (isPart : part ∈ pieces '/' text) :
    utf8Length part ≤ utf8Length text := by
  obtain ⟨front, behind, whole⟩ := (mem_pieces_iff.1 isPart).2
  have bytes := congrArg utf8Length whole
  simp only [utf8Length_append, utf8Length_cons, utf8Length_nil] at bytes
  omega

section Stem

variable {text : String}

/-- Without an extension a sanitized name is what was kept, made usable. -/
theorem isStem_usable
    (bare : extensionOf text = []) :
    IsStem text (usable (scannedBase text)) := by
  obtain ⟨sound, someChar⟩ := (sound_scannedBase text).usable
  have parts : Style.parts ⟨false, true, true⟩ (usable (scannedBase text))
      = pieces '/' (usable (scannedBase text)) := parts_eq_pieces rfl _
  refine ⟨someChar, sound.start, isChain_usable (isChain_scanned _ _), ?_, ?_⟩
  · rw [bare, List.append_nil, ← parts]
    exact sound.short
  · rw [keptBase, if_pos bare]
    exact usable_eq_or_slash_not_mem (scannedBase text)

/-- With an extension it is a beginning of that, with a hyphen in the place of an empty one. -/
theorem isStem_of_extension
    (dotted : extensionOf text ≠ [])
    {stem : List Char}
    (someChar : stem ≠ [])
    (fits : utf8Length stem + utf8Length (extensionOf text) ≤ maxSegment)
    (source : stem = takeBytes (maxSegment - utf8Length (extensionOf text))
          (usable (scannedBase text))
        ∨ takeBytes (maxSegment - utf8Length (extensionOf text)) (usable (scannedBase text)) = []
          ∧ stem = ['-']) :
    IsStem text stem := by
  have kept : keptBase text
      = takeBytes (maxSegment - utf8Length (extensionOf text)) (scannedBase text) := if_neg dotted
  have sound := (sound_scannedBase text).usable.1
  have apart : (usable (scannedBase text)).IsChain NotDots :=
    isChain_usable (isChain_scanned _ _)
  have short (part : List Char) (isPart : part ∈ pieces '/' (stem ++ extensionOf text)) :
      utf8Length part ≤ maxSegment := by
    have bytes := utf8Length_le_of_mem_pieces isPart
    rw [utf8Length_append] at bytes
    omega
  generalize maxSegment - utf8Length (extensionOf text) = budget at source kept
  have cut := takeBytes_usable_eq_or_slash_not_mem budget (scannedBase text)
  rw [← kept] at cut
  rcases source with taken | ⟨nothing, rfl⟩
  · obtain ⟨rest, split⟩ : stem <+: usable (scannedBase text) := taken ▸ takeBytes_prefix _ _
    rw [← taken] at cut
    refine ⟨someChar, fun c first => sound.start c ?_, apart.prefix ⟨rest, split⟩, short, cut⟩
    rw [← split, List.head?_append, first, Option.some_or]
  · refine ⟨someChar, fun c first => ?_, List.isChain_singleton _, short, Or.inr ⟨by decide, ?_⟩⟩
    · obtain rfl : '-' = c := by simpa using first
      decide
    · rw [nothing] at cut
      rcases cut with nothingKept | ⟨-, noSlash⟩
      · rw [← nothingKept]
        exact List.not_mem_nil
      · exact noSlash

end Stem

/-- A sanitized name is a stem with the extension of the text behind it. -/
theorem exists_sanitize_eq (text : String) :
    ∃ stem, (sanitize text).toList = stem ++ extensionOf text ∧ IsStem text stem := by
  have chars : (sanitize text).toList = attach (usable (scannedBase text)) (extensionOf text) := by
    rw [sanitize, String.toList_ofList, clean_eq_attach rfl]
    rfl
  rcases splitExtension_cases text.toList with bare | ⟨tail, dotted, -, short⟩
  · change extensionOf text = [] at bare
    refine ⟨usable (scannedBase text), ?_, isStem_usable bare⟩
    rw [chars, bare, attach, List.isEmpty_nil, if_pos rfl, List.append_nil]
  · have someExtension : extensionOf text ≠ [] := ne_of_eq_of_ne dotted (List.cons_ne_nil _ _)
    obtain ⟨stem, attached, someStem, fits, source⟩ :=
      attach_eq someExtension short (usable (scannedBase text))
    exact ⟨stem, chars.trans attached, isStem_of_extension someExtension someStem fits source⟩

/-! ## Segments of dots -/

/-- The segments of a path are the parts of its text between slashes. -/
theorem mem_segments_iff
    {segment path : String} :
    segment ∈ Path.segments path ↔ segment.toList ∈ pieces '/' path.toList := by
  rw [Path.segments, List.mem_map]
  constructor
  · rintro ⟨part, isPart, rfl⟩
    rwa [String.toList_ofList]
  · intro isPart
    exact ⟨segment.toList, isPart, String.ofList_toList⟩

/-- An extension ends in a dot only if it is one. -/
theorem dot_suffix_append_iff
    {tail : List Char}
    (plain : ∀ c ∈ tail, isNameChar c = true)
    (front stem : List Char) :
    front ++ ['.'] <:+ stem ++ '.' :: tail ↔ '.' :: tail = ['.'] ∧ front <:+ stem := by
  rcases List.eq_nil_or_concat' tail with rfl | ⟨inner, last, rfl⟩
  · rw [List.suffix_append_inj_of_length_eq rfl, and_comm]
  · have lastPlain : last ≠ '.' := ne_dot_of_isNameChar (plain last (by simp))
    refine iff_of_false (fun ends => lastPlain ?_) fun bare => by simp at bare
    rw [← List.cons_append, ← List.append_assoc, List.suffix_concat_iff] at ends
    rcases ends with empty | ⟨before, same, -⟩
    · simp at empty
    · simpa using (List.append_inj' same rfl).2.symm

/-- A segment of dots stands between two slashes of the stem, or at its end where no extension
follows, or its last dot is all of the extension. -/
theorem dots_mem_segments_iff
    {text : String}
    {stem : List Char}
    (chars : (sanitize text).toList = stem ++ extensionOf text)
    (isStem : IsStem text stem)
    (front : List Char)
    (dots : ∀ c ∈ front, c = '.') :
    String.ofList (front ++ ['.']) ∈ Path.segments (sanitize text)
      ↔ '/' :: (front ++ ['.', '/']) <:+: stem
        ∨ extensionOf text = [] ∧ '/' :: (front ++ ['.']) <:+ stem
        ∨ extensionOf text = ['.'] ∧ '/' :: front <:+ stem := by
  have noSlash : '/' ∉ front ++ ['.'] := by
    intro slash
    rcases List.mem_append.1 slash with inside | last
    · exact absurd (dots '/' inside) (by decide)
    · exact absurd (List.mem_singleton.1 last) (by decide)
  -- The stem does not start with a dot, so the dots are not the first segment.
  have notFirst : ¬front ++ ['.'] <+: stem ++ extensionOf text := by
    rintro ⟨rest, begins⟩
    obtain ⟨c, others, rfl⟩ := List.exists_cons_of_ne_nil isStem.someChar
    have first := congrArg List.head? begins
    cases front with
    | nil =>
        obtain rfl : '.' = c := by simpa using first
        exact (isStem.start '.' rfl).1 rfl
    | cons dot more =>
        obtain rfl : dot = c := by simpa using first
        exact (isStem.start dot rfl).1 (dots dot List.mem_cons_self)
  rw [mem_segments_iff, String.toList_ofList, chars,
    mem_pieces_iff_of_not_prefix noSlash notFirst, List.append_assoc, List.singleton_append]
  rcases splitExtension_cases text.toList with bare | ⟨tail, dotted, plain, -⟩
  · change extensionOf text = [] at bare
    simp [bare]
  · change extensionOf text = '.' :: tail at dotted
    have slash : '/' ∉ '.' :: tail := by
      rintro (_ | ⟨_, inTail⟩)
      exact ne_slash_of_isNameChar (plain '/' inTail) rfl
    have inside : '/' :: (front ++ ['.', '/']) <:+: stem ++ '.' :: tail
        ↔ '/' :: (front ++ ['.', '/']) <:+: stem := by
      simpa using infix_of_infix_append ('/' :: (front ++ ['.'])) stem slash
    have atEnd := dot_suffix_append_iff plain ('/' :: front) stem
    rw [dotted, inside]
    refine or_congr_right (atEnd.trans (or_iff_right ?_).symm)
    exact fun bare => List.cons_ne_nil _ _ bare.1

/-- What holds a slash is in the stem if it is in what was kept. -/
theorem IsStem.iff_keptBase
    {text : String}
    {stem : List Char}
    (isStem : IsStem text stem)
    {Holds : List Char → Prop}
    (slash : ∀ name, Holds name → '/' ∈ name) :
    Holds stem ↔ Holds (keptBase text) := by
  rcases isStem.source with same | ⟨noStem, noKept⟩
  · rw [same]
  · exact iff_of_false (fun holds => noStem (slash stem holds))
      fun holds => noKept (slash _ holds)

/-- A sanitized name is not empty and does not start at the root, and its segments are short. It has
a segment with one dot if such a one was kept of the text, or was kept before the extension but for
a dot that the extension is. It has a segment with two dots, the last one, if one dot was kept behind
a slash and the extension is a dot. -/
theorem dots_sanitize_iff (text : String) :
    sanitize text ≠ ""
      ∧ Path.isAbsolute (sanitize text) = false
      ∧ (∀ segment ∈ Path.segments (sanitize text), segment.utf8ByteSize ≤ 255)
      ∧ ("." ∈ Path.segments (sanitize text)
        ↔ ['/', '.', '/'] <:+: keptBase text
          ∨ extensionOf text = [] ∧ ['/', '.'] <:+ keptBase text
          ∨ extensionOf text = ['.'] ∧ ['/'] <:+ keptBase text)
      ∧ (".." ∈ Path.segments (sanitize text)
        ↔ extensionOf text = ['.'] ∧ ['/', '.'] <:+ keptBase text) := by
  obtain ⟨stem, chars, isStem⟩ := exists_sanitize_eq text
  obtain ⟨c, rest, begins⟩ := List.exists_cons_of_ne_nil isStem.someChar
  have start := isStem.start c (by rw [begins]; rfl)
  have inside {pattern : List Char} (slash : '/' ∈ pattern) :
      pattern <:+: stem ↔ pattern <:+: keptBase text :=
    isStem.iff_keptBase fun _ holds => holds.subset slash
  have ending {pattern : List Char} (slash : '/' ∈ pattern) :
      pattern <:+ stem ↔ pattern <:+ keptBase text :=
    isStem.iff_keptBase fun _ holds => holds.subset slash
  -- The scanner keeps no two dots in a row.
  have noDots {pattern : List Char} (dots : ['.', '.'] <:+: pattern) : ¬pattern <:+: stem := by
    intro isInfix
    have apart := isStem.apart.infix (dots.trans isInfix)
    simp [NotDots] at apart
  have one := dots_mem_segments_iff chars isStem [] (by simp)
  have two := dots_mem_segments_iff chars isStem ['.'] (by simp)
  refine ⟨?_, ?_, ?_, ?_, ?_⟩
  · intro empty
    rw [empty, begins] at chars
    simp at chars
  · rw [Path.isAbsolute, chars, begins, decide_eq_false_iff_not]
    intro slash
    exact start.2 (by simpa using slash)
  · intro segment isSegment
    have short := isStem.short segment.toList (chars ▸ mem_segments_iff.1 isSegment)
    rwa [← utf8ByteSize_ofList, String.ofList_toList] at short
  · refine one.trans ?_
    rw [inside (by simp), ending (by simp), ending (by simp)]
    rfl
  · have notBetween : ¬['/', '.', '.', '/'] <:+: stem := noDots ⟨['/'], ['/'], rfl⟩
    have notAtEnd : ¬['/', '.', '.'] <:+ stem := fun ends => noDots ⟨['/'], [], rfl⟩ ends.isInfix
    refine two.trans ((or_iff_right notBetween).trans ?_)
    rw [or_iff_right fun ends => notAtEnd ends.2, ending (by simp)]

/-- A dot behind a slash is left alone, also at the end, and two dots at the end lead out. -/
theorem dots_sanitize_samples :
    ".." ∈ Path.segments (sanitize "a/..")
      ∧ "." ∈ Path.segments (sanitize "a/.")
      ∧ "." ∈ Path.segments (sanitize "a/./b")
      ∧ "." ∈ Path.segments (sanitize "a/.:b") := by
  decide +kernel

end FileName
end AssemblyAtlas
