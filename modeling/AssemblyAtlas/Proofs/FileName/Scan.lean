import AssemblyAtlas.FileName
import AssemblyAtlas.Proofs.Text.Bytes
import AssemblyAtlas.Proofs.Text.Case
import AssemblyAtlas.Proofs.Text.Lines

/-!
# What the scanner of names keeps

The scanner counts the bytes of a segment also where it drops a character, so what it keeps of a
segment is never longer than what it has counted. It starts with a character that is neither a dot
nor a slash, for these are kept behind others only.

* `Scan.Sound` is what every step keeps, and `sound_scanned` is about all of them;
* `Sound.usable` is about names that are made usable.
-/

namespace AssemblyAtlas
namespace FileName

open Text

/-- The text with a slash at the end of each of its segments. -/
def Style.divided (style : Style) (text : List Char) : List Char :=
  if style.splitAtDots then replaceChar '.' '/' text else text

/-- The parts of a text that are directories or files of their own. -/
def Style.parts (style : Style) (text : List Char) : List (List Char) :=
  pieces '/' (style.divided text)

/-- The characters of a name: those that names keep, dots, and slashes where they separate. -/
def Style.Allows (style : Style) (c : Char) : Prop :=
  isNameChar c = true ∨ c = '.' ∨ style.splitAtSlashes = true ∧ c = '/'

theorem isNameChar_dot : isNameChar '.' = false := by
  decide

theorem isNameChar_slash : isNameChar '/' = false := by
  decide

theorem isNameChar_hyphen : isNameChar '-' = true := by
  decide

theorem ne_dot_of_isNameChar
    {c : Char}
    (isName : isNameChar c = true) :
    c ≠ '.' := by
  rintro rfl
  exact absurd isName (by rw [isNameChar_dot]; exact Bool.false_ne_true)

theorem ne_slash_of_isNameChar
    {c : Char}
    (isName : isNameChar c = true) :
    c ≠ '/' := by
  rintro rfl
  exact absurd isName (by rw [isNameChar_slash]; exact Bool.false_ne_true)

/-! ## Parts -/

section Parts

variable (style : Style)

theorem divided_cons
    (c : Char)
    (rest : List Char) :
    style.divided (c :: rest)
      = (if style.splitAtDots = true ∧ c = '.' then '/' else c) :: style.divided rest := by
  rw [Style.divided, Style.divided, replaceChar, replaceChar]
  by_cases splits : style.splitAtDots = true
  · simp [splits]
  · simp [splits]

/-- A character that ends no segment goes on in the current one. -/
theorem parts_cons
    {c : Char}
    (noSlash : c ≠ '/')
    (noBreak : style.splitAtDots = true → c ≠ '.')
    {rest current : List Char}
    {others : List (List Char)}
    (parts : style.parts rest = current :: others) :
    style.parts (c :: rest) = (c :: current) :: others := by
  rw [Style.parts, divided_cons, if_neg (by tauto)]
  exact pieces_other noSlash parts

/-- A character that ends a segment starts one. -/
theorem parts_break
    {c : Char}
    (isBreak : c = '/' ∨ style.splitAtDots = true ∧ c = '.')
    (rest : List Char) :
    style.parts (c :: rest) = [] :: style.parts rest := by
  have slash : (if style.splitAtDots = true ∧ c = '.' then '/' else c) = '/' := by
    split
    · rfl
    · next noBreak => exact isBreak.resolve_right noBreak
  rw [Style.parts, divided_cons, slash, pieces_separator]
  rfl

/-- Where dots end no segment, the parts are those between slashes. -/
theorem parts_eq_pieces
    {style : Style}
    (whole : style.splitAtDots = false)
    (name : List Char) :
    style.parts name = pieces '/' name := by
  rw [Style.parts, Style.divided, whole, if_neg Bool.false_ne_true]

/-- A text without slashes is one part then. -/
theorem parts_of_whole
    {style : Style}
    (whole : style.splitAtDots = false)
    {name : List Char}
    (noSlash : '/' ∉ name) :
    style.parts name = [name] := by
  rw [parts_eq_pieces whole, pieces_of_not_mem noSlash]

theorem parts_reverse (text : List Char) :
    style.parts text.reverse = ((style.parts text).map List.reverse).reverse := by
  have divided : style.divided text.reverse = (style.divided text).reverse := by
    rw [Style.divided, Style.divided, replaceChar, replaceChar]
    split
    · exact List.map_reverse
    · rfl
  rw [Style.parts, divided, pieces_reverse, Style.parts]

end Parts

/-! ## The scanner -/

/-- What the scanner knows about the text that it has kept, whose last character comes first. -/
structure Scan.Sound (style : Style) (scan : Scan) : Prop where
  allowed : ∀ c ∈ scan.kept, style.Allows c
  start : ∀ c, scan.kept.getLast? = some c → c ≠ '.' ∧ c ≠ '/'
  /-- No segment is too long, and the current one has at most the bytes that were counted. -/
  short : ∃ current others, style.parts scan.kept = current :: others
    ∧ utf8Length current ≤ scan.asked
    ∧ ∀ part ∈ current :: others, utf8Length part ≤ maxSegment
  /-- Where something was counted, something is kept. -/
  going : 0 < scan.asked → scan.kept ≠ []

namespace Scan

variable {style : Style} {scan : Scan}

theorem sound_start (style : Style) : Sound style ⟨[], 0⟩ where
  allowed := fun _ member => absurd member List.not_mem_nil
  start := fun _ first => by cases first
  short := by
    refine ⟨[], [], ?_, Nat.le_refl 0, ?_⟩
    · rw [Style.parts, Style.divided]
      split <;> rfl
    · intro part member
      rw [List.mem_singleton.1 member]
      exact Nat.zero_le _
  going := fun counted => absurd counted (Nat.lt_irrefl 0)

/-- A character that ends no segment is counted, and kept if the segment has room for it. -/
theorem Sound.count
    (sound : Sound style scan)
    {c : Char}
    (allowed : style.Allows c)
    (noSlash : c ≠ '/')
    (noBreak : style.splitAtDots = true → c ≠ '.')
    (start : scan.kept = [] → c ≠ '.') :
    Sound style
      ⟨if scan.asked + c.utf8Size ≤ maxSegment then c :: scan.kept else scan.kept,
        scan.asked + c.utf8Size⟩ := by
  obtain ⟨current, others, parts, counted, short⟩ := sound.short
  have size := Char.utf8Size_le_four c
  by_cases fits : scan.asked + c.utf8Size ≤ maxSegment
  · rw [if_pos fits]
    refine ⟨?_, ?_, ⟨c :: current, others, parts_cons style noSlash noBreak parts, ?_, ?_⟩, ?_⟩
    · intro other member
      rcases List.mem_cons.1 member with rfl | old
      · exact allowed
      · exact sound.allowed other old
    · intro first isFirst
      cases kept : scan.kept with
      | nil =>
          rw [kept] at isFirst
          obtain rfl : c = first := by simpa using isFirst
          exact ⟨start kept, noSlash⟩
      | cons last rest =>
          rw [kept, List.getLast?_cons_cons] at isFirst
          exact sound.start first (kept ▸ isFirst)
    · rw [utf8Length_cons]
      dsimp only
      omega
    · intro part member
      rcases List.mem_cons.1 member with rfl | old
      · rw [utf8Length_cons]
        omega
      · exact short part (List.mem_cons_of_mem _ old)
    · exact fun _ => List.cons_ne_nil _ _
  · rw [if_neg fits]
    refine ⟨sound.allowed, sound.start, ⟨current, others, parts, ?_, short⟩, ?_⟩
    · exact Nat.le_trans counted (Nat.le_add_right _ _)
    · intro _
      -- More than a segment's worth was counted, so this is not its first character.
      rw [maxSegment] at fits
      exact sound.going (by omega)

/-- A character that ends a segment is kept, and counting starts again. -/
theorem Sound.break
    (sound : Sound style scan)
    {c : Char}
    (allowed : style.Allows c)
    (isBreak : c = '/' ∨ style.splitAtDots = true ∧ c = '.')
    (inside : scan.kept ≠ []) :
    Sound style ⟨c :: scan.kept, 0⟩ := by
  obtain ⟨current, others, parts, -, short⟩ := sound.short
  refine ⟨?_, ?_, ⟨[], current :: others, ?_, Nat.le_refl 0, ?_⟩, ?_⟩
  · intro other member
    rcases List.mem_cons.1 member with rfl | old
    · exact allowed
    · exact sound.allowed other old
  · intro first isFirst
    obtain ⟨last, rest, kept⟩ := List.exists_cons_of_ne_nil inside
    dsimp only at isFirst
    rw [kept, List.getLast?_cons_cons] at isFirst
    exact sound.start first (kept ▸ isFirst)
  · rw [parts_break style isBreak, parts]
  · intro part member
    rcases List.mem_cons.1 member with rfl | old
    · exact Nat.zero_le _
    · exact short part old
  · exact fun counted => absurd counted (Nat.lt_irrefl 0)

/-- A step of the scanner keeps what is known. -/
theorem Sound.step
    (sound : Sound style scan)
    (c : Char) :
    Sound style (scan.step style c) := by
  rw [Scan.step]
  split
  · next isName =>
      exact sound.count (Or.inl isName) (ne_slash_of_isNameChar isName)
        (fun _ => ne_dot_of_isNameChar isName) (fun _ => ne_dot_of_isNameChar isName)
  · split
    · next dot =>
        obtain ⟨rfl, inside, -⟩ := dot
        by_cases splits : style.splitAtDots = true
        · simp only [splits, true_or, ↓reduceIte]
          exact sound.break (Or.inr (Or.inl rfl)) (Or.inr ⟨splits, rfl⟩) inside
        · simp only [splits, false_or, Bool.false_eq_true, ↓reduceIte]
          exact sound.count (c := '.') (Or.inr (Or.inl rfl)) (by decide)
            (fun isSplit => absurd isSplit splits) (fun empty => absurd empty inside)
    · split
      · next slash =>
          exact sound.break (Or.inr (Or.inr ⟨slash.1, rfl⟩)) (Or.inl rfl) (sound.going slash.2.2)
      · exact sound.count (c := '-') (Or.inl isNameChar_hyphen) (by decide)
          (fun _ => by decide) (fun _ => by decide)

theorem Sound.foldl_step
    (sound : Sound style scan)
    (text : List Char) :
    Sound style (text.foldl (Scan.step style) scan) := by
  induction text generalizing scan with
  | nil => exact sound
  | cons c rest ih => exact ih (sound.step c)

end Scan

/-- A text whose segments are of a size that directories may have. -/
structure Sound (style : Style) (name : List Char) : Prop where
  allowed : ∀ c ∈ name, style.Allows c
  start : ∀ c, name.head? = some c → c ≠ '.' ∧ c ≠ '/'
  short : ∀ part ∈ style.parts name, utf8Length part ≤ maxSegment

/-- What the scanner keeps of a text is sound. -/
theorem sound_scanned
    (style : Style)
    (text : List Char) :
    Sound style (scanned style text) := by
  have sound := (Scan.sound_start style).foldl_step text
  refine ⟨?_, ?_, ?_⟩
  · intro c member
    exact sound.allowed c (List.mem_reverse.1 member)
  · intro c first
    rw [scanned, List.head?_reverse] at first
    exact sound.start c first
  · intro part member
    obtain ⟨current, others, parts, -, short⟩ := sound.short
    rw [scanned, parts_reverse, List.mem_reverse, List.mem_map] at member
    obtain ⟨forward, isPart, rfl⟩ := member
    rw [utf8Length_reverse]
    exact short forward (parts ▸ isPart)

/-! ## Device names -/

/-- A device name is short, and has neither dots nor slashes. -/
theorem of_isDeviceName
    {name : List Char}
    (isDevice : isDeviceName name = true) :
    utf8Length name ≤ 4 ∧ '.' ∉ name ∧ '/' ∉ name := by
  obtain ⟨device, isName, folded⟩ := List.any_eq_true.1 isDevice
  have small : ∀ device ∈ deviceNames,
      utf8Length (foldCase device) ≤ 4 ∧ '.' ∉ foldCase device ∧ '/' ∉ foldCase device := by
    decide
  obtain ⟨length, noDot, noSlash⟩ := small device isName
  rw [eq_of_beq folded] at length noDot noSlash
  refine ⟨?_, fun dot => noDot (List.mem_map_of_mem dot),
    fun slash => noSlash (List.mem_map_of_mem slash)⟩
  rwa [utf8Length_map (eq_toLower Char.utf8Size (by decide))] at length

/-- A text without dots and slashes is one part. -/
theorem parts_of_not_mem
    (style : Style)
    {name : List Char}
    (noDot : '.' ∉ name)
    (noSlash : '/' ∉ name) :
    style.parts name = [name] := by
  have undivided : style.divided name = name := by
    rw [Style.divided]
    split
    · refine (List.map_congr_left fun c member => ?_).trans (List.map_id name)
      have notDot : c ≠ '.' := fun dot => noDot (dot ▸ member)
      rw [if_neg notDot, id]
    · rfl
  rw [Style.parts, undivided, pieces_of_not_mem noSlash]

/-- A name that is made usable stays sound, and has at least one character. -/
theorem Sound.usable
    {style : Style}
    {name : List Char}
    (sound : Sound style name) :
    Sound style (usable name) ∧ usable name ≠ [] := by
  have hyphen : Sound style ['-'] := by
    refine ⟨?_, ?_, ?_⟩
    · intro c member
      rw [List.mem_singleton.1 member]
      exact Or.inl isNameChar_hyphen
    · intro c first
      obtain rfl : '-' = c := by simpa using first
      decide
    · rw [parts_of_not_mem style (by decide) (by decide)]
      decide
  obtain ⟨filled, isFilled, sound, some_char⟩ :
      ∃ filled, (if name.isEmpty then ['-'] else name) = filled
        ∧ Sound style filled ∧ filled ≠ [] := by
    refine ⟨_, rfl, ?_⟩
    split
    · exact ⟨hyphen, List.cons_ne_nil _ _⟩
    · next someName => exact ⟨sound, by simpa using someName⟩
  rw [FileName.usable, isFilled]
  split
  · next isDevice =>
      obtain ⟨length, noDot, noSlash⟩ := of_isDeviceName isDevice
      refine ⟨⟨?_, ?_, ?_⟩, by simp⟩
      · intro c member
        rcases List.mem_append.1 member with old | new
        · exact sound.allowed c old
        · rw [List.mem_singleton.1 new]
          exact Or.inl (by decide)
      · intro c first
        obtain ⟨head, rest, rfl⟩ := List.exists_cons_of_ne_nil some_char
        exact sound.start c (by simpa using first)
      · rw [parts_of_not_mem style (by simpa using noDot) (by simpa using noSlash)]
        intro part member
        have underscore : utf8Length ['_'] = 1 := by decide
        rw [List.mem_singleton.1 member, utf8Length_append, underscore, maxSegment]
        omega
  · exact ⟨sound, some_char⟩

end FileName
end AssemblyAtlas
