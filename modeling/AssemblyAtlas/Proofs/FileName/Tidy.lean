import AssemblyAtlas.Proofs.FileName.SafePath
import AssemblyAtlas.Proofs.Text.Trimmed
import Mathlib.Data.List.Chain
import Mathlib.Data.List.TakeWhile

/-!
# Names that stay as they are

A name that was made of some text is made of itself again. The scanner finds nothing to replace or
to drop in what it has kept, a name that was given an underscore is no device name any more, and a
name that was shortened for its extension is too long for a device name still.

* `Tidy` says what such names are like, `tidy_usable` that the scanner makes them, and
  `Tidy.scanned_eq` that it keeps them;
* `Tidy.takeBytes` is about shortened names;
* `cleaned_again` is about all names that are made twice.
-/

namespace AssemblyAtlas
namespace FileName

open Text

/-! ## Characters of names -/

/-- The code points of white space, one by one. -/
def blankCodes : List Nat :=
  blankRanges.flatMap fun range => List.range' range.1 (range.2 + 1 - range.1)

/-- White space is nothing that names keep. -/
theorem isBlank_of_isNameChar
    {c : Char}
    (isName : isNameChar c = true) :
    isBlank c = false := by
  have increasing : blankRanges.Increasing := by simp [blankRanges, CodeRanges.Increasing]
  have none : ∀ code ∈ blankCodes, isNameChar (Char.ofNat code) = false := by decide +kernel
  by_contra blank
  obtain ⟨range, isRange, low, high⟩ :=
    (CodeRanges.contains_iff increasing c.toNat).1 (Bool.not_eq_false _ ▸ blank)
  have isCode : c.toNat ∈ blankCodes :=
    List.mem_flatMap.2 ⟨range, isRange, List.mem_range'_1.2 (by omega)⟩
  have notName := none _ isCode
  rw [Char.ofNat_toNat, isName] at notName
  cases notName

/-- A character that names keep lies in the basic plane, so it takes three bytes at most. -/
theorem utf8Size_of_isNameChar
    {c : Char}
    (isName : isNameChar c = true) :
    c.utf8Size ≤ 3 := by
  have basic : c.val ≤ 0xffff := UInt32.le_iff_toNat_le.2 (plain_of_isNameChar isName).1
  rw [Char.utf8Size]
  split
  · decide
  · split
    · decide
    · exact le_of_eq (if_pos basic)

/-! ## Dots -/

/-- Not both characters are dots. -/
def NotDots (left right : Char) : Prop :=
  left = '.' → right ≠ '.'

/-- The scanner keeps no two dots in a row. -/
theorem Scan.isChain_step
    {style : Style}
    {scan : Scan}
    (apart : scan.kept.IsChain NotDots)
    (c : Char) :
    (scan.step style c).kept.IsChain NotDots := by
  have keep {d : Char} (other : d ≠ '.') : (d :: scan.kept).IsChain NotDots :=
    List.isChain_cons.2 ⟨fun _ _ dot => absurd dot other, apart⟩
  rw [Scan.step]
  split
  · next isName =>
      dsimp only
      split
      · exact keep (ne_dot_of_isNameChar isName)
      · exact apart
  · split
    · next dot =>
        dsimp only
        split
        · exact List.isChain_cons.2 ⟨fun last isLast _ isDot => dot.2.2 (isDot ▸ isLast), apart⟩
        · exact apart
    · split
      · exact keep (by decide)
      · dsimp only
        split
        · exact keep (by decide)
        · exact apart

theorem isChain_scanned
    (style : Style)
    (text : List Char) :
    (scanned style text).IsChain NotDots := by
  have kept (scan : Scan) (apart : scan.kept.IsChain NotDots) :
      (text.foldl (Scan.step style) scan).kept.IsChain NotDots := by
    induction text generalizing scan with
    | nil => exact apart
    | cons c rest ih => exact ih _ (Scan.isChain_step apart c)
  rw [scanned, List.isChain_reverse]
  refine (kept ⟨[], 0⟩ List.IsChain.nil).imp fun left right apart dot isDot => apart isDot dot

/-! ## Tidy names -/

/-- A name of one segment in which there is nothing to replace or to drop. -/
structure Tidy (name : List Char) : Prop where
  allowed : ∀ c ∈ name, isNameChar c = true ∨ c = '.'
  start : name.head? ≠ some '.'
  apart : name.IsChain NotDots
  short : utf8Length name ≤ maxSegment
  someChar : name ≠ []
  noDevice : isDeviceName name = false

/-- A character that is in no device name makes a name one that is none. -/
theorem isDeviceName_eq_false_of_mem
    {c : Char}
    (strange : ∀ device ∈ deviceNames, c.toLower ∉ foldCase device)
    {name : List Char}
    (member : c ∈ name) :
    isDeviceName name = false := by
  by_contra isDevice
  obtain ⟨device, isName, folded⟩ := List.any_eq_true.1 (Bool.not_eq_false _ ▸ isDevice)
  refine strange device isName ?_
  rw [eq_of_beq folded]
  exact List.mem_map_of_mem member

/-- A name stays as it is if it has a character and is no device name. -/
theorem usable_cases (name : List Char) :
    name = [] ∧ usable name = ['-']
      ∨ isDeviceName name = true ∧ usable name = name ++ ['_']
      ∨ name ≠ [] ∧ isDeviceName name = false ∧ usable name = name := by
  by_cases empty : name = []
  · subst empty
    exact Or.inl ⟨rfl, by decide⟩
  · have someChar : name.isEmpty = false := by simpa using empty
    rw [usable]
    simp only [someChar, Bool.false_eq_true, ↓reduceIte]
    cases device : isDeviceName name with
    | true => exact Or.inr (Or.inl ⟨rfl, if_pos rfl⟩)
    | false => exact Or.inr (Or.inr ⟨empty, rfl, if_neg Bool.false_ne_true⟩)

/-- The names that are made usable are no device names. -/
theorem isDeviceName_usable (name : List Char) :
    isDeviceName (usable name) = false := by
  rcases usable_cases name with ⟨-, made⟩ | ⟨-, made⟩ | ⟨-, noDevice, made⟩
  · rw [made]
    decide
  · rw [made]
    exact isDeviceName_eq_false_of_mem (c := '_') (by decide) (by simp)
  · rw [made]
    exact noDevice

/-- A name that is made usable gets no dots. -/
theorem isChain_usable
    {name : List Char}
    (apart : name.IsChain NotDots) :
    (usable name).IsChain NotDots := by
  rcases usable_cases name with ⟨-, made⟩ | ⟨-, made⟩ | ⟨-, -, made⟩
  · rw [made]
    exact List.isChain_singleton _
  · rw [made]
    refine List.isChain_append.2 ⟨apart, List.isChain_singleton _, ?_⟩
    intro last _ underscore isUnderscore _ dot
    obtain rfl : '_' = underscore := by simpa using isUnderscore
    cases dot
  · rw [made]
    exact apart

/-- What the scanner keeps is tidy once it is usable. -/
theorem tidy_usable
    {style : Style}
    (whole : style.splitAtDots = false)
    (single : style.splitAtSlashes = false)
    (text : List Char) :
    Tidy (usable (scanned style text)) := by
  obtain ⟨sound, someChar⟩ := (sound_scanned style text).usable
  have allowed (c : Char) (member : c ∈ usable (scanned style text)) :
      isNameChar c = true ∨ c = '.' := by
    rcases sound.allowed c member with isName | dot | slash
    · exact Or.inl isName
    · exact Or.inr dot
    · rw [single] at slash
      cases slash.1
  have noSlash : '/' ∉ usable (scanned style text) := by
    intro slash
    rcases allowed '/' slash with isName | dot
    · exact ne_slash_of_isNameChar isName rfl
    · cases dot
  refine ⟨allowed, fun dot => (sound.start '.' dot).1 rfl, isChain_usable (isChain_scanned style text),
    ?_, someChar, isDeviceName_usable _⟩
  exact sound.short _ (by rw [parts_of_whole whole noSlash]; exact List.mem_singleton_self _)

namespace Tidy

variable {name : List Char}

/-- Nothing that ends the relevant part of a text is in a tidy name. -/
theorem relevantPart_eq
    (tidy : Tidy name) :
    relevantPart name = name := by
  have absent (c : Char) (strange : isNameChar c = false ∧ c ≠ '.') : c ∉ name := by
    intro member
    rcases tidy.allowed c member with isName | dot
    · rw [strange.1] at isName
      cases isName
    · exact strange.2 dot
  have uncut {stop : Char} (strange : isNameChar stop = false ∧ stop ≠ '.') :
      before stop name = name := by
    have notStop := absent stop strange
    cases name with
    | nil => rfl
    | cons c rest =>
        rw [before]
        split
        · rfl
        · rw [List.takeWhile_eq_self_iff.2]
          intro d isIn
          exact bne_iff_ne.2 fun same => notStop (List.mem_cons_of_mem _ (same ▸ isIn))
  have bare : trim name = name := by
    refine trim_of_forall fun c member => ?_
    rcases tidy.allowed c member with isName | rfl
    · exact isBlank_of_isNameChar isName
    · decide
  rw [relevantPart, uncut (by decide), bare, uncut (by decide), bare]

/-- The scanner keeps a tidy name. -/
theorem scanned_eq
    (tidy : Tidy name)
    {style : Style}
    (whole : style.splitAtDots = false) :
    scanned style name = name := by
  -- Of each beginning of the name everything is kept, and its bytes are what was counted.
  have kept (front : List Char) (isFront : front <+: name) :
      front.foldl (Scan.step style) ⟨[], 0⟩ = ⟨front.reverse, utf8Length front⟩ := by
    induction front using List.reverseRecOn with
    | nil => rfl
    | append_singleton front c ih =>
        obtain ⟨rest, split⟩ := isFront
        have short := tidy.short
        rw [← split, utf8Length_append, utf8Length_append, utf8Length_cons, utf8Length_nil] at short
        rw [List.foldl_append, ih ((List.prefix_append _ _).trans ⟨rest, split⟩), List.foldl_cons,
          List.foldl_nil, List.reverse_concat, utf8Length_append, utf8Length_cons, utf8Length_nil,
          Nat.add_zero, Scan.step]
        rcases tidy.allowed c (by simp [← split]) with isName | rfl
        · rw [if_pos isName]
          dsimp only
          rw [if_pos (by omega)]
        · have size : Char.utf8Size '.' = 1 := by decide
          have inside : front ≠ [] := by
            rintro rfl
            exact tidy.start (by rw [← split]; rfl)
          have last : front.getLast? ≠ some '.' := by
            intro dot
            have apart := tidy.apart
            rw [← split, List.append_assoc, List.singleton_append] at apart
            exact (List.isChain_append.1 apart).2.2 '.' dot '.' rfl rfl rfl
          rw [size] at short
          rw [isNameChar_dot, if_neg Bool.false_ne_true,
            if_pos ⟨rfl, by simpa using inside, by simpa using last⟩, whole, size]
          simp only [Bool.false_eq_true, false_or, ↓reduceIte]
          rw [if_pos (by omega)]
  rw [scanned, kept name List.prefix_rfl, List.reverse_reverse]

/-- It is usable as it is. -/
theorem usable_eq
    (tidy : Tidy name) :
    usable name = name := by
  have someChar : name.isEmpty = false := by simpa using tidy.someChar
  rw [usable]
  simp only [someChar, tidy.noDevice, Bool.false_eq_true, ↓reduceIte]

end Tidy

/-! ## Shortened names -/

/-- A beginning for which there is room is taken as a whole. -/
theorem takeBytes_append
    {budget : Nat}
    {text : List Char}
    (fits : utf8Length text ≤ budget)
    (more : List Char) :
    takeBytes budget (text ++ more) = text ++ takeBytes (budget - utf8Length text) more := by
  induction text generalizing budget with
  | nil => rfl
  | cons c rest ih =>
      rw [utf8Length_cons] at fits
      rw [List.cons_append, takeBytes, if_pos (by omega), ih (by omega), utf8Length_cons,
        List.cons_append, Nat.sub_sub, Nat.add_comm c.utf8Size]

theorem takeBytes_eq_self
    {budget : Nat}
    {text : List Char}
    (fits : utf8Length text ≤ budget) :
    takeBytes budget text = text := by
  have whole := takeBytes_append fits []
  rwa [List.append_nil, takeBytes, List.append_nil] at whole

/-- What is dropped from a text would not have fitted, so no more than two bytes are left over. -/
theorem lt_utf8Length_takeBytes
    {budget : Nat}
    {text : List Char}
    (exceeds : budget < utf8Length text)
    (small : ∀ c ∈ text, c.utf8Size ≤ 3) :
    budget < utf8Length (takeBytes budget text) + 3 := by
  induction text generalizing budget with
  | nil => exact absurd exceeds (Nat.not_lt_zero _)
  | cons c rest ih =>
      have size := small c List.mem_cons_self
      rw [utf8Length_cons] at exceeds
      rw [takeBytes]
      split
      · have beyond : budget - c.utf8Size < utf8Length rest := by omega
        have later := ih beyond fun d isIn => small d (List.mem_cons_of_mem c isIn)
        rw [utf8Length_cons]
        omega
      · rw [utf8Length_nil]
        omega

/-- A tidy name stays tidy when it is shortened: what is left takes more bytes than any device
name. -/
theorem Tidy.takeBytes
    {name : List Char}
    (tidy : Tidy name)
    {budget : Nat}
    (room : 7 ≤ budget) :
    Tidy (takeBytes budget name) := by
  by_cases fits : utf8Length name ≤ budget
  · rw [takeBytes_eq_self fits]
    exact tidy
  · have small : ∀ c ∈ name, c.utf8Size ≤ 3 := by
      intro c member
      rcases tidy.allowed c member with isName | rfl
      · exact utf8Size_of_isNameChar isName
      · decide
    have long := lt_utf8Length_takeBytes (Nat.lt_of_not_le fits) small
    obtain ⟨rest, split⟩ := takeBytes_prefix budget name
    have someChar : FileName.takeBytes budget name ≠ [] := by
      intro empty
      rw [empty, utf8Length_nil] at long
      omega
    refine ⟨fun c member => tidy.allowed c ?_, fun dot => tidy.start ?_, ?_, ?_, someChar, ?_⟩
    · rw [← split]
      exact List.mem_append_left _ member
    · rw [← split, List.head?_append, dot, Option.some_or]
    · have apart := tidy.apart
      rw [← split] at apart
      exact (List.isChain_append.1 apart).1
    · have short := tidy.short
      rw [← split, utf8Length_append] at short
      omega
    · by_contra isDevice
      have device := (of_isDeviceName (Bool.not_eq_false _ ▸ isDevice)).1
      omega

/-! ## Names made twice -/

/-- An extension is put behind the beginning that leaves room for it. -/
theorem attach_eq_append
    {extension : List Char}
    (isExtension : IsExtension extension)
    {name : List Char}
    (someChar : takeBytes (maxSegment - utf8Length extension) name ≠ []) :
    attach name extension
      = takeBytes (maxSegment - utf8Length extension) name ++ extension := by
  obtain ⟨tail, dotted, -⟩ := isExtension.dotted
  have someExtension : extension.isEmpty = false := by rw [dotted]; rfl
  have someName := List.isEmpty_eq_false_iff.2 someChar
  rw [attach]
  simp only [someExtension, someName, Bool.false_eq_true, ↓reduceIte]

/-- A tidy name with room for an extension is made of itself. -/
theorem Tidy.clean_append
    {name : List Char}
    (tidy : Tidy name)
    {extension : List Char}
    (isExtension : IsExtension extension)
    (fits : utf8Length name ≤ maxSegment - utf8Length extension)
    {style : Style}
    (hasExtension : style.hasExtension = true)
    (whole : style.splitAtDots = false) :
    clean style (name ++ extension) = name ++ extension := by
  have whole_name := takeBytes_eq_self fits
  rw [clean_append_extension hasExtension isExtension, tidy.relevantPart_eq, tidy.scanned_eq whole,
    tidy.usable_eq, attach_eq_append isExtension (by rw [whole_name]; exact tidy.someChar),
    whole_name]

/-- The name of a directory is made of itself. A file name ends in its extension and takes no more
than 255 bytes; it is made of itself, and also of what stands before its extension. -/
theorem cleaned_again :
    (∀ text : String, directory (directory text) = directory text)
      ∧ ∀ text extension : String, IsExtension extension.toList →
          extension.utf8ByteSize ≤ 248 →
          ∃ stem, withExtension text extension = stem ++ extension
            ∧ (withExtension text extension).utf8ByteSize ≤ 255
            ∧ sanitize (withExtension text extension) = withExtension text extension
            ∧ withExtension stem extension = withExtension text extension := by
  refine ⟨fun text => ?_, fun text extension isExtension small => ?_⟩
  · have tidy : Tidy (usable (scanned ⟨false, false, false⟩ (relevantPart text.toList))) :=
      tidy_usable rfl rfl _
    rw [← (clean_eq ⟨false, false, false⟩ rfl text.toList).1] at tidy
    rw [directory, directory, String.toList_ofList,
      (clean_eq ⟨false, false, false⟩ rfl (clean _ text.toList)).1, tidy.relevantPart_eq,
      tidy.scanned_eq rfl, tidy.usable_eq]
  · have size := utf8ByteSize_ofList extension.toList
    rw [String.ofList_toList] at size
    have room : 7 ≤ maxSegment - utf8Length extension.toList := by
      rw [maxSegment]
      omega
    have made : Tidy (usable (scanned ⟨false, true, false⟩ (relevantPart text.toList))) :=
      tidy_usable rfl rfl _
    have tidy := made.takeBytes room
    have fits := utf8Length_takeBytes_le (maxSegment - utf8Length extension.toList)
      (usable (scanned ⟨false, true, false⟩ (relevantPart text.toList)))
    have chars := toList_withExtension isExtension text
    rw [attach_eq_append isExtension tidy.someChar] at chars
    generalize takeBytes _ _ = stem at tidy fits chars
    have name : withExtension text extension = String.ofList stem ++ extension := by
      rw [← String.toList_inj, chars, String.toList_append, String.toList_ofList]
    refine ⟨String.ofList stem, name, ?_, ?_, ?_⟩
    · rw [name, String.utf8ByteSize_append, utf8ByteSize_ofList]
      rw [maxSegment] at fits room
      omega
    · rw [sanitize, chars, tidy.clean_append isExtension fits rfl rfl, ← chars,
        String.ofList_toList]
    · rw [← String.toList_inj, toList_withExtension isExtension, String.toList_ofList,
        ← clean_append_extension rfl isExtension, tidy.clean_append isExtension fits rfl rfl, chars]

/-- A dot and a number of letters. -/
def letterExtension (count : Nat) : String :=
  String.ofList ('.' :: List.replicate count 'a')

theorem utf8ByteSize_letterExtension (count : Nat) :
    (letterExtension count).utf8ByteSize = count + 1 := by
  have single : ∀ c ∈ '.' :: List.replicate count 'a', c.utf8Size = 1 := by
    intro c member
    rcases List.mem_cons.1 member with rfl | isIn
    · decide
    · rw [List.eq_of_mem_replicate isIn]
      decide
  rw [letterExtension, utf8ByteSize_ofList, utf8Length_eq_length single, List.length_cons,
    List.length_replicate]

theorem isExtension_letterExtension
    {count : Nat}
    (some_letter : 0 < count)
    (short : count + 1 < maxSegment) :
    IsExtension (letterExtension count).toList where
  dotted := by
    refine ⟨List.replicate count 'a', String.toList_ofList, ?_, fun c member => ?_⟩
    · rw [ne_eq, List.replicate_eq_nil_iff]
      omega
    · rw [List.eq_of_mem_replicate member]
      decide
  short := by
    rw [← utf8ByteSize_ofList, String.ofList_toList, utf8ByteSize_letterExtension]
    exact short

/-- One of the longest extensions leaves seven bytes for a device name and its underscore. -/
theorem cleaned_again_letterExtension :
    ∃ stem, withExtension "con" (letterExtension 247) = stem ++ letterExtension 247
      ∧ (withExtension "con" (letterExtension 247)).utf8ByteSize ≤ 255
      ∧ sanitize (withExtension "con" (letterExtension 247))
        = withExtension "con" (letterExtension 247)
      ∧ withExtension stem (letterExtension 247) = withExtension "con" (letterExtension 247) :=
  cleaned_again.2 "con" (letterExtension 247)
    (isExtension_letterExtension (by decide) (by decide))
    (Nat.le_of_eq (utf8ByteSize_letterExtension 247))

end FileName
end AssemblyAtlas
