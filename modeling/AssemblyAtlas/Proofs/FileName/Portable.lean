import AssemblyAtlas.Proofs.FileName.Tidy

/-!
# Names that every system takes

Some systems refuse a name if what stands before its first dot is a device name. A cleaned name is
compared with the device names as a whole, before it gets its extension and before its dots become
slashes. So a device name is left in it where a dot or a slash stands behind.

* `Portable` says that a segment is not empty and not refused, and `HidesDevice` that a device name
  was left in front of a dot;
* `portable_withExtension_iff`, `portable_directory_iff` and `portable_path_iff` say exactly which
  cleaned names are portable.
-/

namespace AssemblyAtlas
namespace FileName

open Text

/-- What stands before the first dot of a name. -/
def stem (name : List Char) : List Char :=
  name.takeWhile (· != '.')

/-- A segment that no system refuses. -/
def Portable (segment : String) : Prop :=
  segment ≠ "" ∧ isDeviceName (stem segment.toList) = false

instance (segment : String) : Decidable (Portable segment) :=
  inferInstanceAs (Decidable (_ ∧ _))

/-- The text starts with a device name and a dot. -/
def HidesDevice (name : List Char) : Prop :=
  '.' ∈ name ∧ isDeviceName (stem name) = true

instance (name : List Char) : Decidable (HidesDevice name) :=
  inferInstanceAs (Decidable (_ ∧ _))

/-- The text has just one part, or each part of it has a character and is no device name. -/
def PartsPortable (name : List Char) : Prop :=
  ('.' ∉ name ∧ '/' ∉ name)
    ∨ ∀ part ∈ Style.parts ⟨true, false, true⟩ name, part ≠ [] ∧ isDeviceName part = false

/-- What the scanner keeps of a text. -/
def kept (style : Style) (text : String) : List Char :=
  scanned style (relevantPart text.toList)

/-! ## Stems -/

section Stems

variable {name : List Char}

/-- A name without dots is its own stem. -/
theorem stem_eq_self
    (noDot : '.' ∉ name) :
    stem name = name :=
  List.takeWhile_eq_self_iff.2 fun _ member => bne_iff_ne.2 fun dot => noDot (dot ▸ member)

/-- The stem ends where the first dot stands. -/
theorem stem_append_dot
    {front : List Char}
    (noDot : '.' ∉ front)
    (rest : List Char) :
    stem (front ++ '.' :: rest) = front := by
  have all : ∀ c ∈ front, (c != '.') = true :=
    fun c member => bne_iff_ne.2 fun dot => noDot (dot ▸ member)
  rw [stem, List.takeWhile_append_of_pos all]
  simp

/-- A name with a dot is its stem, a dot, and something behind. -/
theorem exists_stem_append
    (dotted : '.' ∈ name) :
    ∃ rest, name = stem name ++ '.' :: rest := by
  obtain ⟨front, rest, rfl, noDot⟩ := List.eq_append_cons_of_mem dotted
  exact ⟨rest, by rw [stem_append_dot noDot]⟩

/-- What is put behind a dot does not change the stem. -/
theorem stem_append_of_dot
    (dotted : '.' ∈ name)
    (more : List Char) :
    stem (name ++ more) = stem name := by
  obtain ⟨front, rest, rfl, noDot⟩ := List.eq_append_cons_of_mem dotted
  rw [List.append_assoc, List.cons_append, stem_append_dot noDot, stem_append_dot noDot]

/-- An extension does not change the stem. -/
theorem stem_append_extension
    {extension : List Char}
    (isExtension : IsExtension extension) :
    stem (name ++ extension) = stem name := by
  obtain ⟨tail, rfl, -⟩ := isExtension.dotted
  by_cases dotted : '.' ∈ name
  · exact stem_append_of_dot dotted _
  · rw [stem_append_dot dotted, stem_eq_self dotted]

/-- The stem of a name that is no device name can only be one where a dot stands behind. -/
theorem isDeviceName_stem_iff
    (noDevice : isDeviceName name = false) :
    isDeviceName (stem name) = true ↔ HidesDevice name := by
  refine ⟨fun device => ⟨?_, device⟩, fun hides => hides.2⟩
  by_contra noDot
  rw [stem_eq_self noDot, noDevice] at device
  cases device

/-- A usable name has nothing new but a hyphen or an underscore. -/
theorem mem_of_mem_usable
    {c : Char}
    (member : c ∈ usable name) :
    c ∈ name ∨ c = '-' ∨ c = '_' := by
  rcases usable_cases name with ⟨-, made⟩ | ⟨-, made⟩ | ⟨-, -, made⟩
  · rw [made] at member
    exact Or.inr (Or.inl (List.mem_singleton.1 member))
  · rw [made] at member
    exact (List.mem_append.1 member).imp_right fun new => Or.inr (List.mem_singleton.1 new)
  · exact Or.inl (made ▸ member)

/-- Where a device name stands before a dot, nothing is made usable. -/
theorem hidesDevice_usable_iff (name : List Char) :
    HidesDevice (usable name) ↔ HidesDevice name := by
  rcases usable_cases name with ⟨rfl, made⟩ | ⟨device, made⟩ | ⟨-, -, made⟩
  · rw [made]
    exact iff_of_false (fun hides => absurd hides.1 (by decide)) fun hides => by cases hides.1
  · have noDot := (of_isDeviceName device).2.1
    rw [made]
    exact iff_of_false (fun hides => noDot (by simpa using hides.1)) fun hides => noDot hides.1
  · rw [made]

/-- A name keeps the device name before its first dot when it is shortened. -/
theorem hidesDevice_takeBytes_iff
    {budget : Nat}
    (room : 5 ≤ budget) :
    HidesDevice (takeBytes budget name) ↔ HidesDevice name := by
  obtain ⟨cut, split⟩ := takeBytes_prefix budget name
  constructor
  · intro hides
    rw [← split]
    refine ⟨List.mem_append_left _ hides.1, ?_⟩
    rw [stem_append_of_dot hides.1]
    exact hides.2
  · rintro ⟨dotted, device⟩
    obtain ⟨rest, parts⟩ := exists_stem_append dotted
    obtain ⟨short, noDot, -⟩ := of_isDeviceName device
    generalize stem name = front at parts device short noDot
    have size : utf8Length ['.'] = 1 := by decide
    have fits : utf8Length (front ++ ['.']) ≤ budget := by
      rw [utf8Length_append, size]
      omega
    rw [parts, List.append_cons, takeBytes_append fits, ← List.append_cons]
    exact ⟨by simp, by rw [stem_append_dot noDot]; exact device⟩

end Stems

/-! ## Cleaned names -/

theorem portable_ofList_iff (name : List Char) :
    Portable (String.ofList name) ↔ name ≠ [] ∧ isDeviceName (stem name) = false := by
  rw [Portable, String.toList_ofList, ne_eq, ← String.toList_inj, String.toList_ofList,
    String.toList_empty]

/-- A file name is portable unless its text has a device name before a dot. -/
theorem portable_withExtension_iff
    (text : String)
    {extension : String}
    (isExtension : IsExtension extension.toList)
    (small : extension.utf8ByteSize ≤ 248) :
    Portable (withExtension text extension) ↔ ¬HidesDevice (kept ⟨false, true, false⟩ text) := by
  have size := utf8ByteSize_ofList extension.toList
  rw [String.ofList_toList] at size
  have room : 7 ≤ maxSegment - utf8Length extension.toList := by
    rw [maxSegment]
    omega
  have tidy : Tidy (takeBytes (maxSegment - utf8Length extension.toList)
      (usable (kept ⟨false, true, false⟩ text))) :=
    (tidy_usable rfl rfl _).takeBytes room
  have chars : (withExtension text extension).toList
      = attach (usable (kept ⟨false, true, false⟩ text)) extension.toList :=
    toList_withExtension isExtension text
  rw [attach_eq_append isExtension tidy.someChar] at chars
  have name := congrArg String.ofList chars
  rw [String.ofList_toList] at name
  have someChar := List.append_ne_nil_of_left_ne_nil tidy.someChar extension.toList
  rw [name, portable_ofList_iff, and_iff_right someChar, stem_append_extension isExtension,
    ← Bool.not_eq_true, isDeviceName_stem_iff tidy.noDevice, hidesDevice_takeBytes_iff (by omega),
    hidesDevice_usable_iff]

/-- So is the name of a directory. -/
theorem portable_directory_iff (text : String) :
    Portable (directory text) ↔ ¬HidesDevice (kept ⟨false, false, false⟩ text) := by
  obtain ⟨made, -, someChar⟩ := clean_eq ⟨false, false, false⟩ rfl text.toList
  rw [directory, portable_ofList_iff, and_iff_right someChar, made, ← Bool.not_eq_true,
    isDeviceName_stem_iff (isDeviceName_usable _), hidesDevice_usable_iff]
  rfl

/-- The dots of a path are slashes, so its parts have none. -/
theorem dot_not_mem_part
    {style : Style}
    (splits : style.splitAtDots = true)
    {name part : List Char}
    (isPart : part ∈ style.parts name) :
    '.' ∉ part := by
  intro dot
  have inside := (of_mem_pieces isPart dot).1
  rw [Style.divided, if_pos splits] at inside
  obtain ⟨old, -, changed⟩ := List.mem_map.1 inside
  split at changed
  · cases changed
  · next notDot => exact notDot changed

/-- The segments of a path are portable if the parts of its text are. -/
theorem portable_path_iff (text : String) :
    (∀ segment ∈ Path.segments (path text), Portable segment)
      ↔ PartsPortable (kept ⟨true, false, true⟩ text) := by
  obtain ⟨made, -, someChar⟩ := clean_eq ⟨true, false, true⟩ rfl text.toList
  rw [made] at someChar
  have segments : Path.segments (path text)
      = (Style.parts ⟨true, false, true⟩ (usable (kept ⟨true, false, true⟩ text))).map
          String.ofList := by
    rw [Path.segments, path, String.toList_ofList, made]
    rfl
  have parts : (∀ segment ∈ Path.segments (path text), Portable segment)
      ↔ ∀ part ∈ Style.parts ⟨true, false, true⟩ (usable (kept ⟨true, false, true⟩ text)),
          part ≠ [] ∧ isDeviceName part = false := by
    rw [segments, List.forall_mem_map]
    refine forall₂_congr fun part isPart => ?_
    rw [portable_ofList_iff, stem_eq_self (dot_not_mem_part rfl isPart)]
  rw [parts, PartsPortable]
  change usable (kept ⟨true, false, true⟩ text) ≠ [] at someChar
  generalize kept ⟨true, false, true⟩ text = name at someChar
  -- A text with just one part is made usable, and any other one is used as it is.
  by_cases single : '.' ∉ name ∧ '/' ∉ name
  · refine iff_of_true ?_ (Or.inl single)
    have alone : Style.parts ⟨true, false, true⟩ (usable name) = [usable name] := by
      refine parts_of_not_mem _ (fun dot => ?_) fun slash => ?_
      · exact (mem_of_mem_usable dot).elim single.1 (by decide)
      · exact (mem_of_mem_usable slash).elim single.2 (by decide)
    rw [alone, List.forall_mem_singleton]
    exact ⟨someChar, isDeviceName_usable name⟩
  · rw [or_iff_right single]
    rcases usable_cases name with ⟨rfl, -⟩ | ⟨device, -⟩ | ⟨-, -, same⟩
    · exact absurd ⟨List.not_mem_nil, List.not_mem_nil⟩ single
    · exact absurd (of_isDeviceName device).2 single
    · rw [same]

end FileName
end AssemblyAtlas
