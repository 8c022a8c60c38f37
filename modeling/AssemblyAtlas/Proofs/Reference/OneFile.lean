import AssemblyAtlas.Proofs.Disk.Walk
import AssemblyAtlas.Proofs.FileName.Below
import AssemblyAtlas.Reference.Image

/-!
# One file by several paths

Paths with the same components may be spelled in several ways. Where the system follows two of them
to something, it is the same thing, for a single dot leads nowhere else. So images that are read by
such paths have the same bytes.

* `Path.steps_filter` and `Path.components_filter` compare the steps of a path with its components;
* `Disk.eq_of_same` is about what two paths lead to, and `Reference.data_eq_of_same` about images.
-/

namespace AssemblyAtlas

open FileName
open Text

/-! ## Steps and components -/

namespace Path

/-- What a path says, apart from single dots. -/
def proper (path : String) : List Component :=
  (if isAbsolute path then [.root] else []) ++ (spoken path).map ofSegment

theorem ofSegment_ne_current (segment : String) :
    ofSegment segment ≠ .current := by
  rw [ofSegment]
  split
  · exact Component.noConfusion
  · exact Component.noConfusion

/-- A path from the root has an empty first segment. -/
theorem segments_of_isAbsolute
    {path : String}
    (absolute : isAbsolute path = true) :
    ∃ others, segments path = "" :: others := by
  obtain ⟨rest, split⟩ := List.head?_eq_some_iff.1 (of_decide_eq_true absolute)
  refine ⟨(pieces '/' rest).map String.ofList, ?_⟩
  rw [segments, split, pieces_separator]
  rfl

/-- Apart from single dots, the steps are what the path says. -/
theorem steps_filter (path : String) :
    (steps path).filter (· ≠ .current) = proper path := by
  have said (segments : List String) :
      ((segments.filter (· ≠ "")).map fun segment =>
          if segment = "." then Component.current else ofSegment segment).filter (· ≠ .current)
        = (segments.filter (!isIdle ·)).map ofSegment := by
    induction segments with
    | nil => rfl
    | cons segment rest ih =>
        by_cases empty : segment = ""
        · simpa [empty, isIdle] using ih
        · by_cases dot : segment = "."
          · simpa [dot, isIdle] using ih
          · simpa [empty, dot, isIdle, ofSegment_ne_current] using ih
  rw [steps, proper, List.filter_append, said]
  congr 1
  split <;> rfl

/-- So are the components. -/
theorem components_filter (path : String) :
    (components path).filter (· ≠ .current) = proper path := by
  obtain ⟨first, others, split⟩ := List.exists_cons_of_ne_nil (segments_ne_nil path)
  have rest : ((others.filter (!isIdle ·)).map ofSegment).filter (· ≠ .current)
      = (others.filter (!isIdle ·)).map ofSegment := by
    refine List.filter_eq_self.2 fun component isComponent => ?_
    obtain ⟨segment, -, rfl⟩ := List.mem_map.1 isComponent
    exact decide_eq_true (ofSegment_ne_current segment)
  have relative (someChar : first ≠ "") : isAbsolute path = false := by
    rw [Bool.eq_false_iff]
    intro absolute
    obtain ⟨behind, start⟩ := segments_of_isAbsolute absolute
    rw [split] at start
    exact someChar (List.cons_eq_cons.1 start).1
  rw [components, proper, spoken, split]
  dsimp only
  rw [List.filter_append, rest]
  by_cases empty : first = ""
  · subst empty
    cases others with
    | nil =>
        have nothing : path = "" := eq_of_segments split
        subst nothing
        rfl
    | cons head tail =>
        have absolute : isAbsolute path = true := by
          refine (of_empty_segment split).resolve_left ?_
          rintro rfl
          cases split
        simp [absolute, isIdle]
  · by_cases dot : first = "."
    · subst dot
      simp [relative empty, isIdle]
    · simp [relative empty, empty, dot, isIdle, ofSegment_ne_current]

/-- Paths with the same components say the same. -/
theorem Same.proper_eq
    {left right : String}
    (same : Same left right) :
    proper left = proper right := by
  rw [← components_filter, ← components_filter, same]

end Path

/-! ## What paths lead to -/

namespace Disk

variable {disk : Disk}

/-- Where steps lead, they lead without the single dots. -/
theorem foldlM_step_filter
    {steps : List Path.Component}
    {start target : Target}
    (walked : steps.foldlM (Target.step disk) start = .ok target) :
    (steps.filter (· ≠ .current)).foldlM (Target.step disk) start = .ok target := by
  induction steps generalizing start with
  | nil => exact walked
  | cons step rest ih =>
      rw [List.foldlM_cons, Success.bind_eq_ok_iff] at walked
      obtain ⟨next, stepped, later⟩ := walked
      by_cases dot : step = .current
      · subst dot
        rw [List.filter_cons_of_neg (by simp), ← eq_of_step_current stepped]
        exact ih later
      · rw [List.filter_cons_of_pos (by simpa using dot), List.foldlM_cons,
          Success.bind_eq_ok_iff]
        exact ⟨next, stepped, ih later⟩

/-- The entry that a path leads to is where its steps lead. -/
theorem walk_of_lookup
    {path : String}
    {found : Place × Entry}
    (looked : disk.lookup path = .ok found) :
    (Path.proper path).foldlM (Target.step disk) disk.start = .ok (.found found.1 found.2) := by
  rw [← Path.steps_filter]
  exact foldlM_step_filter (lookup_eq_ok_iff.1 looked).2.1

/-- Two paths with the same components lead to one entry, if both lead to an entry. -/
theorem eq_of_same
    {left right : String}
    (same : Path.Same left right)
    {found other : Place × Entry}
    (isLeft : disk.lookup left = .ok found)
    (isRight : disk.lookup right = .ok other) :
    found = other := by
  have walked := walk_of_lookup isLeft
  rw [same.proper_eq, walk_of_lookup isRight] at walked
  obtain ⟨place, entry⟩ := Target.found.inj (Except.ok.inj walked)
  exact (Prod.ext place entry).symm

end Disk

/-! ## Images -/

namespace Reference

/-- Images of one file have the same bytes. -/
theorem data_eq_of_same
    {disk : Disk}
    {left right : String}
    (same : Path.Same left right)
    {prefetch : Prefetch}
    {image other : Image}
    (isLeft : Image.ofFile disk left prefetch = .ok image)
    (isRight : Image.ofFile disk right prefetch = .ok other) :
    image.data = other.data := by
  have bytes {path : String} {opened : Image}
      (isOpen : Image.ofFile disk path prefetch = .ok opened) :
      ∃ place text readOnly, disk.lookup path = .ok (place, .file text readOnly)
        ∧ opened.data = text.toUTF8.toList := by
    rw [Image.ofFile] at isOpen
    split at isOpen
    · cases isOpen
    · next place text readOnly looked =>
        rw [Image.ofBytes] at isOpen
        split at isOpen
        · cases isOpen
        · cases isOpen
          exact ⟨place, text, readOnly, looked, rfl⟩
    · cases isOpen
  obtain ⟨place, text, readOnly, looked, data⟩ := bytes isLeft
  obtain ⟨otherPlace, otherText, otherReadOnly, otherLooked, otherData⟩ := bytes isRight
  cases Disk.eq_of_same same looked otherLooked
  rw [data, otherData]

end Reference

end AssemblyAtlas
