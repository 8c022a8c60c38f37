import AssemblyAtlas.Proofs.FileName.SafePath

/-!
# Paths below directories

A path is below a directory if its components are those of the directory, followed by names. A path
that leads down is below whatever it is joined to, and nothing is below two directories with
different names in one place.

* `Below` is this relation, and `SafePath.below_join` finds paths below a directory;
* `SafeSegment.eq_of_below` is about two directories in one place.
-/

namespace AssemblyAtlas
namespace FileName

open Text

/-- The path leads from the directory to something inside it, through names only. -/
def Below (path directory : String) : Prop :=
  ∃ names : List String, names ≠ []
    ∧ Path.components path = Path.components directory ++ names.map Path.Component.name

/-! ## Components of joined paths -/

/-- The segments of a path that say something. -/
def spoken (path : String) : List String :=
  (Path.segments path).filter (!Path.isIdle ·)

theorem segments_ne_nil (path : String) :
    Path.segments path ≠ [] := by
  rw [Path.segments, ne_eq, List.map_eq_nil_iff]
  exact pieces_ne_nil '/' path.toList

/-- A path with one segment is this segment. -/
theorem eq_of_segments
    {path segment : String}
    (single : Path.segments path = [segment]) :
    path = segment := by
  obtain ⟨part, parts, cut⟩ := List.exists_cons_of_ne_nil (pieces_ne_nil '/' path.toList)
  rw [Path.segments, cut, List.map_cons] at single
  obtain ⟨isFirst, isRest⟩ := List.cons_eq_cons.1 single
  have text := join_pieces '/' path.toList
  rw [cut, List.map_eq_nil_iff.1 isRest] at text
  have same : part = path.toList := text
  rw [← isFirst, same, String.ofList_toList]

/-- A path with an empty first segment is empty or starts at the root. -/
theorem of_empty_segment
    {path : String}
    {others : List String}
    (split : Path.segments path = "" :: others) :
    path = "" ∨ Path.isAbsolute path = true := by
  cases text : path.toList with
  | nil => exact Or.inl (String.toList_inj.1 text)
  | cons c rest =>
      right
      by_cases slash : c = '/'
      · rw [Path.isAbsolute, text, slash]
        rfl
      · obtain ⟨part, parts, cut⟩ := List.exists_cons_of_ne_nil (pieces_ne_nil '/' rest)
        rw [Path.segments, text, pieces_other slash cut, List.map_cons] at split
        have chars := congrArg String.toList (List.cons_eq_cons.1 split).1
        rw [String.toList_ofList] at chars
        exact absurd chars (by simp)

/-- A safe segment that is not empty says something. -/
theorem SafeSegment.isIdle_eq_false
    {segment : String}
    (safe : SafeSegment segment)
    (someChar : segment ≠ "") :
    Path.isIdle segment = false := by
  rw [Path.isIdle, Bool.or_eq_false_iff, beq_eq_false_iff_ne, beq_eq_false_iff_ne]
  exact ⟨someChar, safe.notCurrent⟩

/-- What stands behind a slash adds the components of its segments. -/
theorem components_append
    (front rest : String) :
    Path.components (front ++ "/" ++ rest)
      = (if front = "" then [.root] else Path.components front)
          ++ (spoken rest).map Path.ofSegment := by
  obtain ⟨first, others, split⟩ := List.exists_cons_of_ne_nil (segments_ne_nil front)
  have behind : (others ++ Path.segments rest).isEmpty = false := by
    obtain ⟨head, tail, some_segment⟩ := List.exists_cons_of_ne_nil (segments_ne_nil rest)
    simp [some_segment]
  have whole : Path.components (front ++ "/" ++ rest)
      = ((if first = "" then [.root]
            else if first = "." then [.current] else [Path.ofSegment first])
          ++ (others.filter (!Path.isIdle ·)).map Path.ofSegment)
        ++ (spoken rest).map Path.ofSegment := by
    rw [Path.components, segments_append, split, List.cons_append]
    simp only [behind, Bool.false_eq_true, ↓reduceIte, List.filter_append, List.map_append,
      List.append_assoc]
    rfl
  rw [whole]
  congr 1
  by_cases empty : front = ""
  · subst empty
    obtain ⟨rfl, rfl⟩ : "" = first ∧ [] = others := List.cons_eq_cons.1 split
    rfl
  · rw [if_neg empty, Path.components, split]
    by_cases start : first = ""
    · -- An empty first segment is not the only one, as the text is not empty.
      have notLast : others.isEmpty = false := by
        cases others with
        | nil => exact absurd ((eq_of_segments split).trans start) empty
        | cons head tail => rfl
      simp only [start, notLast, ↓reduceIte, Bool.false_eq_true]
    · simp only [start, ↓reduceIte]

section Safe

variable {path : String}

/-- The segments of a path that leads down are names, and there is one. -/
theorem SafePath.spoken_eq
    (safe : SafePath path) :
    spoken path ≠ []
      ∧ (spoken path).map Path.ofSegment = (spoken path).map Path.Component.name := by
  constructor
  · obtain ⟨front, last, split⟩ := List.eq_nil_or_concat' (Path.segments path)
      |>.resolve_left (segments_ne_nil path)
    have isLast : last ∈ Path.segments path := by simp [split]
    have named : last ≠ "" := by
      have isNamed := safe.named
      rwa [Path.lastSegment, split, List.getLastD_concat] at isNamed
    have notIdle := (safe.segments last isLast).isIdle_eq_false named
    exact List.ne_nil_of_mem (List.mem_filter.2 ⟨isLast, by rw [notIdle]; rfl⟩)
  · refine List.map_congr_left fun segment member => ?_
    exact if_neg (safe.segments segment (List.mem_filter.1 member).1).notParent

/-- A path that leads down has no other components. -/
theorem SafePath.components_eq
    (safe : SafePath path) :
    Path.components path = (spoken path).map Path.Component.name := by
  obtain ⟨first, others, split⟩ := List.exists_cons_of_ne_nil (segments_ne_nil path)
  have isSafe := safe.segments first (by rw [split]; exact List.mem_cons_self)
  have someChar : first ≠ "" := by
    rintro rfl
    rcases of_empty_segment split with rfl | absolute
    · exact safe.named (by decide)
    · exact absurd (safe.relative.symm.trans absolute) (by decide)
  have notIdle := isSafe.isIdle_eq_false someChar
  rw [← safe.spoken_eq.2, spoken, Path.components, split]
  simp only [List.filter_cons, notIdle, Bool.not_false, someChar, isSafe.notCurrent, ↓reduceIte]
  rfl

/-- Joined to a directory, a path that leads down adds its names to the components. -/
theorem SafePath.components_join
    (safe : SafePath path)
    (directory : String) :
    Path.components (Path.join directory path)
      = Path.components directory ++ (spoken path).map Path.Component.name := by
  have names := safe.spoken_eq.2
  by_cases empty : directory = ""
  · rw [Path.join, if_pos (Or.inr empty), empty, safe.components_eq]
    rfl
  · rw [Path.join, if_neg (by simp [safe.relative, empty])]
    split
    · next slash =>
        obtain ⟨front, chars⟩ : ∃ front, directory = front ++ "/" := by
          obtain ⟨start, split⟩ := List.getLast?_eq_some_iff.1 slash
          exact ⟨String.ofList start, String.toList_inj.1 (by simp [split])⟩
        have bare := components_append front ""
        rw [String.append_empty] at bare
        have nothing : spoken "" = [] := by decide
        rw [chars, components_append, bare, names, nothing, List.map_nil, List.append_nil]
    · rw [components_append, if_neg empty, names]

/-- A path that leads down is below the directory that it is joined to. -/
theorem SafePath.below_join
    (safe : SafePath path)
    (directory : String) :
    Below (Path.join directory path) directory :=
  ⟨spoken path, safe.spoken_eq.1, safe.components_join directory⟩

end Safe

/-- Nothing is below two directories of different names in one place. -/
theorem SafeSegment.eq_of_below
    {left right base path : String}
    (safeLeft : SafeSegment left)
    (safeRight : SafeSegment right)
    (someLeft : left ≠ "")
    (someRight : right ≠ "")
    (belowLeft : Below path (Path.join base left))
    (belowRight : Below path (Path.join base right)) :
    left = right := by
  have single {name : String} (safe : SafeSegment name) (someChar : name ≠ "") :
      Path.components (Path.join base name) = Path.components base ++ [.name name] := by
    have notIdle := safe.isIdle_eq_false someChar
    rw [(safe.safePath someChar).components_join, spoken, safe.segments_eq]
    simp only [List.filter_cons, List.filter_nil, notIdle, Bool.not_false, ↓reduceIte]
    rfl
  obtain ⟨leftNames, -, isLeft⟩ := belowLeft
  obtain ⟨rightNames, -, isRight⟩ := belowRight
  rw [single safeLeft someLeft, List.append_assoc] at isLeft
  rw [single safeRight someRight, List.append_assoc] at isRight
  have same := List.append_cancel_left (isLeft.symm.trans isRight)
  simpa using (List.cons_eq_cons.1 same).1

end FileName
end AssemblyAtlas
