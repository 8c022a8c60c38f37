import AssemblyAtlas.Sources.SourceSet
import Mathlib.Data.List.Induction

/-!
# Files that replace others

A file that is put into a draft replaces the one whose path has the same lowercase form. So of files
that are put in one after the other, a draft keeps those that none behind them replaces.
-/

namespace AssemblyAtlas
namespace Sources

open Text

namespace SourceDraft

/-- The draft of files that are put in one after the other. -/
def ofFiles (files : List SourceFile) : SourceDraft :=
  files.foldl insert empty

theorem ofFiles_append
    (files more : List SourceFile) :
    ofFiles (files ++ more) = more.foldl insert (ofFiles files) :=
  List.foldl_append

/-- A file that is put in is there, and the files with other paths stay. -/
theorem mem_insert_iff
    {draft : SourceDraft}
    {file other : SourceFile} :
    other ∈ (draft.insert file).files
      ↔ other = file ∨ other ∈ draft.files ∧ lowercase other.path ≠ lowercase file.path := by
  rw [insert, List.mem_append, List.mem_filter, List.mem_singleton, bne_iff_ne]
  exact or_comm

/-- The file at the index is the last with its path. -/
def LastAt (files : List SourceFile) (i : Nat) (file : SourceFile) : Prop :=
  files[i]? = some file
    ∧ ∀ j later, i < j → files[j]? = some later → lowercase later.path ≠ lowercase file.path

/-- The last file of all is the last with its path. -/
theorem lastAt_concat_self
    (files : List SourceFile)
    (file : SourceFile) :
    LastAt (files ++ [file]) files.length file := by
  refine ⟨by simp, fun j later behind found => ?_⟩
  have short : (files ++ [file]).length ≤ j := by
    rw [List.length_append, List.length_singleton]
    omega
  rw [List.getElem?_eq_none short] at found
  exact absurd found (by simp)

/-- Another file is the last with its path if it was before and the new file has another path. -/
theorem lastAt_concat_iff
    {files : List SourceFile}
    {file other : SourceFile}
    {i : Nat}
    (inside : i < files.length) :
    LastAt (files ++ [file]) i other
      ↔ LastAt files i other ∧ lowercase other.path ≠ lowercase file.path := by
  have same : (files ++ [file])[i]? = files[i]? := List.getElem?_append_left inside
  have last : (files ++ [file])[files.length]? = some file := by simp
  constructor
  · rintro ⟨found, unreplaced⟩
    refine ⟨⟨same ▸ found, fun j later behind at_j => ?_⟩, ?_⟩
    · have within : j < files.length := (List.getElem?_eq_some_iff.1 at_j).1
      exact unreplaced j later behind ((List.getElem?_append_left within).trans at_j)
    · exact (unreplaced files.length file inside last).symm
  · rintro ⟨⟨found, unreplaced⟩, differs⟩
    refine ⟨same.trans found, fun j later behind at_j => ?_⟩
    rcases Nat.lt_or_ge j files.length with within | beyond
    · rw [List.getElem?_append_left within] at at_j
      exact unreplaced j later behind at_j
    · -- Behind the old files there is only the new one.
      rw [List.getElem?_append_right beyond] at at_j
      obtain rfl : later = file := by
        have only := List.mem_of_getElem? at_j
        simpa using only
      exact differs.symm

/-- A draft keeps the files that are the last with their paths. -/
theorem mem_ofFiles_iff
    (files : List SourceFile)
    (file : SourceFile) :
    file ∈ (ofFiles files).files ↔ ∃ i, LastAt files i file := by
  induction files using List.reverseRecOn with
  | nil =>
      constructor
      · intro isFile
        exact absurd isFile List.not_mem_nil
      · rintro ⟨i, found, -⟩
        exact absurd found (by simp)
  | append_singleton files last ih =>
      rw [ofFiles_append, List.foldl_cons, List.foldl_nil, mem_insert_iff, ih]
      constructor
      · rintro (rfl | ⟨⟨i, lastAt⟩, differs⟩)
        · exact ⟨files.length, lastAt_concat_self files file⟩
        · have inside : i < files.length := (List.getElem?_eq_some_iff.1 lastAt.1).1
          exact ⟨i, (lastAt_concat_iff inside).2 ⟨lastAt, differs⟩⟩
      · rintro ⟨i, lastAt⟩
        rcases Nat.lt_or_ge i files.length with inside | beyond
        · obtain ⟨before, differs⟩ := (lastAt_concat_iff inside).1 lastAt
          exact Or.inr ⟨⟨i, before⟩, differs⟩
        · left
          have found := lastAt.1
          rw [List.getElem?_append_right beyond] at found
          simpa using List.mem_of_getElem? found

end SourceDraft

/-- The finished files are those of the draft. -/
theorem SourceSet.mem_ofDraft_iff
    {draft : SourceDraft}
    {file : SourceFile} :
    file ∈ (SourceSet.ofDraft draft).files ↔ file ∈ draft.files :=
  (List.mergeSort_perm _ _).mem_iff

end Sources
end AssemblyAtlas
