import AssemblyAtlas.Proofs.FileName.SafePath
import AssemblyAtlas.Proofs.Sources.Kept

/-!
# Paths of source files

Whatever a type and its namespace are called, the path of its file leads down, and its last segment
ends in the extension of source files. A run has no other files but that with the attributes of the
assembly, and no two with the same path in lower case.

* `safePath_relativePath` is about the path of a type;
* `Job.path_of_mem_sources` and `Job.pairwise_sources` are about the files of a run.
-/

namespace AssemblyAtlas
namespace Sources

open Declaration
open FileName
open Text

theorem isExtension_sourceExtension :
    IsExtension sourceExtension.toList where
  dotted := ⟨['c', 's'], rfl, by decide, List.all_eq_true.1 (by decide)⟩
  short := by decide

theorem lastSegment_relativePath
    (settings : Settings)
    (space name : String) :
    Path.lastSegment (relativePath settings space name) = withExtension name sourceExtension := by
  have file := (safeSegment_withExtension name isExtension_sourceExtension).1.segments_eq
  rw [relativePath]
  split
  · rw [Path.lastSegment, file]
    rfl
  · split
    · rw [Path.lastSegment, segments_append, file, List.getLastD_concat]
    · rw [Path.lastSegment, segments_append, file, List.getLastD_concat]

/-- The path of a type leads down to a name with the extension of source files. -/
theorem safePath_relativePath
    (settings : Settings)
    (space name : String) :
    SafePath (relativePath settings space name)
      ∧ ∃ stem, stem ≠ ""
          ∧ Path.lastSegment (relativePath settings space name) = stem ++ sourceExtension := by
  obtain ⟨safe, stem, someStem, file⟩ :=
    safeSegment_withExtension name isExtension_sourceExtension
  have someFile : withExtension name sourceExtension ≠ "" := by
    rw [file]
    intro empty
    exact someStem (String.append_eq_empty_iff.1 empty).1
  refine ⟨?_, stem, someStem, (lastSegment_relativePath settings space name).trans file⟩
  rw [relativePath]
  split
  · exact safe.safePath someFile
  · split
    · obtain ⟨segments, relative, notEmpty⟩ := safeSegment_of_mem_path space
      exact safe.safePath_append someFile notEmpty relative segments
    · obtain ⟨inside, notEmpty⟩ := safeSegment_directory space
      have path := inside.safePath notEmpty
      exact safe.safePath_append someFile notEmpty path.relative path.segments

/-- The path of a type ends in the extension of source files. -/
theorem exists_relativePath_eq
    (settings : Settings)
    (space name : String) :
    ∃ start, relativePath settings space name = start ++ sourceExtension := by
  obtain ⟨-, stem, -, file⟩ := safeSegment_withExtension name isExtension_sourceExtension
  rw [relativePath, file]
  split
  · exact ⟨stem, rfl⟩
  · split
    · exact ⟨path space ++ "/" ++ stem, by simp only [String.append_assoc]⟩
    · exact ⟨directory space ++ "/" ++ stem, by simp only [String.append_assoc]⟩

/-- So does the path of the file with the attributes of the assembly. -/
theorem safePath_assemblyInfoPath :
    SafePath assemblyInfoPath := by
  have segments : Path.segments assemblyInfoPath = ["Properties", "AssemblyInfo.cs"] := by
    decide
  refine ⟨by decide, ?_, by decide⟩
  rw [segments]
  intro segment member
  have plain : ∀ segment ∈ ["Properties", "AssemblyInfo.cs"],
      segment.utf8ByteSize ≤ 255
        ∧ segment.toList.all (fun c => decide (c.toNat ≤ 0xffff
            ∧ (isLetterOrDigit c = true ∨ c = '-' ∨ c = '_' ∨ c = '.'))) = true
        ∧ segment ≠ "." ∧ segment ≠ ".." := by
    decide
  obtain ⟨short, chars, notCurrent, notParent⟩ := plain segment member
  exact ⟨short, fun c isChar => of_decide_eq_true (List.all_eq_true.1 chars c isChar), notCurrent,
    notParent⟩

/-! ## Files of a run -/

/-- Of files with pairwise different paths, two with the same path in lower case are one. -/
theorem SourceFile.eq_of_lowercase
    {files : List SourceFile}
    (distinct : files.Pairwise fun left right => lowercase left.path ≠ lowercase right.path)
    {left right : SourceFile}
    (isLeft : left ∈ files)
    (isRight : right ∈ files)
    (same : lowercase left.path = lowercase right.path) :
    left = right := by
  by_contra differ
  have either_way : Std.Symm fun left right : SourceFile =>
      lowercase left.path ≠ lowercase right.path :=
    ⟨fun _ _ apart => apart.symm⟩
  exact distinct.forall isLeft isRight differ same

namespace SourceDraft

/-- A file that is put in differs from all others that are there. -/
theorem pairwise_insert
    {draft : SourceDraft}
    (distinct : draft.files.Pairwise fun left right => lowercase left.path ≠ lowercase right.path)
    (file : SourceFile) :
    (draft.insert file).files.Pairwise fun left right =>
      lowercase left.path ≠ lowercase right.path := by
  rw [insert, List.pairwise_append]
  refine ⟨distinct.sublist List.filter_sublist, List.pairwise_singleton _ _, ?_⟩
  intro left isOther right isFile
  rw [List.mem_singleton.1 isFile]
  exact bne_iff_ne.1 (List.mem_filter.1 isOther).2

theorem pairwise_ofFiles (files : List SourceFile) :
    (ofFiles files).files.Pairwise fun left right =>
      lowercase left.path ≠ lowercase right.path := by
  induction files using List.reverseRecOn with
  | nil => exact List.Pairwise.nil
  | append_singleton files last ih =>
      rw [ofFiles_append]
      exact pairwise_insert ih last

end SourceDraft

namespace Job

variable {job : Job} {cancelled : Bool} {run : Run}

/-- The files of a run have pairwise different paths, also in lower case. -/
theorem pairwise_sources
    (completed : job.run cancelled = .ok run) :
    run.sources.files.Pairwise fun left right => lowercase left.path ≠ lowercase right.path := by
  obtain ⟨-, draft, -⟩ := draft_run completed
  have distinct := SourceDraft.pairwise_ofFiles ((job.worked run).map job.fileOf
    ++ [job.assemblyInfo])
  rw [← draft] at distinct
  exact (List.mergeSort_perm _ _).symm.pairwise distinct fun {left right} differs =>
    Ne.symm differs

/-- The file with the attributes of the assembly comes last, so nothing takes its place. -/
theorem assemblyInfo_mem_sources
    (completed : job.run cancelled = .ok run) :
    job.assemblyInfo ∈ run.sources.files := by
  obtain ⟨-, draft, -⟩ := draft_run completed
  rw [Run.sources, SourceSet.mem_ofDraft_iff, draft, SourceDraft.mem_ofFiles_iff]
  exact ⟨_, SourceDraft.lastAt_concat_self _ _⟩

/-- A file of a run has the attributes of the assembly, or it has the path of a type. -/
theorem path_of_mem_sources
    (order : ∀ units, (job.order units).Perm units)
    (completed : job.run cancelled = .ok run)
    {file : SourceFile}
    (isFile : file ∈ run.sources.files) :
    file.path = assemblyInfoPath
      ∨ ∃ space name, file.path = relativePath job.settings space name := by
  have sequence := sequence_run order completed
  obtain ⟨-, draft, -⟩ := draft_run completed
  rw [Run.sources, SourceSet.mem_ofDraft_iff, draft, SourceDraft.mem_ofFiles_iff] at isFile
  obtain ⟨i, found, -⟩ := isFile
  rcases List.mem_append.1 (List.mem_of_getElem? found) with isUnit | isInfo
  · obtain ⟨unit, isWorked, rfl⟩ := List.mem_map.1 isUnit
    obtain ⟨tokens, inGroup⟩ := sequence.grouped unit isWorked
    obtain ⟨head, -, known⟩ :=
      (grouped_group job.settings job.module tokens).named unit inGroup
    obtain ⟨type, -, path⟩ := Option.map_eq_some_iff.1 known
    right
    exact ⟨type.space, type.name, by rw [fileOf_path, path]⟩
  · left
    rw [List.mem_singleton.1 isInfo]
    rfl

end Job

end Sources
end AssemblyAtlas
