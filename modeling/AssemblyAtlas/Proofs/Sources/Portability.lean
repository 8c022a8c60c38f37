import AssemblyAtlas.Proofs.FileName.Portable
import AssemblyAtlas.Proofs.Sources.Paths

/-!
# Paths that every system takes

The path of a source file is made of names that were cleaned one by one. Each of them is portable
on a condition of its own, and the whole path is if all of them are.

* `portable_relativePath_iff` says exactly which paths of types are portable, and
  `not_portable_samples` gives one of each kind that are not.
-/

namespace AssemblyAtlas
namespace Sources

open Declaration
open FileName

/-- The segments of a path behind a directory are its own and those of the directory. -/
theorem forall_mem_segments_append
    {P : String → Prop}
    (directory path : String) :
    (∀ segment ∈ Path.segments (directory ++ "/" ++ path), P segment)
      ↔ (∀ segment ∈ Path.segments directory, P segment)
        ∧ ∀ segment ∈ Path.segments path, P segment := by
  rw [segments_append]
  exact List.forall_mem_append

/-- The path of a type is portable if no device name stands before a dot in the name of the type or,
without nested directories, in its namespace, and if with nested directories the parts of the
namespace are portable. -/
theorem portable_relativePath_iff
    (settings : Settings)
    (space name : String) :
    (∀ segment ∈ Path.segments (relativePath settings space name), Portable segment)
      ↔ ¬HidesDevice (kept ⟨false, true, false⟩ name)
        ∧ (space = ""
          ∨ if settings.nestedDirectories then
              PartsPortable (kept ⟨true, false, true⟩ space)
            else
              ¬HidesDevice (kept ⟨false, false, false⟩ space)) := by
  have file : (∀ segment ∈ Path.segments (withExtension name sourceExtension), Portable segment)
      ↔ ¬HidesDevice (kept ⟨false, true, false⟩ name) := by
    obtain ⟨safe, -⟩ := safeSegment_withExtension name isExtension_sourceExtension
    rw [safe.segments_eq, List.forall_mem_singleton]
    exact portable_withExtension_iff name isExtension_sourceExtension (by decide)
  rw [relativePath]
  split
  · next global => rw [file, and_iff_left (Or.inl global)]
  · next inside =>
      rw [or_iff_right inside]
      split
      · rw [forall_mem_segments_append, portable_path_iff, file, and_comm]
      · rw [forall_mem_segments_append, (safeSegment_directory space).1.segments_eq,
          List.forall_mem_singleton, portable_directory_iff, file, and_comm]

/-- Device names are left as directories, before the dots in the names of directories and of files,
and a dot at the end of a namespace makes a directory without a name. -/
theorem not_portable_samples :
    (∃ segment ∈ Path.segments (relativePath Settings.default "con.A" "X"), ¬Portable segment)
      ∧ (∃ segment ∈ Path.segments
            (relativePath { Settings.default with nestedDirectories := false } "con.A" "X"),
          ¬Portable segment)
      ∧ (∃ segment ∈ Path.segments (relativePath Settings.default "" "con.x"), ¬Portable segment)
      ∧ "" ∈ Path.segments (relativePath Settings.default "A." "X") := by
  decide +kernel

end Sources
end AssemblyAtlas
