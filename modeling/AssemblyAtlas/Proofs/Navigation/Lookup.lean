import AssemblyAtlas.Navigation.Workspace
import AssemblyAtlas.Proofs.Text.Case

/-!
# Looking files and documents up

Files are looked up by the lowercase forms of their paths, and documents up to the case of ASCII
letters. A file that is registered under a path stays there, and so does a document that is added to
a project.

* `FileIndex.find?_register` and `FileIndex.find?_registerAll` are about registered files;
* `Project.isSome_find?_addAll` and `Project.exists_primary?` are about added documents.
-/

namespace AssemblyAtlas
namespace Navigation

open Text

/-! ## Paths -/

/-- A text starts with a slash if its folded text does. -/
theorem head?_foldCase_eq_slash
    (text : String) :
    (foldCase text).head? = some '/' ↔ text.toList.head? = some '/' := by
  have slash (c : Char) : decide (c.toLower = '/') = decide (c = '/') :=
    eq_toLower (fun c => decide (c = '/')) (by decide) c
  rw [foldCase]
  cases text.toList with
  | nil => simp
  | cons c rest => simpa using decide_eq_decide.1 (slash c)

/-- Paths that differ in the case of ASCII letters only do so in every directory. -/
theorem sameIgnoringCase_join
    (directory : String)
    {left right : String}
    (same : sameIgnoringCase left right = true) :
    sameIgnoringCase (Path.join directory left) (Path.join directory right) = true := by
  have folded := sameIgnoringCase_iff.1 same
  have absolute : Path.isAbsolute left = Path.isAbsolute right := by
    rw [Path.isAbsolute, Path.isAbsolute, decide_eq_decide, ← head?_foldCase_eq_slash, folded,
      head?_foldCase_eq_slash]
  have behind (front : String) : foldCase (front ++ left) = foldCase (front ++ right) := by
    have parts (back : String) : foldCase (front ++ back) = foldCase front ++ foldCase back := by
      simp [foldCase]
    rw [parts, parts, folded]
  rw [Path.join, Path.join, absolute]
  split
  · exact same
  · split
    · exact sameIgnoringCase_iff.2 (behind directory)
    · exact sameIgnoringCase_iff.2 (behind (directory ++ "/"))

/-! ## Files -/

namespace FileIndex

variable {index : FileIndex}

/-- A path counts by its lowercase form. -/
theorem find?_eq_of_indexKey
    (index : FileIndex)
    {left right : String}
    (same : GeneratedFile.indexKey left = GeneratedFile.indexKey right) :
    index.find? left = index.find? right := by
  rw [find?, find?, same]

theorem indexKey_of_find?
    {path : String}
    {file : GeneratedFile}
    (found : index.find? path = some file) :
    GeneratedFile.indexKey file.path = GeneratedFile.indexKey path := by
  simpa using List.find?_some found

theorem mem_of_find?
    {path : String}
    {file : GeneratedFile}
    (found : index.find? path = some file) :
    file ∈ index.files :=
  List.mem_of_find?_eq_some found

/-- A path that is taken keeps its file. -/
theorem register_of_find?
    {file other : GeneratedFile}
    (taken : index.find? file.path = some other) :
    index.register file = index := by
  rw [register]
  split
  · rfl
  · next free => simp [free] at taken

/-- A file with a new path comes last. -/
theorem files_register_of_free
    {file : GeneratedFile}
    (free : index.find? file.path = none) :
    (index.register file).files = index.files ++ [file] := by
  rw [register]
  split
  · next taken => simp [free] at taken
  · rfl

/-- Only the given file is new. -/
theorem of_mem_register
    {file other : GeneratedFile}
    (member : other ∈ (index.register file).files) :
    other ∈ index.files ∨ other = file := by
  cases found : index.find? file.path with
  | some taken =>
      rw [register_of_find? found] at member
      exact Or.inl member
  | none =>
      rw [files_register_of_free found] at member
      simpa using member

/-- Under a path that counts like its own a file is found, unless another was there before. -/
theorem find?_register
    (index : FileIndex)
    (file : GeneratedFile)
    (path : String) :
    (index.register file).find? path
      = (index.find? path).or
          ([file].find? fun other =>
            GeneratedFile.indexKey other.path == GeneratedFile.indexKey path) := by
  cases found : index.find? file.path with
  | some other =>
      rw [register_of_find? found]
      by_cases same : GeneratedFile.indexKey file.path = GeneratedFile.indexKey path
      · rw [← index.find?_eq_of_indexKey same, found, Option.some_or]
      · rw [List.find?_singleton, if_neg (by simpa using same), Option.or_none]
  | none =>
      rw [find?, files_register_of_free found, List.find?_append]
      rfl

/-- Of many files the first is found whose path counts like the given one. -/
theorem find?_registerAll
    (index : FileIndex)
    (files : List GeneratedFile)
    (path : String) :
    (files.foldl register index).find? path
      = (index.find? path).or
          (files.find? fun file =>
            GeneratedFile.indexKey file.path == GeneratedFile.indexKey path) := by
  induction files generalizing index with
  | nil => exact (Option.or_none).symm
  | cons file rest ih =>
      rw [List.foldl_cons, ih, find?_register, Option.or_assoc, ← List.find?_append]
      rfl

theorem of_mem_registerAll
    {files : List GeneratedFile}
    {index : FileIndex}
    {other : GeneratedFile}
    (member : other ∈ (files.foldl register index).files) :
    other ∈ index.files ∨ other ∈ files := by
  induction files generalizing index with
  | nil => exact Or.inl member
  | cons file rest ih =>
      rcases ih member with old | new
      · rcases of_mem_register old with old | rfl
        · exact Or.inl old
        · exact Or.inr List.mem_cons_self
      · exact Or.inr (List.mem_cons_of_mem _ new)

theorem mem_removeProject_iff
    {project : ProjectId}
    {file : GeneratedFile} :
    file ∈ (index.removeProject project).files
      ↔ file ∈ index.files ∧ file.project ≠ project := by
  simp [removeProject]

end FileIndex

/-! ## Documents -/

namespace Project

variable (project : Project)

@[simp] theorem add_id (path : String) : (project.add path).id = project.id := by
  rw [add]
  split <;> rfl

@[simp] theorem add_key (path : String) : (project.add path).key = project.key := by
  rw [add]
  split <;> rfl

@[simp] theorem add_signaturesOnly (path : String) :
    (project.add path).signaturesOnly = project.signaturesOnly := by
  rw [add]
  split <;> rfl

@[simp] theorem add_absolute (path inside : String) :
    (project.add path).absolute inside = project.absolute inside := by
  rw [add]
  split <;> rfl

@[simp] theorem addAll_key (paths : List String) : (project.addAll paths).key = project.key := by
  induction paths generalizing project with
  | nil => rfl
  | cons path rest ih => exact (ih (project.add path)).trans (project.add_key path)

@[simp] theorem addAll_signaturesOnly (paths : List String) :
    (project.addAll paths).signaturesOnly = project.signaturesOnly := by
  induction paths generalizing project with
  | nil => rfl
  | cons path rest ih => exact (ih (project.add path)).trans (project.add_signaturesOnly path)

@[simp] theorem addAll_absolute (paths : List String) (inside : String) :
    (project.addAll paths).absolute inside = project.absolute inside := by
  induction paths generalizing project with
  | nil => rfl
  | cons path rest ih => exact (ih (project.add path)).trans (project.add_absolute path inside)

theorem mem_place_iff
    {document other : Document}
    {documents : List Document} :
    other ∈ place document documents ↔ other = document ∨ other ∈ documents := by
  induction documents with
  | nil => simp [place]
  | cons first rest ih =>
      rw [place]
      split
      · exact List.mem_cons
      · rw [List.mem_cons, ih, List.mem_cons]
        exact or_left_comm

variable {project}

/-- A document is found if its path differs in the case of ASCII letters at most. -/
theorem isSome_find?_iff
    {path : String} :
    (project.find? path).isSome
      ↔ ∃ document ∈ project.documents, sameIgnoringCase document.path path = true := by
  rw [find?, Option.isSome_map, Option.isSome_or, Bool.or_eq_true, List.find?_isSome,
    List.find?_isSome]
  constructor
  · rintro (⟨document, member, equal⟩ | near)
    · refine ⟨document, member, ?_⟩
      rw [eq_of_beq equal]
      exact sameIgnoringCase_refl path
    · exact near
  · exact Or.inr

theorem isSome_find?_add
    (project : Project)
    (path : String) :
    ((project.add path).find? path).isSome := by
  rw [add]
  split
  · next taken => exact taken
  · refine isSome_find?_iff.2 ⟨⟨path, project.nextDocument⟩, ?_, sameIgnoringCase_refl path⟩
    exact mem_place_iff.2 (Or.inl rfl)

theorem isSome_find?_addAll_of_isSome
    {path : String}
    (found : (project.find? path).isSome)
    (paths : List String) :
    ((project.addAll paths).find? path).isSome := by
  induction paths generalizing project with
  | nil => exact found
  | cons first rest ih =>
      refine ih ?_
      rw [add]
      split
      · exact found
      · obtain ⟨document, member, near⟩ := isSome_find?_iff.1 found
        exact isSome_find?_iff.2 ⟨document, mem_place_iff.2 (Or.inr member), near⟩

theorem isSome_find?_addAll
    (project : Project)
    {paths : List String}
    {path : String}
    (isPath : path ∈ paths) :
    ((project.addAll paths).find? path).isSome := by
  induction paths generalizing project with
  | nil => exact absurd isPath List.not_mem_nil
  | cons first rest ih =>
      rcases List.mem_cons.1 isPath with rfl | later
      · exact isSome_find?_addAll_of_isSome (project.isSome_find?_add path) rest
      · exact ih (project.add first) later

/-- Where a document has the expected path, such a document is shown. -/
theorem exists_primary?
    {expected : String}
    (found : (project.find? expected).isSome) :
    ∃ path, project.primary? expected = some path ∧ sameIgnoringCase path expected = true := by
  have first := List.find?_isSome.2 (isSome_find?_iff.1 found)
  obtain ⟨document, isFirst⟩ := Option.isSome_iff_exists.1 first
  have near : sameIgnoringCase document.path expected = true := by
    simpa using List.find?_some isFirst
  refine ⟨document.path, ?_, near⟩
  rw [primary?, isFirst]
  rfl

theorem mem_of_primary?
    {expected path : String}
    (shown : project.primary? expected = some path) :
    ∃ document ∈ project.documents, document.path = path := by
  obtain ⟨document, found, rfl⟩ := Option.map_eq_some_iff.1 shown
  refine ⟨document, ?_, rfl⟩
  rcases Option.or_eq_some_iff.1 found with first | ⟨-, second⟩
  · exact List.mem_of_find?_eq_some first
  · exact List.mem_of_find?_eq_some second

/-- A document has an added path if it is not an old one. -/
theorem mem_of_addAll
    {paths : List String}
    {document : Document}
    (member : document ∈ (project.addAll paths).documents) :
    document ∈ project.documents ∨ document.path ∈ paths := by
  induction paths generalizing project with
  | nil => exact Or.inl member
  | cons path rest ih =>
      rcases ih member with old | later
      · rw [add] at old
        split at old
        · exact Or.inl old
        · rcases mem_place_iff.1 old with rfl | old
          · exact Or.inr List.mem_cons_self
          · exact Or.inl old
      · exact Or.inr (List.mem_cons_of_mem _ later)

end Project

end Navigation
end AssemblyAtlas
