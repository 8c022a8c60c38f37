import AssemblyAtlas.Proofs.Navigation.Lookup

/-!
# Documents of a project

A project numbers its documents one after the other, and takes no path twice, whatever the case of
ASCII letters.

* `Project.Numbered` says so, and `Project.Numbered.addAll` is about added documents;
* `Project.exists_of_find?` is about the document that is found for a path.
-/

namespace AssemblyAtlas
namespace Navigation

open Text

namespace Project

variable {project : Project}

@[simp] theorem add_directory (project : Project) (path : String) :
    (project.add path).directory = project.directory := by
  rw [add]
  split <;> rfl

@[simp] theorem addAll_directory (project : Project) (paths : List String) :
    (project.addAll paths).directory = project.directory := by
  induction paths generalizing project with
  | nil => rfl
  | cons path rest ih => exact (ih (project.add path)).trans (project.add_directory path)

@[simp] theorem addAll_id (project : Project) (paths : List String) :
    (project.addAll paths).id = project.id := by
  induction paths generalizing project with
  | nil => rfl
  | cons path rest ih => exact (ih (project.add path)).trans (project.add_id path)

/-! ## Numbers -/

/-- The documents have the numbers below their count, each of them once, and no two paths differ in
the case of ASCII letters only. -/
structure Numbered (project : Project) : Prop where
  indices : (project.documents.map (·.index)).Perm (List.range project.documents.length)
  next : project.nextDocument = project.documents.length
  distinct : project.documents.Pairwise fun left right =>
    sameIgnoringCase left.path right.path = false

theorem place_perm
    (document : Document)
    (documents : List Document) :
    (place document documents).Perm (document :: documents) := by
  induction documents with
  | nil => exact List.Perm.refl _
  | cons first rest ih =>
      rw [place]
      split
      · exact List.Perm.refl _
      · exact (ih.cons first).trans (List.Perm.swap document first rest)

/-- A path is free if it differs from all others, and not in the case of ASCII letters only. -/
theorem find?_eq_none_iff
    {path : String} :
    project.find? path = none
      ↔ ∀ document ∈ project.documents, sameIgnoringCase document.path path = false := by
  rw [← Option.not_isSome_iff_eq_none, isSome_find?_iff]
  simp

/-- A free path gets a document with the next number. -/
theorem add_of_free
    {path : String}
    (free : project.find? path = none) :
    project.add path
      = { project with
          documents := place ⟨path, project.nextDocument⟩ project.documents
          nextDocument := project.nextDocument + 1 } := by
  rw [add, free]
  exact if_neg (by simp)

/-- A path that is taken changes nothing. -/
theorem add_of_taken
    {path : String}
    (taken : (project.find? path).isSome) :
    project.add path = project := by
  rw [add, if_pos taken]

theorem mem_add_iff
    {path : String}
    {document : Document} :
    document ∈ (project.add path).documents
      ↔ document ∈ project.documents
        ∨ project.find? path = none ∧ document = ⟨path, project.nextDocument⟩ := by
  cases found : project.find? path with
  | some taken =>
      rw [add_of_taken (by rw [found]; rfl)]
      simp
  | none =>
      rw [add_of_free found]
      simp [mem_place_iff, or_comm]

theorem mem_addAll_of_mem
    {document : Document}
    (member : document ∈ project.documents)
    (paths : List String) :
    document ∈ (project.addAll paths).documents := by
  induction paths generalizing project with
  | nil => exact member
  | cons path rest ih => exact ih (mem_add_iff.2 (Or.inl member))

/-- Which documents are added does not depend on what else a project is like. -/
theorem addAll_congr
    {left right : Project}
    (documents : left.documents = right.documents)
    (next : left.nextDocument = right.nextDocument)
    (paths : List String) :
    (left.addAll paths).documents = (right.addAll paths).documents := by
  induction paths generalizing left right with
  | nil => exact documents
  | cons path rest ih =>
      have sameFree : left.find? path = none ↔ right.find? path = none := by
        rw [find?_eq_none_iff, find?_eq_none_iff, documents]
      by_cases free : left.find? path = none
      · refine ih ?_ ?_
        · rw [add_of_free free, add_of_free (sameFree.1 free), documents, next]
        · rw [add_of_free free, add_of_free (sameFree.1 free), next]
      · have taken := Option.ne_none_iff_isSome.1 free
        have alsoTaken := Option.ne_none_iff_isSome.1 (mt sameFree.2 free)
        refine ih ?_ ?_
        · rw [add_of_taken taken, add_of_taken alsoTaken, documents]
        · rw [add_of_taken taken, add_of_taken alsoTaken, next]

/-- A project without documents has no numbers. -/
theorem numbered_of_empty
    (none_yet : project.documents = [])
    (next : project.nextDocument = 0) :
    project.Numbered := by
  refine ⟨?_, ?_, ?_⟩
  · rw [none_yet]
    exact List.Perm.refl _
  · rw [none_yet, next]
    rfl
  · rw [none_yet]
    exact List.Pairwise.nil

/-- A further document has the next number, and a path of its own. -/
theorem Numbered.add
    (numbered : project.Numbered)
    (path : String) :
    (project.add path).Numbered := by
  cases found : project.find? path with
  | some taken =>
      rw [add_of_taken (by rw [found]; rfl)]
      exact numbered
  | none =>
      have all := place_perm ⟨path, project.nextDocument⟩ project.documents
      have differs := find?_eq_none_iff.1 found
      rw [add_of_free found]
      refine ⟨?_, ?_, ?_⟩
      · refine (all.map (·.index)).trans ?_
        rw [all.length_eq, List.map_cons, List.length_cons, List.range_succ, numbered.next]
        exact (numbered.indices.cons _).trans (List.perm_append_singleton _ _).symm
      · rw [all.length_eq, List.length_cons, numbered.next]
      · have apart {left right : Document}
            (differ : sameIgnoringCase left.path right.path = false) :
            sameIgnoringCase right.path left.path = false := by
          rw [Bool.eq_false_iff] at differ ⊢
          exact fun same => differ (sameIgnoringCase_symm same)
        refine (all.pairwise_iff apart).2 (List.pairwise_cons.2 ⟨?_, numbered.distinct⟩)
        exact fun other isOther => apart (differs other isOther)

theorem Numbered.addAll
    (numbered : project.Numbered)
    (paths : List String) :
    (project.addAll paths).Numbered := by
  induction paths generalizing project with
  | nil => exact numbered
  | cons path rest ih => exact ih (numbered.add path)

/-! ## Look-up -/

/-- The document that is found for a path differs from it in the case of ASCII letters at most; if
some document has the path itself, then so has the one that is found. -/
theorem exists_of_find?
    {path : String}
    {id : DocumentId}
    (found : project.find? path = some id) :
    ∃ document ∈ project.documents,
      id = ⟨project.id, document.index⟩
        ∧ sameIgnoringCase document.path path = true
        ∧ (∀ other ∈ project.documents, other.path = path → document.path = path) := by
  obtain ⟨document, isFound, rfl⟩ := Option.map_eq_some_iff.1 found
  rcases Option.or_eq_some_iff.1 isFound with exactly | ⟨none_exactly, near⟩
  · have own : document.path = path := by simpa using List.find?_some exactly
    refine ⟨document, List.mem_of_find?_eq_some exactly, rfl, ?_, fun _ _ _ => own⟩
    rw [own]
    exact sameIgnoringCase_refl path
  · refine ⟨document, List.mem_of_find?_eq_some near, rfl, by simpa using List.find?_some near, ?_⟩
    intro other isOther equal
    exact absurd equal (by simpa using List.find?_eq_none.1 none_exactly other isOther)

/-- Its number says whose document it is. -/
theorem project_of_find?
    {path : String}
    {id : DocumentId}
    (found : project.find? path = some id) :
    id.project = project.id := by
  obtain ⟨document, -, number, -⟩ := exists_of_find? found
  exact congrArg DocumentId.project number

/-- Of paths that are added to a project without documents, one gets a document of its own if none
in front of it differs in the case of ASCII letters only. -/
theorem exists_document_of_first
    (none_yet : project.documents = [])
    {front behind : List String}
    {path : String}
    (first : ∀ earlier ∈ front, sameIgnoringCase earlier path = false) :
    ∃ document ∈ (project.addAll (front ++ path :: behind)).documents, document.path = path := by
  have free : (project.addAll front).find? path = none := by
    refine find?_eq_none_iff.2 fun document member => ?_
    rcases mem_of_addAll member with old | new
    · rw [none_yet] at old
      exact absurd old List.not_mem_nil
    · exact first _ new
  have split : project.addAll (front ++ path :: behind)
      = ((project.addAll front).add path).addAll behind := by
    rw [Project.addAll, List.foldl_append]
    rfl
  rw [split]
  exact ⟨_, mem_addAll_of_mem (mem_add_iff.2 (Or.inr ⟨free, rfl⟩)) behind, rfl⟩

end Project

end Navigation
end AssemblyAtlas
