import AssemblyAtlas.Proofs.Navigation.Course
import AssemblyAtlas.Proofs.Navigation.Landing
import AssemblyAtlas.Proofs.Success

/-!
# All or nothing

A request registers files only where nothing can refuse it any more, apart from the disk. So if it
is refused otherwise, or leads nowhere, then projects, files, notices and the disk are as before; at
most an assembly was written in vain. And the file that a new project is made for is always
registered.

* `Provider.fileOf_unchanged` is about the search for a file that fails;
* `Provider.registered_of_fileOf` says that a wanted file is not missing;
* `Provider.unchanged_of_refused` is about requests.
-/

namespace AssemblyAtlas
namespace Navigation

open Assembly
open Declaration
open Sources
open Success

/-! ## Failures of the decompiler -/

/-- The failure is none of those that stand for a disagreement within the library. -/
def External (failure : Failure) : Prop :=
  ∀ message, failure ≠ .invariant message

theorem external_cancelled : External .cancelled := by
  intro message same
  cases same

theorem external_fatal (text : String) : External (.fatal text) := by
  intro message same
  cases same

theorem external_typeNotFound (token : Token) : External (.typeNotFound token) := by
  intro message same
  cases same

theorem external_endlessNesting (token : Token) : External (.endlessNesting token) := by
  intro message same
  cases same

theorem failsWith_nestedType
    (decompiler : Decompiler)
    (token : Token) :
    FailsWith External (decompiler.nestedType? token) := by
  rw [Decompiler.nestedType?]
  split
  · exact failsWith_ok _
  · split
    · exact failsWith_ok _
    · exact failsWith_error (external_typeNotFound token)

theorem failsWith_typeNode
    (decompiler : Decompiler)
    (depth : Nat)
    (type : TypeDefinition) :
    FailsWith External (decompiler.typeNode? depth type) := by
  induction depth generalizing type with
  | zero => exact failsWith_error (external_endlessNesting type.token)
  | succ depth ih =>
      rw [Decompiler.typeNode?]
      split
      · exact failsWith_error (external_typeNotFound type.token)
      · dsimp only
        split
        · exact failsWith_ok _
        · refine FailsWith.bind (.mapM (fun token => ?_) type.nested) fun _ => failsWith_ok _
          refine (failsWith_nestedType decompiler token).bind fun found => ?_
          split
          · exact failsWith_ok _
          · exact (ih _).bind fun _ => failsWith_ok _

theorem failsWith_declaration
    (decompiler : Decompiler)
    (token : Token) :
    FailsWith External (decompiler.declaration? token) := by
  rw [Decompiler.declaration?]
  split
  · exact failsWith_error (external_typeNotFound token)
  · split
    · exact failsWith_error (external_typeNotFound token)
    · exact (failsWith_typeNode decompiler _ _).bind fun _ => failsWith_ok _

theorem failsWith_types
    (decompiler : Decompiler)
    (cancelled : Bool)
    (tokens : List Token) :
    FailsWith External (decompiler.types cancelled tokens) := by
  refine FailsWith.bind (.mapM (fun token => ?_) tokens) fun _ => failsWith_ok _
  split
  · exact failsWith_error external_cancelled
  · exact failsWith_declaration decompiler token

namespace Provider

variable
  {provider : Provider}
  {workspace after : Workspace}
  {target : Target}
  {topLevel : SymbolKey}
  {cancellation : Cancellation}
  {failure : Failure}

/-! ## What a search leaves behind -/

/-- Nothing but what was written in vain. -/
structure Unchanged (workspace after : Workspace) : Prop where
  same : after = { workspace with
    decompilations := after.decompilations
    reports := after.reports }
  /-- At most one assembly was written. -/
  counted : after.decompilations = workspace.decompilations
    ∨ after.decompilations = workspace.decompilations + 1
  reported : workspace.reports <+: after.reports

theorem unchanged_refl (workspace : Workspace) :
    Unchanged workspace workspace :=
  ⟨rfl, Or.inl rfl, List.prefix_rfl⟩

/-- A project that is refused leaves nothing. -/
theorem createProject_unchanged
    {sources : Option SourceSet}
    {cancelled : Bool}
    (looked : provider.createProject workspace target topLevel sources cancelled
      = (after, .error failure)) :
    after = workspace := by
  rw [createProject] at looked
  split at looked
  · cases looked
    rfl
  · rw [fill] at looked
    split at looked
    · cases looked
      rfl
    · next primary shown =>
        split at looked
        · cases looked
          rfl
        · obtain ⟨file, document, last, found⟩ := exists_wanted rfl shown
          simp only [last, Option.bind_some, found, Option.map_some] at looked
          cases looked

/-- A search that fails leaves nothing but what was written in vain. -/
theorem fileOf_unchanged
    (looked : provider.fileOf workspace target topLevel cancellation = (after, .error failure)) :
    Unchanged workspace after := by
  rw [fileOf] at looked
  split at looked
  · rw [cachedFile] at looked
    dsimp only at looked
    split at looked
    · cases looked
    · split at looked
      · split at looked
        · cases looked
          exact unchanged_refl _
        · split at looked
          · cases looked
            exact unchanged_refl _
          · cases looked
      · cases looked
        exact unchanged_refl _
  · rw [firstFile] at looked
    split at looked
    · dsimp only at looked
      split at looked
      · cases looked
        exact ⟨rfl, Or.inr rfl, List.prefix_append _ _⟩
      · obtain rfl := createProject_unchanged looked
        exact ⟨rfl, Or.inr rfl, List.prefix_append _ _⟩
    · obtain rfl := createProject_unchanged looked
      exact unchanged_refl _

/-! ## The file that a project is made for -/

/-- A text starts like the first of its parts. -/
theorem ne_of_start
    {left right leftRest rightRest : String}
    (someLeft : left ≠ "")
    (someRight : right ≠ "")
    (differ : left.toList.head? ≠ right.toList.head?) :
    left ++ leftRest ≠ right ++ rightRest := by
  have start {front : String} (someChar : front ≠ "") (rest : String) :
      (front ++ rest).toList.head? = front.toList.head? := by
    obtain ⟨c, chars, split⟩ := List.exists_cons_of_ne_nil
      (fun empty => someChar (String.toList_inj.1 empty) : front.toList ≠ [])
    rw [String.toList_append, split]
    rfl
  intro same
  exact differ (by rw [← start someLeft leftRest, same, start someRight])

/-- The failure for which a wanted file would be missing. -/
def missingFile (primary : String) : Failure :=
  .invariant ("Primary document '" ++ primary ++ "' was not registered")

/-- A failure with another text is another failure. -/
theorem ne_missingFile
    {front : String}
    (someChar : front ≠ "")
    (start : front.toList.head? ≠ some 'P')
    (rest primary : String) :
    Failure.invariant (front ++ rest) ≠ missingFile primary := by
  intro same
  rw [missingFile, Failure.invariant.injEq, String.append_assoc] at same
  have differ : front.toList.head? ≠ "Primary document '".toList.head? := start
  exact ne_of_start someChar (by decide) differ same

theorem failsWith_stub
    (module : Module)
    (topLevel : SymbolKey)
    (cancelled : Bool) :
    FailsWith External (provider.stub module topLevel cancelled) := by
  rw [stub]
  split
  · exact failsWith_error (external_fatal _)
  · exact (failsWith_types _ _ _).bind fun _ => failsWith_ok _

theorem failsWith_projectFiles
    (project : Project)
    (module : Module)
    (topLevel : SymbolKey)
    (sources : Option SourceSet)
    (cancelled : Bool) :
    FailsWith External (provider.projectFiles project module topLevel sources cancelled) := by
  cases sources with
  | some sources =>
      rw [projectFiles_some]
      exact failsWith_ok _
  | none => exact (failsWith_stub module topLevel cancelled).bind fun _ => failsWith_ok _

/-- A project is not made without the file that it is made for. -/
theorem registered_of_createProject
    {sources : Option SourceSet}
    {cancelled : Bool}
    (looked : provider.createProject workspace target topLevel sources cancelled
      = (after, .error failure))
    (primary : String) :
    failure ≠ missingFile primary := by
  rw [createProject] at looked
  split at looked
  · next refused =>
      cases looked
      exact failsWith_projectFiles _ _ _ _ _ failure refused _
  · rw [fill] at looked
    split at looked
    · cases looked
      simp only [String.append_assoc]
      exact ne_missingFile (by decide) (by decide) _ primary
    · next shown =>
        split at looked
        · cases looked
          exact external_cancelled _
        · obtain ⟨file, document, last, found⟩ := exists_wanted rfl shown
          simp only [last, Option.bind_some, found, Option.map_some] at looked
          cases looked

/-- The file that is looked for is not missing from its project. -/
theorem registered_of_fileOf
    (looked : provider.fileOf workspace target topLevel cancellation = (after, .error failure))
    (primary : String) :
    failure ≠ missingFile primary := by
  rw [fileOf] at looked
  split at looked
  · rw [cachedFile] at looked
    dsimp only at looked
    split at looked
    · cases looked
    · split at looked
      · split at looked
        · next refused =>
            cases looked
            exact failsWith_stub _ _ _ failure refused _
        · split at looked
          · cases looked
            simp only [String.append_assoc]
            exact ne_missingFile (by decide) (by decide) _ primary
          · cases looked
      · cases looked
        simp only [String.append_assoc]
        exact ne_missingFile (by decide) (by decide) _ primary
  · rw [firstFile] at looked
    split at looked
    · dsimp only at looked
      split at looked
      · next refused =>
          cases looked
          rw [decompile] at refused
          dsimp only at refused
          split at refused
          · cases refused
          · dsimp only at refused
            split at refused
            · cases refused
              exact external_cancelled _
            · cases refused
      · exact registered_of_createProject looked primary
    · exact registered_of_createProject looked primary

/-! ## Requests -/

theorem failsWith_reference
    (disk : Disk)
    (request : Request)
    (context : Context) :
    FailsWith External (provider.reference disk request context) := by
  rw [reference]
  split
  · exact failsWith_ok _
  · dsimp only
    split
    · exact failsWith_ok _
    · split
      · exact failsWith_ok _
      · exact failsWith_error (external_fatal _)

/-- Looking for an assembly fails by itself, or where an image is read. -/
theorem failsWith_target
    (disk : Disk)
    (request : Request)
    (context : Context) :
    FailsWith (fun failure => External failure ∨ ∃ image, provider.read image = .error failure)
      (provider.target disk request context) := by
  rw [target]
  refine FailsWith.bind (fun failure refused => ?_) fun found => ?_
  · exact Or.inl (failsWith_reference disk request context failure refused)
  · split
    · exact failsWith_ok _
    · split
      · exact failsWith_error (Or.inl (external_fatal _))
      · dsimp only
        split
        · exact failsWith_ok _
        · next image loaded =>
            exact FailsWith.bind (fun failure refused => Or.inr ⟨image, refused⟩)
              fun module => failsWith_ok _

/-- A request that leads nowhere, and is not refused by the disk, leaves everything as it was; at
most an assembly was written in vain. And no request misses the file that a project was made for,
unless the reader of images says so itself. -/
theorem unchanged_of_refused
    (provider : Provider)
    (workspace : Workspace)
    (request : Request)
    (context : Context)
    (cancellation : Cancellation)
    {after : Workspace}
    {answer : Except Failure (Option Destination)}
    (navigated : provider.navigate workspace request context cancellation = (after, answer)) :
    ((∀ place, answer ≠ .ok (some place)) → (∀ fault, answer ≠ .error (.file fault)) →
        Unchanged workspace after)
      ∧ ∀ primary,
          answer = .error
              (.invariant ("Primary document '" ++ primary ++ "' was not registered")) →
            ∃ image, provider.read image = .error
              (.invariant ("Primary document '" ++ primary ++ "' was not registered")) := by
  have course : provider.Course workspace request context cancellation (after, answer) :=
    navigated ▸ course_navigate workspace request context cancellation
  cases course with
  | refused targeted =>
      refine ⟨fun _ _ => unchanged_refl _, fun primary missing => ?_⟩
      cases missing
      rcases failsWith_target _ request context _ targeted with external | isRead
      · exact absurd rfl (external _)
      · exact isRead
  | unknown =>
      refine ⟨fun _ _ => unchanged_refl _, fun primary missing => ?_⟩
      cases missing
  | failed targeted looked =>
      refine ⟨fun _ _ => fileOf_unchanged looked, fun primary missing => ?_⟩
      exact absurd (Except.error.inj missing) (registered_of_fileOf looked primary)
  | @reached target middle file targeted looked =>
      cases written : (file.materialize middle.disk provider.options.mayWait).2 with
      | ok isNew =>
          refine ⟨fun nowhere _ => absurd rfl (nowhere _), fun primary missing => ?_⟩
          cases missing
      | error failure =>
          obtain ⟨fault, rfl⟩ := file_of_materialize written
          refine ⟨fun _ noFault => absurd rfl (noFault fault), fun primary missing => ?_⟩
          cases missing

end Provider

/-- The wish to see a type with its body. -/
def bodyRequest : Request :=
  { twinRequest "A" with signaturesOnly := false }

/-- A request that is cancelled before it starts counts as one assembly, and leaves nothing else. -/
theorem unchanged_twinSample :
    ∃ after,
      twinProvider.navigate (.new twinDisk) bodyRequest twinContext ⟨true, fun _ => false⟩
          = (after, .error .cancelled)
        ∧ after.decompilations = 1
        ∧ Provider.Unchanged (.new twinDisk) after := by
  have cancelled : (twinProvider.navigate (.new twinDisk) bodyRequest twinContext
      ⟨true, fun _ => false⟩).2 = .error .cancelled
        ∧ (twinProvider.navigate (.new twinDisk) bodyRequest twinContext
            ⟨true, fun _ => false⟩).1.decompilations = 1 := by
    decide +kernel
  cases navigated : twinProvider.navigate (.new twinDisk) bodyRequest twinContext
      ⟨true, fun _ => false⟩ with
  | mk after answer =>
      rw [navigated] at cancelled
      obtain ⟨rfl, counted⟩ := cancelled
      refine ⟨after, rfl, counted,
        (Provider.unchanged_of_refused twinProvider _ _ _ _ navigated).1 ?_ ?_⟩
      · intro place same
        cases same
      · intro fault same
        cases same

end Navigation
end AssemblyAtlas
