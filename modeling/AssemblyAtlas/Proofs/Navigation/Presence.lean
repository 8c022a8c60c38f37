import AssemblyAtlas.Proofs.Navigation.Repetition

/-!
# Types that are not found

A request for a type with its body looks for a file by the path or the name that the file of the
type should have. If the whole assembly was written and has no such file, then the library
disagrees with itself. Types that are not written without being asked for are not written for a
request either, so they may have none; and so may a type that has lost its file to another.

* `Project.primary?_eq_none_iff` says when a project shows no file;
* `Provider.disagrees_iff` says when a request fails in this way, and for which types it cannot;
* `failsOn_embeddedSample` is about a type that is not written, and `disagrees_accentSample` about
  one that has lost its file.
-/

namespace AssemblyAtlas
namespace Navigation

open Assembly
open Declaration
open FileName
open Sources
open Text

/-! ## Names of files -/

/-- The case of ASCII letters makes no difference to where a text is divided. -/
theorem pieces_toLower (text : List Char) :
    pieces '/' (text.map Char.toLower) = (pieces '/' text).map (List.map Char.toLower) := by
  induction text with
  | nil => rfl
  | cons c rest ih =>
      have slash : c.toLower = '/' ↔ c = '/' :=
        decide_eq_decide.1 (eq_toLower (fun c => decide (c = '/')) (by decide) c)
      rw [List.map_cons, pieces, pieces, ih]
      by_cases here : c = '/'
      · rw [if_pos here, if_pos (slash.2 here)]
        rfl
      · rw [if_neg here, if_neg (mt slash.1 here)]
        cases pieces '/' rest <;> rfl

theorem foldCase_lastSegment (path : String) :
    foldCase (Path.lastSegment path) = (pieces '/' (foldCase path)).getLastD [] := by
  rw [foldCase, foldCase, pieces_toLower, Path.lastSegment, Path.segments]
  cases pieces '/' path.toList using List.reverseRecOn with
  | nil => rfl
  | append_singleton front last => simp

/-- Paths that differ in the case of ASCII letters only end in such names. -/
theorem sameIgnoringCase_lastSegment
    {left right : String}
    (same : sameIgnoringCase left right = true) :
    sameIgnoringCase (Path.lastSegment left) (Path.lastSegment right) = true := by
  rw [sameIgnoringCase_iff, foldCase_lastSegment, foldCase_lastSegment,
    sameIgnoringCase_iff.1 same]

/-- The name of a source file is no name of a project file. -/
theorem sameIgnoringCase_projectFile (name other : String) :
    sameIgnoringCase (withExtension name ".csproj") (withExtension other sourceExtension)
      = false := by
  rw [Bool.eq_false_iff, Ne, sameIgnoringCase_iff]
  intro same
  obtain ⟨-, stem, -, project⟩ := safeSegment_withExtension name Provider.isExtension_projectFile
  obtain ⟨-, otherStem, -, source⟩ := safeSegment_withExtension other isExtension_sourceExtension
  have last := congrArg List.getLast? same
  rw [project, source, foldCase, foldCase, String.toList_append, String.toList_append,
    List.map_append, List.map_append, List.getLast?_append_of_ne_nil _ (by decide),
    List.getLast?_append_of_ne_nil _ (by decide)] at last
  exact absurd last (by decide)

/-! ## What a project shows -/

/-- A new project shows nothing if and only if none of its files has the expected name. -/
theorem Project.primary?_eq_none_iff
    {project empty : Project}
    (isEmpty : empty.documents = [])
    {paths : List String}
    (filled : project = empty.addAll paths)
    {expected : String} :
    project.primary? expected = none
      ↔ ∀ path ∈ paths,
          sameIgnoringCase (Path.lastSegment path) (Path.lastSegment expected) = false := by
  have named (document : Document)
      (near : sameIgnoringCase document.path expected = true) :
      sameIgnoringCase (Path.lastSegment document.path) (Path.lastSegment expected) = true :=
    sameIgnoringCase_lastSegment near
  rw [primary?, Option.map_eq_none_iff, Option.or_eq_none_iff, List.find?_eq_none,
    List.find?_eq_none]
  constructor
  · rintro ⟨-, nobody⟩ path isPath
    obtain ⟨document, isDocument, near⟩ := isSome_find?_iff.1
      (filled ▸ empty.isSome_find?_addAll isPath)
    rw [Bool.eq_false_iff]
    intro same
    exact nobody document isDocument
      (sameIgnoringCase_trans (sameIgnoringCase_lastSegment near) same)
  · intro nobody
    have unnamed (document : Document) (isDocument : document ∈ project.documents) :
        sameIgnoringCase (Path.lastSegment document.path) (Path.lastSegment expected) = false := by
      rw [filled] at isDocument
      rcases mem_of_addAll isDocument with old | new
      · rw [isEmpty] at old
        exact absurd old List.not_mem_nil
      · exact nobody document.path new
    refine ⟨fun document isDocument near => ?_, fun document isDocument same => ?_⟩
    · exact absurd (named document near) (by simp [unnamed document isDocument])
    · exact absurd same (by simp [unnamed document isDocument])

/-! ## Requests that fail -/

/-- The answer is that generating and looking up have disagreed. -/
def Disagrees {α : Type} (answer : Except Failure α) : Prop :=
  ∃ message, answer = .error (.invariant message)

namespace Provider

variable {provider : Provider} {context : Context} {workspace : Workspace}

/-- Only where the file of a type is looked for, a request may fail in this way. -/
theorem disagrees_navigate_iff
    {request : Request}
    {target : Target}
    {cancellation : Cancellation}
    (targeted : provider.target workspace.disk request context = .ok (some target)) :
    Disagrees (provider.navigate workspace request context cancellation).2
      ↔ Disagrees (provider.fileOf workspace target request.topLevel cancellation).2 := by
  have course : provider.Course workspace request context cancellation _ :=
    course_navigate workspace request context cancellation
  generalize provider.navigate workspace request context cancellation = navigated at course
  cases course with
  | refused sought => cases targeted.symm.trans sought
  | unknown sought => cases targeted.symm.trans sought
  | failed sought looked =>
      cases targeted.symm.trans sought
      rw [looked]
      simp [Disagrees]
  | @reached _ middle file sought looked =>
      cases targeted.symm.trans sought
      rw [looked]
      refine iff_of_false ?_ (by simp [Disagrees])
      rintro ⟨message, failed⟩
      cases written : (file.materialize middle.disk provider.options.mayWait).2 with
      | ok isNew =>
          rw [written] at failed
          cases failed
      | error failure =>
          obtain ⟨fault, rfl⟩ := file_of_materialize written
          rw [written] at failed
          cases failed

/-- The answer disagrees if and only if the project shows no file. -/
theorem Shown.disagrees_answer_iff
    {project : Project}
    {key : AssemblyKey}
    {files : List SourceFile}
    {expected : String}
    {answer : Except Failure GeneratedFile}
    (shown : Shown project key files expected answer) :
    Disagrees answer ↔ project.primary? expected = none := by
  rcases shown with ⟨nothing, message, rfl⟩ | ⟨source, -, document, shown, rfl⟩
  · exact iff_of_true ⟨message, rfl⟩ nothing
  · exact iff_of_false (by simp [Disagrees]) (by simp [shown])

/-- A run in which nobody listens is not cancelled. -/
theorem going_of_run
    {system : TypeSystem}
    {settings : Settings}
    {run : Run}
    (completed : (Job.new system settings).run false = .ok run) :
    run.cancelled = false := by
  obtain ⟨last, -, finished⟩ := Success.bind_eq_ok_iff.1 completed
  obtain ⟨⟨⟩, checked, finished⟩ := Success.bind_eq_ok_iff.1 finished
  rw [← Except.ok.inj finished]
  have going : last.cancelled = false := Job.check_eq_ok_iff.1 checked
  simp [Job.report, Job.new, going]

/-- Once the whole assembly is written, the project that is there, or else the one that is made, has
the files that were written, and the answer is what it shows. -/
theorem exists_shown
    {disk : Disk}
    {operations : List Operation}
    (steady : provider.Steady context disk operations)
    (apart : ∀ earlier, earlier <+: operations → (provider.after disk earlier).Apart)
    {request : Request}
    {target : Target}
    (sought : provider.found disk request context = .ok (some (provider.foundAt target)))
    (shows : target.decompilation = true)
    (bodies : ∀ project, (provider.after disk operations).project? target.key = some project →
      project.signaturesOnly = false)
    {run : Run}
    (completed : (Job.new (provider.foundAt target).system provider.options.settings).run false
      = .ok run)
    (topLevel : SymbolKey) :
    ∃ (project empty : Project) (owner : AssemblyKey),
      empty.documents = []
        ∧ project = empty.addAll ((provider.wholeFiles target.module run.sources).map (·.path))
        ∧ Shown project owner (provider.wholeFiles target.module run.sources)
            (provider.expectedPath topLevel)
            (provider.fileOf (provider.after disk operations) target topLevel .never).2 := by
  have consistent := provider.consistent_after disk operations
  cases present : (provider.after disk operations).project? target.key with
  | some project =>
      have isBodied := bodies project present
      obtain ⟨isProject, ownKey⟩ := consistent.project?_eq_some_iff.1 present
      obtain ⟨first, old, earlier, wasFound, complete⟩ :=
        settled_after steady project isProject isBodied
      have system : old.system = (provider.foundAt target).system :=
        steady.system_eq wasFound sought (complete.key ▸ ownKey)
      have sameRun : earlier = run := by
        have again := complete.completed
        rw [system, completed] at again
        exact (Except.ok.inj again).symm
      obtain ⟨empty, isEmpty, -, filled⟩ := complete.filled
      have shown := shown_of_present present isBodied consistent
        (provider.registered_after disk operations apart) complete topLevel .never
      rw [system, sameRun] at filled shown
      exact ⟨project, empty, project.key, isEmpty, filled, shown⟩
  | none =>
      have job : provider.job target .never
          = .new (provider.foundAt target).system provider.options.settings :=
        rfl
      obtain ⟨project, empty, -, ⟨isEmpty, -, filled⟩, shown⟩ :=
        shown_of_absent present shows (job ▸ completed) (going_of_run completed) topLevel
      exact ⟨project, empty, target.key, isEmpty, filled, shown⟩

/-- The file of a type is looked for under the name that is made from the name of the type. -/
theorem lastSegment_expectedPath
    (provider : Provider)
    {module : Module}
    {type : TypeDefinition}
    (isType : type ∈ module.topLevelTypes)
    {key : SymbolKey}
    (wanted : module.typeKey? type.token = some key) :
    Path.lastSegment (provider.expectedPath key) = withExtension type.name sourceExtension := by
  rw [Module.typeKey?, Module.typePath?_of_topLevel isType] at wanted
  have topLevel : SymbolKey.ofTypePath type.space [type.name] = key := Option.some.inj wanted
  rw [expectedPath, lastSegment_relativePath, ← topLevel]
  rfl

/-- Once the whole assembly is written, a request for a type with its body fails in this way if and
only if no source file has the name of the file of the type. It does not if some file holds the
type; and so it does not if the type is one of those that are written without being asked for, as
long as these do not lose their files. -/
theorem disagrees_iff
    (provider : Provider)
    (context : Context)
    (disk : Disk)
    (operations : List Operation)
    (steady : provider.Steady context disk operations)
    (apart : ∀ earlier, earlier <+: operations → (provider.after disk earlier).Apart)
    (request : Request)
    {found : Found}
    (sought : provider.found disk request context = .ok (some found))
    (shows : found.decompilation = true)
    (bodies : ∀ project, (provider.after disk operations).project? found.key = some project →
      project.signaturesOnly = false)
    {run : Run}
    (completed : (Job.new found.system provider.options.settings).run false = .ok run)
    {type : TypeDefinition}
    (isType : type ∈ found.system.main.topLevelTypes)
    (wanted : found.system.main.typeKey? type.token = some request.topLevel) :
    (Disagrees (provider.navigate (provider.after disk operations) request context .never).2
      ↔ ∀ file ∈ run.sources.files,
          sameIgnoringCase (Path.lastSegment file.path) (withExtension type.name sourceExtension)
            = false)
      ∧ ((∃ file ∈ run.sources.files, type.token ∈ file.types) →
          ¬ Disagrees
            (provider.navigate (provider.after disk operations) request context .never).2)
      ∧ (included provider.options.settings.concealment found.system.main type = true →
          (Job.new found.system provider.options.settings).Undisturbed →
          ¬ Disagrees
            (provider.navigate (provider.after disk operations) request context .never).2) := by
  obtain ⟨target, targeted, rfl⟩ :=
    exists_target_of_found ((steady.disks operations List.prefix_rfl request).symm.trans sought)
  obtain ⟨project, empty, owner, isEmpty, filled, shown⟩ :=
    exists_shown steady apart sought shows bodies completed request.topLevel
  have nameless : Disagrees
      (provider.navigate (provider.after disk operations) request context .never).2
        ↔ ∀ file ∈ run.sources.files,
            sameIgnoringCase (Path.lastSegment file.path)
              (withExtension type.name sourceExtension) = false := by
    rw [disagrees_navigate_iff targeted, shown.disagrees_answer_iff,
      Project.primary?_eq_none_iff isEmpty filled, provider.lastSegment_expectedPath isType wanted,
      List.forall_mem_map, wholeFiles, List.forall_mem_append]
    refine and_iff_left fun extra isExtra => ?_
    split at isExtra
    · rw [List.mem_singleton.1 isExtra, plainFile, Path.lastSegment,
        (safeSegment_withExtension _ isExtension_projectFile).1.segments_eq]
      exact sameIgnoringCase_projectFile _ _
    · exact absurd isExtra List.not_mem_nil
  have held : (∃ file ∈ run.sources.files, type.token ∈ file.types) →
      ¬ Disagrees (provider.navigate (provider.after disk operations) request context .never).2 := by
    rintro ⟨file, isFile, inFile⟩ disagrees
    have path := Job.sameIgnoringCase_of_mem_types (fun _ => List.Perm.refl _) completed isFile
      isType inFile
    have name := sameIgnoringCase_lastSegment path
    rw [lastSegment_relativePath, nameless.1 disagrees file isFile] at name
    cases name
  refine ⟨nameless, held, fun isIncluded undisturbed => held ?_⟩
  obtain ⟨i, unit, stays, inUnit⟩ :=
    (Job.sequence_run (fun _ => List.Perm.refl _) completed).stays (fun _ => List.Perm.refl _)
      undisturbed isType isIncluded
  obtain ⟨isFile, inFile⟩ := (Job.mem_types_iff completed _ _).2 ⟨i, unit, stays, inUnit, rfl⟩
  exact ⟨_, isFile, inFile⟩

end Provider

/-! ## Types without files -/

/-- A provider that finds the module in every image. -/
def providerOf (module : Module) : Provider :=
  ⟨"out", .default, fun _ => .ok module, .indenting, Markup.Library.documented_indenting⟩

/-- The wish to see a type with its body. -/
def wantType (space name : String) : Request :=
  ⟨.ofTypePath space [name], plainAssembly "Foo", false⟩

/-- A module with a type that compilers put into assemblies. -/
def embeddedSample : Module :=
  .ofTypes [.bare (.ofRow .typeDefinition 2) "Microsoft.CodeAnalysis" "EmbeddedAttribute"]

/-- The request for the type fails, though the type is in the module, the assembly is written, and
nobody cancels. -/
structure FailsOn (module : Module) (type : TypeDefinition) : Prop where
  isType : type ∈ module.topLevelTypes
  wanted : module.typeKey? type.token = some (wantType type.space type.name).topLevel
  sought : ∃ found,
    (providerOf module).found .empty (wantType type.space type.name) memoryContext
        = .ok (some found)
      ∧ found.system = ⟨module, []⟩
      ∧ found.decompilation = true
  written : ∃ run, (Job.new ⟨module, []⟩ .default).run false = .ok run
  disagrees : Disagrees ((providerOf module).navigate (.new .empty)
    (wantType type.space type.name) memoryContext .never).2

/-- What is found in an image at hand is the module that is read from it. -/
theorem found_wantType
    (types : List TypeDefinition)
    (space name : String) :
    (providerOf (.ofTypes types)).found .empty (wantType space name) memoryContext
      = .ok (some ⟨⟨"lib/Foo.dll", (Module.ofTypes types).mvid⟩, ⟨.ofTypes types, []⟩, true⟩) :=
  rfl

theorem typeKey?_wantType
    {module : Module}
    {type : TypeDefinition}
    (isType : type ∈ module.topLevelTypes) :
    module.typeKey? type.token = some (wantType type.space type.name).topLevel := by
  rw [Module.typeKey?, Module.typePath?_of_topLevel isType]
  rfl

/-- The answer is that generating and looking up have disagreed. -/
def isDisagreement {α : Type} : Except Failure α → Bool
  | .error (.invariant _) => true
  | _ => false

theorem disagrees_of_isDisagreement
    {α : Type}
    {answer : Except Failure α}
    (disagrees : isDisagreement answer = true) :
    Disagrees answer := by
  unfold isDisagreement at disagrees
  split at disagrees
  · next message => exact ⟨message, rfl⟩
  · cases disagrees

/-- A type that is not written without being asked for has no file. -/
theorem failsOn_embeddedSample :
    FailsOn embeddedSample
      (.bare (.ofRow .typeDefinition 2) "Microsoft.CodeAnalysis" "EmbeddedAttribute") := by
  have isType : .bare (.ofRow .typeDefinition 2) "Microsoft.CodeAnalysis" "EmbeddedAttribute"
      ∈ embeddedSample.topLevelTypes :=
    List.Mem.head _
  have written : ((Job.new ⟨embeddedSample, []⟩ .default).run false).toOption.any
      (fun _ => true) = true := by
    decide +kernel
  obtain ⟨run, completed, -⟩ := Success.exists_ok_of_any written
  exact ⟨isType, typeKey?_wantType isType, ⟨_, found_wantType _ _ _, rfl, rfl⟩, ⟨run, completed⟩,
    disagrees_of_isDisagreement (by decide +kernel)⟩

/-- Without operations before it, a request finds what it finds. -/
theorem steady_providerOf
    (module : Module)
    (context : Context)
    (disk : Disk) :
    (providerOf module).Steady context disk [] where
  contexts := fun _ _ _ isOperation => absurd isOperation List.not_mem_nil
  disks := by
    intro earlier isEarlier request
    rw [List.prefix_nil.1 isEarlier]
    rfl
  modules := by
    intro leftRequest rightRequest left right isLeft isRight _
    obtain ⟨target, targeted, rfl⟩ := Provider.exists_target_of_found isLeft
    obtain ⟨other, otherTargeted, rfl⟩ := Provider.exists_target_of_found isRight
    obtain ⟨-, image, isRead⟩ := Provider.read_of_target targeted
    obtain ⟨-, otherImage, otherRead⟩ := Provider.read_of_target otherTargeted
    exact Except.ok.inj (isRead.symm.trans otherRead)

/-- A type whose file was replaced by that of another has none. -/
theorem disagrees_accentSample :
    Disagrees ((providerOf Job.accentSample).navigate (.new .empty) (wantType "" "\u00c9")
      memoryContext .never).2 := by
  have isType : .bare (.ofRow .typeDefinition 2) "" "\u00c9" ∈ Job.accentSample.topLevelTypes :=
    List.Mem.head _
  have written : ((Job.new ⟨Job.accentSample, []⟩ .default).run false).toOption.any (fun run =>
      decide (run.draft.files.map (·.path) = ["\u00e9.cs", "Properties/AssemblyInfo.cs"]))
        = true := by
    decide +kernel
  obtain ⟨run, completed, paths⟩ := Success.exists_ok_of_any written
  refine ((providerOf Job.accentSample).disagrees_iff memoryContext .empty []
    (steady_providerOf _ _ _) (fun earlier isEarlier => ?_) (wantType "" "\u00c9")
    (found_wantType _ _ _) rfl (fun project present => ?_) completed isType
    (typeKey?_wantType isType)).1.2 fun file isFile => ?_
  · rw [List.prefix_nil.1 isEarlier]
    exact fun left isLeft => absurd isLeft List.not_mem_nil
  · cases present
  · have isPath := List.mem_map_of_mem (f := (·.path)) (SourceSet.mem_ofDraft_iff.1 isFile)
    rw [of_decide_eq_true paths] at isPath
    have differ : ∀ path ∈ ["\u00e9.cs", "Properties/AssemblyInfo.cs"],
        sameIgnoringCase (Path.lastSegment path) (withExtension "\u00c9" sourceExtension)
          = false := by
      decide +kernel
    exact differ file.path isPath

end Navigation
end AssemblyAtlas
