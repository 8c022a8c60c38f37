import AssemblyAtlas.Proofs.Navigation.Confinement
import AssemblyAtlas.Proofs.Navigation.Wholeness

/-!
# Asking again

A project with bodies has the same files as the project that a new provider would make. So it shows
the same file for a type. But it stands in the directory that was named when the project was made,
by the key as it was spelled then, and a new provider names it by the key of the request.

* `Provider.shown_of_present` and `Provider.shown_of_absent` are about the files that are shown;
* `Provider.alike_iff` compares the answers of a provider with those of a new one;
* `differ_spelledContext` is about one file by two paths.
-/

namespace AssemblyAtlas
namespace Navigation

open Assembly
open Reference
open Sources
open Text

namespace Provider

variable {provider : Provider} {context : Context} {workspace : Workspace}

/-! ## Answers -/

/-- The answer is the file that a project shows for a type. If it shows none, then the library
disagrees with itself. -/
def Shown
    (project : Project)
    (key : AssemblyKey)
    (files : List SourceFile)
    (expected : String)
    (answer : Except Failure GeneratedFile) :
    Prop :=
  (project.primary? expected = none ∧ ∃ message, answer = .error (.invariant message))
    ∨ ∃ source ∈ files, ∃ document,
        project.primary? expected = some source.path
          ∧ answer = .ok (generated project key document source)

/-- A complete project shows its files. -/
theorem shown_of_present
    {target : Target}
    {project : Project}
    (present : workspace.project? target.key = some project)
    (bodies : project.signaturesOnly = false)
    (consistent : workspace.Consistent provider.root)
    (registered : workspace.Registered)
    {found : Found}
    {run : Run}
    (complete : provider.Complete workspace.index project found run)
    (topLevel : SymbolKey)
    (cancellation : Cancellation) :
    Shown project project.key (provider.wholeFiles found.system.main run.sources)
      (provider.expectedPath topLevel)
      (provider.fileOf workspace target topLevel cancellation).2 := by
  obtain ⟨isProject, -⟩ := consistent.project?_eq_some_iff.1 present
  rw [fileOf, present]
  dsimp only
  rw [cachedFile]
  cases shown : project.primary? (provider.expectedPath topLevel) with
  | none =>
      simp only [Option.bind_none, bodies, Bool.false_eq_true, ↓reduceIte]
      exact Or.inl ⟨shown, _, rfl⟩
  | some path =>
      obtain ⟨document, isDocument, rfl⟩ := Project.mem_of_primary? shown
      obtain ⟨file, isFound, own⟩ := registered.occupied project isProject document isDocument
      obtain ⟨source, isSource, id, samePath, isFile⟩ :=
        complete.exists_source consistent isProject isDocument isFound own
      simp only [Option.bind_some, isFound]
      exact Or.inr ⟨source, isSource, id, by rw [shown, samePath], congrArg Except.ok isFile⟩

/-- Where there is no project, one is made with the files of the whole assembly. -/
theorem fileOf_of_absent
    {target : Target}
    (absent : workspace.project? target.key = none)
    (shows : target.decompilation = true)
    {cancellation : Cancellation}
    {run : Run}
    (completed : (provider.job target cancellation).run cancellation.early = .ok run)
    (topLevel : SymbolKey) :
    provider.fileOf workspace target topLevel cancellation
      = provider.fill
          { workspace with
            decompilations := workspace.decompilations + 1
            reports := workspace.reports ++ run.reports }
          target topLevel (provider.emptyProject workspace target (some run.sources))
          (provider.wholeFiles target.module run.sources) run.cancelled := by
  rw [fileOf, absent]
  dsimp only
  rw [firstFile, if_pos shows, decompile_of_run completed]
  dsimp only
  rw [createProject]
  dsimp only
  rw [projectFiles_of_sources rfl]
  rfl

/-- Where there is no project, one is made with the files of the whole assembly, and shows its
files. -/
theorem shown_of_absent
    {target : Target}
    (absent : workspace.project? target.key = none)
    (shows : target.decompilation = true)
    {cancellation : Cancellation}
    {run : Run}
    (completed : (provider.job target cancellation).run cancellation.early = .ok run)
    (going : run.cancelled = false)
    (topLevel : SymbolKey) :
    ∃ project empty : Project,
      (project.key = target.key
        ∧ project.signaturesOnly = false
        ∧ project.directory = Path.join provider.root target.key.directoryName)
      ∧ (empty.documents = [] ∧ empty.nextDocument = 0
        ∧ project = empty.addAll ((provider.wholeFiles target.module run.sources).map (·.path)))
      ∧ Shown project target.key (provider.wholeFiles target.module run.sources)
          (provider.expectedPath topLevel)
          (provider.fileOf workspace target topLevel cancellation).2 := by
  refine ⟨_, provider.emptyProject workspace target (some run.sources),
    ⟨Project.addAll_key _ _, Project.addAll_signaturesOnly _ _, Project.addAll_directory _ _⟩,
    ⟨rfl, rfl, rfl⟩, ?_⟩
  rw [fileOf_of_absent absent shows completed, going, fill]
  cases shown : ((provider.emptyProject workspace target (some run.sources)).addAll
      ((provider.wholeFiles target.module run.sources).map (·.path))).primary?
      (provider.expectedPath topLevel) with
  | none => exact Or.inl ⟨shown, _, rfl⟩
  | some primary =>
      obtain ⟨file, document, last, found⟩ := exists_wanted rfl shown
      obtain ⟨isFile, path⟩ := List.mem_filter.1 (List.mem_of_getLast? last)
      simp only [Bool.false_eq_true, if_false, last, found, Option.bind_some, Option.map_some]
      exact Or.inr ⟨file, isFile, document, by rw [shown, eq_of_beq path], rfl⟩

/-- What is answered with the file that was looked up. -/
def deliver
    (provider : Provider)
    (request : Request) :
    Workspace × Except Failure GeneratedFile → Workspace × Except Failure (Option Destination)
  | (workspace, .error failure) => (workspace, .error failure)
  | (workspace, .ok file) =>
      let written := file.materialize workspace.disk provider.options.mayWait
      ({ workspace with disk := written.1 },
        written.2.map fun _ => some (destination request.symbol file))

theorem navigate_eq_deliver
    {request : Request}
    {target : Target}
    {cancellation : Cancellation}
    (targeted : provider.target workspace.disk request context = .ok (some target)) :
    provider.navigate workspace request context cancellation
      = provider.deliver request
          (provider.fileOf workspace target request.topLevel cancellation) := by
  rw [navigate, targeted]
  dsimp only
  cases looked : provider.fileOf workspace target request.topLevel cancellation with
  | mk middle result =>
      cases result with
      | error failure => rfl
      | ok file =>
          dsimp only [deliver]
          cases (file.materialize middle.disk provider.options.mayWait).2 <;> rfl

/-- Where the disk does not fail, the answer is the place in the file. -/
theorem answer_of_fileOf
    {request : Request}
    {target : Target}
    {cancellation : Cancellation}
    (targeted : provider.target workspace.disk request context = .ok (some target))
    (written : ∀ fault,
      (provider.navigate workspace request context cancellation).2 ≠ .error (.file fault)) :
    (provider.navigate workspace request context cancellation).2
      = (provider.fileOf workspace target request.topLevel cancellation).2.map fun file =>
          some (destination request.symbol file) := by
  rw [navigate_eq_deliver targeted] at written ⊢
  cases looked : provider.fileOf workspace target request.topLevel cancellation with
  | mk middle result =>
      cases result with
      | error failure => rfl
      | ok file =>
          simp only [looked, deliver] at written ⊢
          cases made : (file.materialize middle.disk provider.options.mayWait).2 with
          | ok isNew => rfl
          | error failure =>
              obtain ⟨fault, rfl⟩ := file_of_materialize made
              rw [made] at written
              exact absurd rfl (written fault)

/-- Both answers are the same place, or in both cases the library disagrees with itself. -/
def Alike (left right : Except Failure (Option Destination)) : Prop :=
  (∃ place, left = .ok (some place) ∧ right = .ok (some place))
    ∨ ∃ message other, left = .error (.invariant message) ∧ right = .error (.invariant other)

/-- A place in a file depends on the path of the file, its symbols, and whether it has bodies. -/
theorem destination_congr
    {left right : GeneratedFile}
    (path : left.path = right.path)
    (bodies : left.signaturesOnly = right.signaturesOnly)
    (symbols : left.symbols = right.symbols)
    {symbol : SymbolKey} :
    destination symbol left = destination symbol right := by
  cases left
  cases right
  subst path bodies symbols
  rfl

/-- Two projects with the same documents lead to the same places if and only if they show no file,
or their directories have the same name. -/
theorem alike_iff_of_shown
    {root : String}
    {left right : Project}
    (documents : left.documents = right.documents)
    (bodies : left.signaturesOnly = right.signaturesOnly)
    (leftHoused : left.directory = Path.join root left.key.directoryName)
    (rightHoused : right.directory = Path.join root right.key.directoryName)
    (safe : ∀ document ∈ left.documents, FileName.SafePath document.path)
    {files : List SourceFile}
    (distinct : files.Pairwise fun left right => lowercase left.path ≠ lowercase right.path)
    {expected : String}
    {leftFile rightFile : Except Failure GeneratedFile}
    (leftShown : Shown left left.key files expected leftFile)
    (rightShown : Shown right right.key files expected rightFile)
    (symbol : SymbolKey) :
    Alike (leftFile.map fun file => some (destination symbol file))
        (rightFile.map fun file => some (destination symbol file))
      ↔ left.primary? expected = none ∨ left.key.directoryName = right.key.directoryName := by
  have same : right.primary? expected = left.primary? expected := by
    rw [Project.primary?, Project.primary?, documents]
  rcases leftShown with ⟨nothing, message, rfl⟩ | ⟨source, isSource, id, shown, rfl⟩
  · refine ⟨fun _ => Or.inl nothing, fun _ => Or.inr ?_⟩
    rcases rightShown with ⟨-, other, rfl⟩ | ⟨wanted, -, -, shown, -⟩
    · exact ⟨message, other, rfl, rfl⟩
    · rw [same, nothing] at shown
      cases shown
  · rcases rightShown with ⟨nothing, -⟩ | ⟨wanted, isWanted, other, alsoShown, rfl⟩
    · rw [same, shown] at nothing
      cases nothing
    have path : source.path = wanted.path := by
      rw [same, shown] at alsoShown
      exact Option.some.inj alsoShown
    obtain rfl : source = wanted :=
      SourceFile.eq_of_lowercase distinct isSource isWanted (congrArg lowercase path)
    obtain ⟨document, isDocument, isPath⟩ := Project.mem_of_primary? shown
    have relative : Path.isAbsolute source.path = false :=
      isPath ▸ (safe document isDocument).relative
    constructor
    · rintro (⟨place, leftPlace, rightPlace⟩ | ⟨message, -, refused, -⟩)
      · have places := leftPlace.trans rightPlace.symm
        have absolute : left.absolute source.path = right.absolute source.path :=
          congrArg Destination.path (Option.some.inj (Except.ok.inj places))
        rw [Project.absolute, Project.absolute, leftHoused, rightHoused] at absolute
        exact Or.inr ((GeneratedFile.indexKey_inj relative relative).1
          (congrArg GeneratedFile.indexKey absolute)).1
      · cases refused
    · rintro (nothing | names)
      · cases shown.symm.trans nothing
      · have absolute : left.absolute source.path = right.absolute source.path := by
          rw [Project.absolute, Project.absolute, leftHoused, rightHoused, names]
        have place : destination symbol (generated right right.key other source)
            = destination symbol (generated left left.key id source) := by
          refine destination_congr ?_ bodies.symm ?_
          · exact absolute.symm
          · rfl
        exact Or.inl ⟨_, rfl, congrArg (fun place => Except.ok (some place)) place⟩

/-- A provider with a project with bodies answers a request like a new provider if and only if the
project shows no file for the type, or the keys of the project and the request name directories
with the same name. -/
theorem alike_iff
    (provider : Provider)
    (context : Context)
    (disk fresh : Disk)
    (operations : List Operation)
    (steady : provider.Steady context disk operations)
    (same : provider.SameAssemblies context disk fresh)
    (apart : ∀ earlier, earlier <+: operations → (provider.after disk earlier).Apart)
    (request : Request)
    {found : Found}
    (sought : provider.found disk request context = .ok (some found))
    (shows : found.decompilation = true)
    {project : Project}
    (present : (provider.after disk operations).project? found.key = some project)
    (bodies : project.signaturesOnly = false)
    (written : ∀ fault,
      (provider.navigate (provider.after disk operations) request context .never).2
        ≠ .error (.file fault))
    (writtenFirst : ∀ fault,
      (provider.navigate (.new fresh) request context .never).2 ≠ .error (.file fault)) :
    Alike (provider.navigate (provider.after disk operations) request context .never).2
        (provider.navigate (.new fresh) request context .never).2
      ↔
    project.primary? (provider.expectedPath request.topLevel) = none
      ∨ project.key.directoryName = found.key.directoryName := by
  have consistent := provider.consistent_after disk operations
  have registered := provider.registered_after disk operations apart
  obtain ⟨isProject, ownKey⟩ := consistent.project?_eq_some_iff.1 present
  obtain ⟨first, old, run, wasFound, complete⟩ := settled_after steady project isProject bodies
  have system : old.system = found.system :=
    steady.system_eq wasFound sought (complete.key ▸ ownKey)
  -- Both providers have a target with what was found.
  obtain ⟨target, targeted, seen⟩ :=
    exists_target_of_found ((steady.disks operations List.prefix_rfl request).symm.trans sought)
  obtain ⟨again, targetedFirst, seenFirst⟩ :=
    exists_target_of_found ((same request).symm.trans sought)
  have key : target.key = found.key := (congrArg Found.key seen).symm
  have keyFirst : again.key = found.key := (congrArg Found.key seenFirst).symm
  have main : again.module = old.system.main := by
    rw [system, seenFirst]
    rfl
  have completed : (provider.job again .never).run false = .ok run := by
    have job : provider.job again .never = .new old.system provider.options.settings := by
      rw [system, seenFirst]
      rfl
    rw [job]
    exact complete.completed
  have shown := shown_of_present (key ▸ present) bodies consistent registered complete
    request.topLevel .never
  have showsFirst : again.decompilation = true := by
    rw [← shows, seenFirst]
    rfl
  obtain ⟨other, empty, ⟨otherKey, otherBodies, otherHoused⟩, ⟨isEmpty, next, filled⟩,
      shownFirst⟩ :=
    @shown_of_absent provider (.new fresh) again rfl showsFirst .never run completed complete.going
      request.topLevel
  -- So they have projects with the same documents.
  obtain ⟨start, isStart, startNext, startFilled⟩ := complete.filled
  have documents : project.documents = other.documents := by
    rw [startFilled, filled, main]
    exact Project.addAll_congr (isStart.trans isEmpty.symm) (startNext.trans next.symm) _
  rw [main, ← otherKey] at shownFirst
  rw [← otherKey] at otherHoused
  rw [← keyFirst, ← otherKey]
  have targetedNew : provider.target (Workspace.new fresh).disk request context
      = .ok (some again) :=
    targetedFirst
  refine (iff_of_eq (congrArg₂ Alike (answer_of_fileOf targeted written)
    (answer_of_fileOf targetedNew writtenFirst))).trans ?_
  exact alike_iff_of_shown documents (bodies.trans otherBodies.symm)
    (consistent.housed project isProject) otherHoused (consistent.safe project isProject)
    (pairwise_wholeFiles List.Perm.refl complete.completed _) shown shownFirst
    request.symbol

end Provider

/-! ## An assembly at hand -/

/-- The wish to see a type of an assembly with its body. -/
def wantIn (assembly space name : String) : Request :=
  ⟨.ofTypePath space [name], plainAssembly assembly, false⟩

/-- A program that refers to an image at hand. -/
def memoryContext : Context :=
  ⟨.ofList [(plainAssembly "Foo",
    some (.ofImage "Foo" ⟨some "lib/Foo.dll", .entireImage, [0]⟩))], .csharp⟩

/-- The key of the image. -/
def memoryKey : AssemblyKey :=
  ⟨"lib/Foo.dll", spelledModule.mvid⟩

/-- Another type of the assembly was wanted before. -/
def memoryOperations : List Operation :=
  [.navigate (wantIn "Foo" "B" "Gadget") memoryContext .never]

/-- The disk has no part in what is found. -/
theorem found_memoryContext (disk : Disk) (request : Request) :
    spelledProvider.found disk request memoryContext
      = .ok (if request.assembly = plainAssembly "Foo" then
          some ⟨memoryKey, ⟨spelledModule, []⟩, !request.signaturesOnly⟩
        else
          none) := by
  obtain ⟨symbol, assembly, signaturesOnly⟩ := request
  by_cases known : assembly = plainAssembly "Foo"
  · subst known
    cases signaturesOnly <;> rfl
  · have absent : memoryContext.compilation.reference? assembly = none := by
      rw [memoryContext]
      dsimp only [Compilation.ofList]
      rw [List.find?_singleton, if_neg (by simpa using Ne.symm known)]
      rfl
    rw [Provider.found, Provider.target, Provider.reference, absent, if_neg known]
    rfl

theorem steady_memoryContext (disk : Disk) :
    spelledProvider.Steady memoryContext disk memoryOperations where
  contexts := by
    intro request other cancellation isOperation
    cases List.mem_singleton.1 isOperation
    rfl
  disks := fun earlier isEarlier request => by
    rw [found_memoryContext, found_memoryContext]
  modules := by
    intro leftRequest rightRequest left right isLeft isRight same
    rw [found_memoryContext, Except.ok.injEq, Option.ite_none_right_eq_some] at isLeft isRight
    rw [← Option.some.inj isLeft.2, ← Option.some.inj isRight.2]

/-- Everything that is written of the module. -/
def spelledRun : Run :=
  ((Job.new ⟨spelledModule, []⟩ .default).run false).toOption.getD (.start false)

theorem run_spelledModule :
    (Job.new ⟨spelledModule, []⟩ .default).run false = .ok spelledRun := by
  have isOk : ((Job.new ⟨spelledModule, []⟩ .default).run false).toOption.any
      (fun _ => true) = true := by
    decide +kernel
  obtain ⟨run, completed, -⟩ := Success.exists_ok_of_any isOk
  rw [spelledRun, completed]
  rfl

/-- The files are written in the order of their paths. -/
theorem sources_spelledRun :
    spelledRun.sources = ⟨spelledRun.draft.files⟩ := by
  have sorted : spelledRun.draft.files.Pairwise fun left right =>
      (!decide (right.path < left.path)) = true := by
    decide +kernel
  exact congrArg SourceSet.mk (List.mergeSort_of_pairwise sorted)

/-- The workspace has one project. It is for the key, has bodies, and stands in the directory that
the key names. -/
def Workspace.isFor (workspace : Workspace) (key : AssemblyKey) : Bool :=
  match workspace.projects with
  | [project] =>
      decide (project.key.Same key ∧ project.signaturesOnly = false
        ∧ project.key.directoryName = key.directoryName)
  | _ => false

theorem Workspace.exists_project_of_isFor
    {workspace : Workspace}
    {key : AssemblyKey}
    (single : workspace.isFor key = true) :
    ∃ project, workspace.projects = [project] ∧ workspace.project? key = some project
      ∧ project.signaturesOnly = false ∧ project.key.directoryName = key.directoryName := by
  rw [isFor] at single
  split at single
  · next project projects =>
      obtain ⟨same, bodies, names⟩ := of_decide_eq_true single
      refine ⟨project, projects, ?_, bodies, names⟩
      rw [project?, projects, List.find?_singleton, if_pos (decide_eq_true same)]
  · cases single

/-- The first request for a type of the module with its body is answered with a file of the run. -/
theorem navigate_spelledModule
    {disk : Disk}
    {request : Request}
    {context : Context}
    {target : Target}
    (targeted : spelledProvider.target disk request context = .ok (some target))
    (shows : target.decompilation = true)
    (system : (target.resolver.typeSystem spelledProvider.read target.module).value
      = ⟨spelledModule, []⟩) :
    spelledProvider.navigate (.new disk) request context .never
      = spelledProvider.deliver request (spelledProvider.fill
          { Workspace.new disk with decompilations := 1, reports := spelledRun.reports }
          target request.topLevel
          (spelledProvider.emptyProject (.new disk) target (some ⟨spelledRun.draft.files⟩))
          (spelledProvider.wholeFiles target.module ⟨spelledRun.draft.files⟩)
          spelledRun.cancelled) := by
  have completed : (spelledProvider.job target .never).run false = .ok spelledRun := by
    rw [Provider.job, system]
    exact run_spelledModule
  have asked : spelledProvider.target (Workspace.new disk).disk request context
      = .ok (some target) := targeted
  rw [Provider.navigate_eq_deliver asked,
    Provider.fileOf_of_absent rfl shows completed, sources_spelledRun]
  rfl

/-- Whoever wants a further type gets the answer that a new provider gives. -/
theorem alike_memoryContext :
    Provider.Alike
      (spelledProvider.navigate (spelledProvider.after .empty memoryOperations)
        (wantIn "Foo" "A" "Widget") memoryContext .never).2
      (spelledProvider.navigate (.new .empty) (wantIn "Foo" "A" "Widget") memoryContext
        .never).2 := by
  have first (space name : String) :=
    @navigate_spelledModule .empty (wantIn "Foo" space name) memoryContext _ rfl rfl rfl
  have single : (spelledProvider.after .empty memoryOperations).isFor memoryKey = true := by
    rw [memoryOperations, Provider.after, List.foldl_cons, List.foldl_nil, Provider.perform, first]
    decide +kernel
  obtain ⟨project, projects, present, bodies, names⟩ := Workspace.exists_project_of_isFor single
  have answered {answer : Except Failure (Option Destination)} (isOk : answer.isOk = true)
      (fault : FileFault) : answer ≠ .error (.file fault) := by
    rintro rfl
    cases isOk
  have apart : ∀ earlier, earlier <+: memoryOperations →
      (spelledProvider.after .empty earlier).Apart := by
    intro earlier isEarlier
    rcases List.prefix_cons_iff.1 isEarlier with rfl | ⟨rest, rfl, isRest⟩
    · exact fun left isLeft => absurd isLeft List.not_mem_nil
    · rw [List.prefix_nil.1 isRest]
      exact Workspace.apart_of_length_le_one (congrArg List.length projects).le
  refine (spelledProvider.alike_iff memoryContext .empty .empty memoryOperations
    (steady_memoryContext .empty) (fun _ => rfl) apart (wantIn "Foo" "A" "Widget")
    (found_memoryContext .empty _) rfl present bodies (answered ?_) (answered ?_)).2 (Or.inr names)
  · rw [memoryOperations, Provider.after, List.foldl_cons, List.foldl_nil, Provider.perform, first]
    decide +kernel
  · rw [first]
    decide +kernel

/-! ## One file by two paths -/

/-- The answers are places in different files. -/
def differ (left right : Except Failure (Option Destination)) : Bool :=
  match left, right with
  | .ok (some left), .ok (some right) => decide (left.path ≠ right.path)
  | _, _ => false

theorem exists_places_of_differ
    {left right : Except Failure (Option Destination)}
    (differs : differ left right = true) :
    ∃ place other, left = .ok (some place) ∧ right = .ok (some other)
      ∧ place.path ≠ other.path := by
  unfold differ at differs
  split at differs
  · exact ⟨_, _, rfl, rfl, of_decide_eq_true differs⟩
  · cases differs

/-- The file is found by a path at which it can be read. -/
theorem target_spelledContext
    (assembly space name : String)
    {path : String}
    (refers : spelledContext.compilation.reference? (plainAssembly assembly) = some (.ofFile path))
    (loads : (Resolver.load ⟨spelledContext.compilation, spelledDisk⟩ (.ofFile path)
      .entireImage).value.isSome = true) :
    spelledProvider.target spelledDisk (wantIn assembly space name) spelledContext
      = .ok (some ⟨⟨path, spelledModule.mvid⟩, spelledModule,
          ⟨spelledContext.compilation, spelledDisk⟩, true⟩) := by
  obtain ⟨image, loaded⟩ := Option.isSome_iff_exists.1 loads
  have referred : spelledProvider.reference spelledDisk (wantIn assembly space name) spelledContext
      = .ok (some (.ofFile path, false)) := by
    rw [Provider.reference, wantIn]
    dsimp only
    rw [refers]
    rfl
  rw [Provider.target, referred]
  dsimp only [bind, Except.bind]
  rw [loaded]
  rfl

/-- Where another type was wanted by one path of the file, a type is not shown by the other path as
a new provider shows it. -/
theorem differ_spelledContext :
    ∃ place other,
      (spelledProvider.navigate
          (spelledProvider.after spelledDisk
            [.navigate (wantIn "Foo" "B" "Gadget") spelledContext .never])
          (wantIn "Bar" "A" "Widget") spelledContext .never).2 = .ok (some place)
        ∧ (spelledProvider.navigate (.new spelledDisk) (wantIn "Bar" "A" "Widget") spelledContext
            .never).2 = .ok (some other)
        ∧ place.path ≠ other.path := by
  have first :=
    navigate_spelledModule (target_spelledContext "Foo" "B" "Gadget" rfl (by decide +kernel))
      rfl rfl
  have fresh :=
    navigate_spelledModule (target_spelledContext "Bar" "A" "Widget" rfl (by decide +kernel))
      rfl rfl
  refine exists_places_of_differ ?_
  rw [Provider.after, List.foldl_cons, List.foldl_nil, Provider.perform, first, fresh]
  decide +kernel

end Navigation
end AssemblyAtlas
