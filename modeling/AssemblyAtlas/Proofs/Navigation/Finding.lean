import AssemblyAtlas.Proofs.Navigation.History
import AssemblyAtlas.Proofs.Reference.OneFile

/-!
# What requests find

A request leads to an assembly with the modules that it refers to. If assemblies do not change, then
every request finds the same all the time. Keys tell assemblies apart: what is found with one key is
one module, if modules are read from files by their bytes.

* `Provider.found` is what a request finds, and `Provider.Steady` says that it stays the same;
* `Provider.steady_of_files` is about programs that refer to files.
-/

namespace AssemblyAtlas
namespace Navigation

open Declaration
open Reference

/-! ## What requests find -/

/-- The assembly that a request leads to, with the modules that it refers to. -/
structure Found where
  key : AssemblyKey
  system : TypeSystem
  decompilation : Bool

namespace Provider

variable (provider : Provider)

/-- The assembly of a target. -/
def foundAt (target : Target) : Found :=
  ⟨target.key, (target.resolver.typeSystem provider.read target.module).value,
    target.decompilation⟩

/-- What a request finds on a disk. -/
def found
    (disk : Disk)
    (request : Request)
    (context : Context) :
    Except Failure (Option Found) :=
  (provider.target disk request context).map (Option.map provider.foundAt)

/-- Every request finds the same on both disks. -/
def SameAssemblies (context : Context) (left right : Disk) : Prop :=
  ∀ request, provider.found left request context = provider.found right request context

/-- Requests come from one program, assemblies do not change, and a key stands for one module. -/
structure Steady
    (context : Context)
    (disk : Disk)
    (operations : List Operation) :
    Prop where
  contexts : ∀ request other cancellation,
    Operation.navigate request other cancellation ∈ operations → other = context
  disks : ∀ earlier, earlier <+: operations →
    provider.SameAssemblies context disk (provider.after disk earlier).disk
  modules : ∀ leftRequest rightRequest left right,
    provider.found disk leftRequest context = .ok (some left) →
    provider.found disk rightRequest context = .ok (some right) →
    left.key.Same right.key → left.system.main = right.system.main

variable
  {provider : Provider}
  {context : Context}
  {disk : Disk}
  {workspace after : Workspace}
  {operation : Operation}

theorem Steady.of_prefix
    {operations earlier : List Operation}
    (steady : provider.Steady context disk operations)
    (isPrefix : earlier <+: operations) :
    provider.Steady context disk earlier where
  contexts := fun request other cancellation isOperation =>
    steady.contexts request other cancellation (isPrefix.subset isOperation)
  disks := fun first isFirst => steady.disks first (isFirst.trans isPrefix)
  modules := steady.modules

/-- What is found has the target's assembly. -/
theorem exists_target_of_found
    {request : Request}
    {found : Found}
    (sought : provider.found disk request context = .ok (some found)) :
    ∃ target, provider.target disk request context = .ok (some target)
      ∧ found = provider.foundAt target := by
  rw [Provider.found] at sought
  cases targeted : provider.target disk request context with
  | error failure =>
      rw [targeted] at sought
      cases sought
  | ok target =>
      rw [targeted] at sought
      obtain ⟨own, rfl, rfl⟩ := Option.map_eq_some_iff.1 (Except.ok.inj sought)
      exact ⟨own, rfl, rfl⟩

theorem found_of_target
    {request : Request}
    {target : Target}
    (targeted : provider.target disk request context = .ok (some target)) :
    provider.found disk request context = .ok (some (provider.foundAt target)) := by
  rw [found, targeted]
  rfl

/-- The modules that an assembly refers to are looked for on the disk. -/
theorem resolver_of_target
    {request : Request}
    {target : Target}
    (targeted : provider.target disk request context = .ok (some target)) :
    target.resolver = ⟨context.compilation, disk⟩ := by
  obtain ⟨found, -, targeted⟩ := Success.bind_eq_ok_iff.1 targeted
  split at targeted
  · cases targeted
  · split at targeted
    · cases targeted
    · dsimp only at targeted
      split at targeted
      · cases targeted
      · obtain ⟨module, -, targeted⟩ := Success.bind_eq_ok_iff.1 targeted
        cases targeted
        rfl

/-- What is found twice with the same key is one system. -/
theorem Steady.system_eq
    {operations : List Operation}
    (steady : provider.Steady context disk operations)
    {leftRequest rightRequest : Request}
    {left right : Found}
    (isLeft : provider.found disk leftRequest context = .ok (some left))
    (isRight : provider.found disk rightRequest context = .ok (some right))
    (same : left.key.Same right.key) :
    left.system = right.system := by
  have main := steady.modules _ _ _ _ isLeft isRight same
  obtain ⟨leftTarget, leftSought, rfl⟩ := exists_target_of_found isLeft
  obtain ⟨rightTarget, rightSought, rfl⟩ := exists_target_of_found isRight
  have module : leftTarget.module = rightTarget.module := main
  rw [foundAt, foundAt, resolver_of_target leftSought, resolver_of_target rightSought, module]

/-- Without images at hand, a reference that is followed is one to a file. -/
theorem image_of_reference
    (files : ∀ assembly reference, context.compilation.reference? assembly = some reference →
      reference.image = none)
    {request : Request}
    {reference : MetadataReference}
    {isReference : Bool}
    (referred : provider.reference disk request context = .ok (some (reference, isReference))) :
    reference.image = none := by
  rw [Provider.reference] at referred
  split at referred
  · cases referred
  · next own known =>
      dsimp only at referred
      split at referred
      · cases referred
        exact files _ _ known
      · split at referred
        · cases referred
          rfl
        · cases referred

/-- The module of a target was read from the file that the key names. -/
theorem image_of_target
    (files : ∀ assembly reference, context.compilation.reference? assembly = some reference →
      reference.image = none)
    {request : Request}
    {target : Target}
    (targeted : provider.target disk request context = .ok (some target)) :
    ∃ image, Image.ofFile disk target.key.path .entireImage = .ok image
      ∧ provider.read image = .ok target.module := by
  obtain ⟨found, referred, targeted⟩ := Success.bind_eq_ok_iff.1 targeted
  split at targeted
  · cases targeted
  · next reference isReference =>
      have onDisk := image_of_reference files referred
      split at targeted
      · cases targeted
      · next path named =>
          dsimp only at targeted
          split at targeted
          · cases targeted
          · next image loaded =>
              obtain ⟨module, isRead, targeted⟩ := Success.bind_eq_ok_iff.1 targeted
              cases targeted
              refine ⟨image, ?_, isRead⟩
              simp only [Resolver.load, onDisk, named, Traced.after] at loaded
              split at loaded
              · rw [Resolver.openFile] at loaded
                split at loaded
                · next isOpen => exact isOpen.trans (congrArg Except.ok (Option.some.inj loaded))
                · cases loaded
              · cases loaded

/-- Requests are steady if they come from one program that refers to files, if these do not change,
and if modules are read by their bytes. -/
theorem steady_of_files
    {operations : List Operation}
    (contexts : ∀ request other cancellation,
      Operation.navigate request other cancellation ∈ operations → other = context)
    (disks : ∀ earlier, earlier <+: operations →
      provider.SameAssemblies context disk (provider.after disk earlier).disk)
    (files : ∀ assembly reference, context.compilation.reference? assembly = some reference →
      reference.image = none)
    (bytes : ∀ image other : Image, image.data = other.data →
      provider.read image = provider.read other) :
    provider.Steady context disk operations where
  contexts := contexts
  disks := disks
  modules := by
    intro leftRequest rightRequest left right isLeft isRight same
    obtain ⟨target, targeted, rfl⟩ := exists_target_of_found isLeft
    obtain ⟨other, otherTargeted, rfl⟩ := exists_target_of_found isRight
    obtain ⟨image, isOpen, isRead⟩ := image_of_target files targeted
    obtain ⟨otherImage, otherOpen, otherRead⟩ := image_of_target files otherTargeted
    have data := data_eq_of_same same.1 isOpen otherOpen
    rw [bytes _ _ data, otherRead] at isRead
    exact (Except.ok.inj isRead).symm

end Provider

end Navigation
end AssemblyAtlas
