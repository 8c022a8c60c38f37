import AssemblyAtlas.Navigation.GeneratedFile
import AssemblyAtlas.Proofs.Disk.Made
import Mathlib.Data.List.Infix

/-!
# Files that are written once

Several calls may be on their way to write generated files, and others may change the disk at any
time. Each call looks whether its path is free, looks for the directory and makes it as long as
there is time, and then makes the file, which must be new. Between any two of these steps anything
may happen.

* `Writing.Call.step` is one step of a call, and `Writing.Scene.run` a course of events;
  `Writing.Scene.run_turns` says that a call whose steps are not interrupted does what the program
  does in a row;
* `Writing.Faithful` says that a call leaves alone what is there, and tells whether it made its
  file; `Writing.Call.faithful_step` is about one step, `Writing.Scene.faithful_run` about a course;
* `Writing.Scene.writers_run` counts the calls that write to one path;
* `Writing.writeOnce_path` makes a file where one can be made;
* `Writing.written_once` is all this together; `Writing.written_once_sharedFile` is about two calls.
-/

namespace AssemblyAtlas
namespace Navigation
namespace Writing

/-! ## Calls -/

/-- What is asked for: that a file is written, or the file that an index has for a path. -/
inductive Job where
  | materialize (file : GeneratedFile)
  | ensure (index : FileIndex) (path : String)

namespace Job

/-- The file that is to be written. -/
def file? : Job → Option GeneratedFile
  | materialize file => some file
  | ensure index path => index.find? path

/-- All steps in a row. -/
def serve (disk : Disk) (mayWait : Bool) : Job → Disk × Except Failure Bool
  | materialize file => file.materialize disk mayWait
  | ensure index path => index.ensure disk path mayWait

end Job

/-- How far a call has come. -/
inductive Phase where
  | asked
  /-- The path was free. -/
  | waiting
  /-- The directory was missing. -/
  | making (directory : String)
  /-- The directory was there. -/
  | ready
  | done (answer : Except Failure Bool)

/-- The call has ended, and says that it wrote its file. -/
def Phase.hasWritten : Phase → Bool
  | done (.ok true) => true
  | _ => false

theorem Phase.eq_of_hasWritten
    {phase : Phase}
    (isWritten : phase.hasWritten = true) :
    phase = .done (.ok true) := by
  unfold hasWritten at isWritten
  split at isWritten
  · rfl
  · cases isWritten

/-- A call on its way. -/
structure Call where
  job : Job
  phase : Phase

/-- The call says that it wrote a file to the path. -/
def Call.wrote (path : String) (call : Call) : Bool :=
  call.phase.hasWritten && call.job.file?.any (·.path = path)

/-- The next step to a file. Whether there is time left is known only when it is asked for. -/
def Phase.step
    (file : GeneratedFile)
    (disk : Disk)
    (hasTime : Bool) :
    Phase → Disk × Phase
  | asked => if isFree disk file.path then (disk, waiting) else (disk, done (.ok false))
  | waiting =>
      match Path.parent? file.path with
      | none => (disk, ready)
      | some directory =>
          if disk.isDirectory directory then
            (disk, ready)
          else if hasTime then
            (disk, making directory)
          else
            (disk, done (.ok false))
  | making directory => ((disk.makeDirectories directory).1, waiting)
  | ready =>
      match create disk file.path file.text with
      | .ok created => (created.1, done (.ok created.2))
      | .error failure => (disk, done (.error failure))
  | done answer => (disk, done answer)

/-- The end of a call for which there is no file. -/
def Phase.giveUp : Phase → Phase
  | done answer => done answer
  | _ => done (.ok false)

theorem Phase.hasWritten_giveUp (phase : Phase) :
    phase.giveUp.hasWritten = phase.hasWritten := by
  cases phase <;> rfl

/-- The next step of a call. -/
def Call.step (call : Call) (disk : Disk) (hasTime : Bool) : Disk × Phase :=
  match call.job.file? with
  | some file => call.phase.step file disk hasTime
  | none => (disk, call.phase.giveUp)

/-- A call that has written its file does nothing more. -/
theorem Call.step_of_hasWritten
    {call : Call}
    (isWritten : call.phase.hasWritten = true)
    (disk : Disk)
    (hasTime : Bool) :
    (call.step disk hasTime).2 = call.phase := by
  rw [step, call.phase.eq_of_hasWritten isWritten]
  split <;> rfl

/-! ## What a call does to a disk -/

/-- A call that changed disks by its steps left alone what was there, and tells whether it made its
file, with its text and protected. If it did not, it made none. -/
structure Faithful (job : Job) (actions : List (Disk × Disk)) (written : Prop) : Prop where
  kept : ∀ action ∈ actions, ∀ path found,
    action.1.lookup path = .ok found → action.2.lookup path = .ok found
  written_iff : written ↔ ∃ file, job.file? = some file
    ∧ ∃ action ∈ actions, action.1.Creates action.2 file.path file.text
  otherwise : ¬written → ∀ action ∈ actions, action.1.SameFiles action.2

namespace Faithful

variable {job : Job} {before after : Disk} {written : Prop}

theorem nil
    (unwritten : ¬written) :
    Faithful job [] written where
  kept := List.forall_mem_nil _
  written_iff := ⟨fun isWritten => absurd isWritten unwritten, by simp⟩
  otherwise := fun _ => List.forall_mem_nil _

theorem quiet
    (kept : Disk.Kept before after)
    (same : Disk.SameFiles before after)
    (unwritten : ¬written) :
    Faithful job [(before, after)] written where
  kept := List.forall_mem_singleton.2 fun _ _ looked => kept.lookup looked
  written_iff := by
    refine ⟨fun isWritten => absurd isWritten unwritten, ?_⟩
    rintro ⟨file, -, action, member, creates⟩
    obtain rfl := List.mem_singleton.1 member
    exact absurd creates (same.not_creates _ _)
  otherwise := fun _ => List.forall_mem_singleton.2 same

theorem still
    (disk : Disk)
    (unwritten : ¬written) :
    Faithful job [(disk, disk)] written :=
  .quiet (.refl disk) (.refl disk) unwritten

theorem created
    {file : GeneratedFile}
    (asked : job.file? = some file)
    (kept : Disk.Kept before after)
    (creates : Disk.Creates before after file.path file.text)
    (isWritten : written) :
    Faithful job [(before, after)] written where
  kept := List.forall_mem_singleton.2 fun _ _ looked => kept.lookup looked
  written_iff := ⟨fun _ => ⟨file, asked, _, List.mem_cons_self, creates⟩, fun _ => isWritten⟩
  otherwise := fun unwritten => absurd isWritten unwritten

theorem cons
    {first : Disk × Disk}
    {others : List (Disk × Disk)}
    {now later : Prop}
    (isFirst : Faithful job [first] now)
    (isOthers : Faithful job others later)
    (either : written ↔ now ∨ later) :
    Faithful job (first :: others) written where
  kept := List.forall_mem_cons.2 ⟨isFirst.kept first List.mem_cons_self, isOthers.kept⟩
  written_iff := by
    rw [either, isFirst.written_iff, isOthers.written_iff]
    simp only [List.mem_cons, List.not_mem_nil, or_false, exists_eq_left, exists_eq_or_imp]
    constructor
    · rintro (⟨file, asked, creates⟩ | ⟨file, asked, creates⟩)
      · exact ⟨file, asked, .inl creates⟩
      · exact ⟨file, asked, .inr creates⟩
    · rintro ⟨file, asked, creates | creates⟩
      · exact .inl ⟨file, asked, creates⟩
      · exact .inr ⟨file, asked, creates⟩
  otherwise := by
    intro unwritten
    rw [either, not_or] at unwritten
    exact List.forall_mem_cons.2
      ⟨isFirst.otherwise unwritten.1 first List.mem_cons_self, isOthers.otherwise unwritten.2⟩

end Faithful

theorem prepare_kept
    (disk : Disk)
    (path : String)
    (mayWait : Bool) :
    Disk.Kept disk (prepare disk path mayWait).1
      ∧ Disk.SameFiles disk (prepare disk path mayWait).1 := by
  rw [prepare]
  split
  · exact ⟨.refl disk, .refl disk⟩
  · split_ifs
    · exact ⟨.refl disk, .refl disk⟩
    · exact Disk.makeDirectories_kept disk _
    · exact ⟨.refl disk, .refl disk⟩

/-- The last step is done faithfully, also where directories were made before it. -/
theorem faithful_create
    {job : Job}
    {file : GeneratedFile}
    (isFile : job.file? = some file)
    {before disk : Disk}
    (kept : Disk.Kept before disk)
    (same : Disk.SameFiles before disk)
    {made : Disk × Bool}
    (isMade : create disk file.path file.text = .ok made)
    {written : Prop}
    (tells : written ↔ made.2 = true) :
    Faithful job [(before, made.1)] written := by
  rw [create] at isMade
  split at isMade
  · next created =>
      cases isMade
      obtain ⟨stays, creates⟩ := Disk.creates_of_createNew created
      exact .created isFile (kept.trans stays) (creates.of_kept kept same) (tells.2 rfl)
  · cases isMade
    exact .quiet kept same fun isWritten => absurd (tells.1 isWritten) nofun
  · cases isMade

theorem Job.serve_eq
    (job : Job)
    (disk : Disk)
    (mayWait : Bool) :
    job.serve disk mayWait
      = match job.file? with
        | some file => writeOnce disk file.path file.text mayWait
        | none => (disk, .ok false) := by
  cases job with
  | materialize file => rfl
  | ensure index path =>
      rw [serve, FileIndex.ensure, file?]
      cases index.find? path <;> rfl

/-- All steps in a row are done faithfully, whatever the disk. -/
theorem faithful_serve
    (job : Job)
    (disk : Disk)
    (mayWait : Bool) :
    Faithful job [(disk, (job.serve disk mayWait).1)] ((job.serve disk mayWait).2 = .ok true) := by
  rw [Job.serve_eq]
  cases asked : job.file? with
  | none => exact .still disk nofun
  | some file =>
      dsimp only
      rw [writeOnce]
      split
      · obtain ⟨kept, same⟩ := prepare_kept disk file.path mayWait
        dsimp only
        split
        · split
          · next made isMade =>
              exact faithful_create asked kept same isMade ⟨Except.ok.inj, congrArg Except.ok⟩
          · exact .quiet kept same nofun
        · exact .quiet kept same nofun
      · exact .still disk nofun

/-- Every step to a file is done faithfully: the one that makes the file is the last, and it says
so. -/
theorem Phase.faithful_step
    {job : Job}
    {file : GeneratedFile}
    (isFile : job.file? = some file)
    (phase : Phase)
    (disk : Disk)
    (hasTime : Bool) :
    Faithful job [(disk, (phase.step file disk hasTime).1)]
      (phase.hasWritten = false ∧ (phase.step file disk hasTime).2.hasWritten = true) := by
  cases phase with
  | asked =>
      rw [step]
      split
      · exact .still disk nofun
      · exact .still disk nofun
  | waiting =>
      rw [step]
      split
      · exact .still disk nofun
      · split_ifs
        · exact .still disk nofun
        · exact .still disk nofun
        · exact .still disk nofun
  | making directory =>
      obtain ⟨kept, same⟩ := Disk.makeDirectories_kept disk directory
      exact .quiet kept same nofun
  | ready =>
      rw [step]
      split
      · next made isMade =>
          refine faithful_create isFile (.refl disk) (.refl disk) isMade ⟨fun ends => ?_, ?_⟩
          · exact Except.ok.inj (Phase.done.inj (Phase.eq_of_hasWritten ends.2))
          · intro isNew
            rw [isNew]
            exact ⟨rfl, rfl⟩
      · exact .still disk nofun
  | done answer =>
      exact .still disk fun ends => absurd (ends.1.symm.trans ends.2) nofun

/-- So is every step of a call. -/
theorem Call.faithful_step
    (call : Call)
    (disk : Disk)
    (hasTime : Bool) :
    Faithful call.job [(disk, (call.step disk hasTime).1)]
      (call.phase.hasWritten = false ∧ (call.step disk hasTime).2.hasWritten = true) := by
  rw [step]
  split
  · next file isFile => exact call.phase.faithful_step isFile disk hasTime
  · exact .still disk fun ends =>
      absurd (ends.1.symm.trans (call.phase.hasWritten_giveUp.symm.trans ends.2)) nofun

/-- A step that writes a file finds nothing at the path, and leaves the file there. Any other step
leaves there what it finds. -/
theorem Call.wrote_step
    (call : Call)
    (disk : Disk)
    (hasTime : Bool)
    (path : String) :
    ((Call.mk call.job (call.step disk hasTime).2).wrote path).toNat + (disk.exists? path).toNat
      ≤ (call.wrote path).toNat + ((call.step disk hasTime).1.exists? path).toNat := by
  have faithful := call.faithful_step disk hasTime
  have kept : (disk.exists? path).toNat ≤ ((call.step disk hasTime).1.exists? path).toNat := by
    cases present : disk.exists? path with
    | false => exact Nat.zero_le _
    | true =>
        obtain ⟨found, looked⟩ := Disk.exists?_iff.1 present
        have again := faithful.kept _ List.mem_cons_self path found looked
        exact Nat.le_of_eq (congrArg Bool.toNat (Disk.exists?_iff.2 ⟨found, again⟩).symm)
  cases written : (Call.mk call.job (call.step disk hasTime).2).wrote path with
  | false =>
      rw [Bool.toNat_false]
      omega
  | true =>
      obtain ⟨ends, isPath⟩ := Bool.and_eq_true_iff.1 written
      cases fresh : call.phase.hasWritten with
      | true =>
          have already : call.wrote path = true := by
            rw [wrote, fresh]
            exact isPath
          rw [already]
          omega
      | false =>
          obtain ⟨file, isFile, action, isAction, creates⟩ := faithful.written_iff.1 ⟨fresh, ends⟩
          obtain rfl := List.mem_singleton.1 isAction
          obtain rfl : file.path = path := by
            rw [isFile] at isPath
            exact of_decide_eq_true isPath
          obtain ⟨missing, place, -, -, leads, -⟩ := creates
          rw [missing, Disk.exists?_iff.2 ⟨_, leads⟩, Bool.toNat_true, Bool.toNat_false]
          omega

/-! ## Several calls -/

/-- A disk with the calls that are on their way. -/
structure Scene where
  disk : Disk
  calls : List Call

/-- What may happen next. -/
inductive Event where
  /-- A call takes its next step, and there is time left or not. -/
  | advance (number : Nat) (hasTime : Bool)
  /-- Others change the disk. -/
  | elsewhere (disk : Disk)

/-- The step is one of the call with the number. -/
def Event.isStepOf (number : Nat) : Event → Bool
  | advance other _ => other = number
  | elsewhere _ => false

namespace Scene

/-- The scene after an event. -/
def after (scene : Scene) : Event → Scene
  | .advance number hasTime =>
      match scene.calls[number]? with
      | some call =>
          let stepped := call.step scene.disk hasTime
          ⟨stepped.1, scene.calls.set number ⟨call.job, stepped.2⟩⟩
      | none => scene
  | .elsewhere disk => ⟨disk, scene.calls⟩

/-- The scene after events in a row. -/
def run (scene : Scene) (events : List Event) : Scene :=
  events.foldl after scene

/-- What the steps of a call do to the disk, in the course of events. -/
def actions (number : Nat) : Scene → List Event → List (Disk × Disk)
  | _, [] => []
  | scene, event :: rest =>
      if event.isStepOf number then
        (scene.disk, (scene.after event).disk) :: actions number (scene.after event) rest
      else
        actions number (scene.after event) rest

/-- How often a path loses what it leads to, in the course of events. -/
def losses (path : String) : Scene → List Event → Nat
  | _, [] => 0
  | scene, event :: rest =>
      (scene.disk.exists? path && !(scene.after event).disk.exists? path).toNat
        + losses path (scene.after event) rest

/-- The number of calls that say that they wrote a file to a path. -/
def writers (path : String) (scene : Scene) : Nat :=
  scene.calls.countP (Call.wrote path)

variable {scene : Scene} {number : Nat} {call : Call}

theorem after_advance
    (called : scene.calls[number]? = some call)
    (hasTime : Bool) :
    scene.after (.advance number hasTime)
      = ⟨(call.step scene.disk hasTime).1,
          scene.calls.set number ⟨call.job, (call.step scene.disk hasTime).2⟩⟩ := by
  rw [after, called]

theorem called_after_advance
    (called : scene.calls[number]? = some call)
    (hasTime : Bool) :
    (scene.after (.advance number hasTime)).calls[number]?
      = some ⟨call.job, (call.step scene.disk hasTime).2⟩ := by
  rw [after_advance called]
  exact List.getElem?_set_self (List.getElem?_eq_some_iff.1 called).1

/-- What others do is nothing to a call. -/
theorem called_after
    (called : scene.calls[number]? = some call)
    {event : Event}
    (others : event.isStepOf number = false) :
    (scene.after event).calls[number]? = some call := by
  cases event with
  | elsewhere disk => exact called
  | advance other hasTime =>
      rw [after]
      split
      · rw [List.getElem?_set_ne (of_decide_eq_false others), called]
      · exact called

/-- A call is faithful in every course of events. -/
theorem faithful_run
    (called : scene.calls[number]? = some call)
    (events : List Event) :
    ∃ phase, (scene.run events).calls[number]? = some ⟨call.job, phase⟩
      ∧ (call.phase.hasWritten = true → phase.hasWritten = true)
      ∧ Faithful call.job (scene.actions number events)
        (call.phase.hasWritten = false ∧ phase.hasWritten = true) := by
  induction events generalizing scene call with
  | nil =>
      exact ⟨call.phase, called, id, .nil fun ends => absurd (ends.1.symm.trans ends.2) nofun⟩
  | cons event rest ih =>
      cases own : event.isStepOf number with
      | false =>
          rw [actions, if_neg (ne_true_of_eq_false own)]
          exact ih (called_after called own)
      | true =>
          cases event with
          | elsewhere disk => cases own
          | advance other hasTime =>
              obtain rfl : other = number := of_decide_eq_true own
              obtain ⟨phase, final, stays, faithful⟩ := ih (called_after_advance called hasTime)
              have first : Faithful call.job
                  [(scene.disk, (scene.after (.advance other hasTime)).disk)]
                  (call.phase.hasWritten = false
                    ∧ (call.step scene.disk hasTime).2.hasWritten = true) := by
                rw [after_advance called]
                exact call.faithful_step scene.disk hasTime
              have same (isWritten : call.phase.hasWritten = true) :
                  (call.step scene.disk hasTime).2.hasWritten = true := by
                rw [call.step_of_hasWritten isWritten, isWritten]
              have either : ∀ before next last : Bool, (before = true → next = true) →
                  (next = true → last = true) → (before = false ∧ last = true ↔
                    (before = false ∧ next = true) ∨ (next = false ∧ last = true)) := by
                decide
              refine ⟨phase, final, fun isWritten => stays (same isWritten), ?_⟩
              rw [actions, if_pos own]
              exact first.cons faithful (either _ _ _ same stays)

theorem writers_set
    (called : scene.calls[number]? = some call)
    (disk : Disk)
    (new : Call)
    (path : String) :
    (Scene.mk disk (scene.calls.set number new)).writers path + (call.wrote path).toNat
      = scene.writers path + (new.wrote path).toNat := by
  obtain ⟨inside, rfl⟩ := List.getElem?_eq_some_iff.1 called
  rw [writers, writers, List.countP_set inside]
  cases written : scene.calls[number].wrote path with
  | false => cases new.wrote path <;> rfl
  | true =>
      have counted : 0 < scene.calls.countP (Call.wrote path) :=
        List.countP_pos_iff.2 ⟨_, List.getElem_mem inside, written⟩
      rw [if_pos rfl]
      cases new.wrote path with
      | false => exact Nat.sub_add_cancel counted
      | true => exact congrArg (· + 1) (Nat.sub_add_cancel counted)

/-- A path that leads somewhere is not written to, and one that is written to leads somewhere. -/
theorem writers_after
    (scene : Scene)
    (event : Event)
    (path : String) :
    (scene.after event).writers path + (scene.disk.exists? path).toNat
      ≤ scene.writers path + ((scene.after event).disk.exists? path).toNat
        + (scene.disk.exists? path && !(scene.after event).disk.exists? path).toNat := by
  cases event with
  | elsewhere disk =>
      have lost : ∀ before after : Bool,
          before.toNat ≤ after.toNat + (before && !after).toNat := by
        decide
      have bound := lost (scene.disk.exists? path) (disk.exists? path)
      simp only [after, writers]
      omega
  | advance number hasTime =>
      cases called : scene.calls[number]? with
      | none =>
          simp only [after, called]
          omega
      | some call =>
          rw [after_advance called]
          have counted := writers_set called (call.step scene.disk hasTime).1
            ⟨call.job, (call.step scene.disk hasTime).2⟩ path
          have step := call.wrote_step scene.disk hasTime path
          dsimp only
          omega

/-- For every writer but the first, the path was lost before. -/
theorem writers_run
    (scene : Scene)
    (events : List Event)
    (path : String) :
    (scene.run events).writers path + (scene.disk.exists? path).toNat
      ≤ scene.writers path + ((scene.run events).disk.exists? path).toNat
        + scene.losses path events := by
  induction events generalizing scene with
  | nil =>
      rw [losses]
      exact Nat.le_refl _
  | cons event rest ih =>
      have step := scene.writers_after event path
      have later := ih (scene.after event)
      rw [losses]
      change ((scene.after event).run rest).writers path + _ ≤ _
        + (((scene.after event).run rest).disk.exists? path).toNat + _
      omega

end Scene

/-! ## A call that is not interrupted -/

/-- The steps of a call in a row, with what is known of the time at each. -/
def Call.steps : Call → Disk → List Bool → Disk × Phase
  | call, disk, [] => (disk, call.phase)
  | call, disk, hasTime :: rest =>
      let stepped := call.step disk hasTime
      steps ⟨call.job, stepped.2⟩ stepped.1 rest

theorem Scene.run_advance
    {scene : Scene}
    {number : Nat}
    {call : Call}
    (called : scene.calls[number]? = some call)
    (times : List Bool) :
    scene.run (times.map (.advance number))
      = ⟨(call.steps scene.disk times).1,
          scene.calls.set number ⟨call.job, (call.steps scene.disk times).2⟩⟩ := by
  induction times generalizing scene call with
  | nil =>
      obtain ⟨inside, rfl⟩ := List.getElem?_eq_some_iff.1 called
      exact congrArg (Scene.mk scene.disk) (List.set_getElem_self inside).symm
  | cons hasTime rest ih =>
      have later := ih (called_after_advance called hasTime)
      rw [after_advance called, List.set_set] at later
      rw [List.map_cons, run, List.foldl_cons, after_advance called]
      exact later

section Steps

variable {job : Job}

theorem Call.steps_done
    (answer : Except Failure Bool)
    (disk : Disk)
    (times : List Bool) :
    (Call.mk job (.done answer)).steps disk times = (disk, .done answer) := by
  induction times with
  | nil => rfl
  | cons hasTime rest ih =>
      have still : (Call.mk job (.done answer)).step disk hasTime = (disk, .done answer) := by
        rw [step]
        split <;> rfl
      rw [steps, still]
      exact ih

variable {file : GeneratedFile} (isFile : job.file? = some file)
include isFile

theorem Call.steps_ready
    (disk : Disk)
    (hasTime : Bool)
    (times : List Bool) :
    (Call.mk job .ready).steps disk (hasTime :: times)
      = match create disk file.path file.text with
        | .ok created => (created.1, .done (.ok created.2))
        | .error failure => (disk, .done (.error failure)) := by
  rw [steps, step, isFile]
  dsimp only [Phase.step]
  split
  · exact steps_done _ _ times
  · exact steps_done _ _ times

/-- Once it is known that the path is free, the directory is prepared. -/
theorem Call.steps_waiting
    (disk : Disk)
    (mayWait : Bool) :
    (Call.mk job .waiting).steps disk [mayWait, false, false, false]
      = if (prepare disk file.path mayWait).2 then
          (Call.mk job .ready).steps (prepare disk file.path mayWait).1 [false]
        else
          ((prepare disk file.path mayWait).1, .done (.ok false)) := by
  have ready (disk : Disk) (times : List Bool) :
      (Call.mk job .ready).steps disk (false :: times)
        = (Call.mk job .ready).steps disk [false] := by
    rw [steps_ready isFile, steps_ready isFile]
  rw [steps, step, isFile, prepare]
  dsimp only [Phase.step]
  cases parent : Path.parent? file.path with
  | none => exact ready disk _
  | some directory =>
      by_cases there : disk.isDirectory directory = true
      · simp only [if_pos there]
        exact ready disk _
      · simp only [if_neg there]
        cases mayWait with
        | false => exact steps_done _ _ _
        | true =>
            simp only [if_true]
            rw [steps, step, isFile, steps, step, isFile]
            dsimp only [Phase.step]
            rw [parent]
            dsimp only
            split
            · rfl
            · exact steps_done _ _ _

/-- Five steps in a row are enough, if the directory is made once. -/
theorem Call.steps_eq_writeOnce
    (disk : Disk)
    (mayWait : Bool) :
    (Call.mk job .asked).steps disk [mayWait, mayWait, false, false, false]
      = ((writeOnce disk file.path file.text mayWait).1,
          .done (writeOnce disk file.path file.text mayWait).2) := by
  rw [steps, step, isFile, writeOnce]
  dsimp only [Phase.step]
  cases isFree disk file.path with
  | false => exact steps_done _ _ _
  | true =>
      rw [if_pos rfl, if_pos rfl, steps_waiting isFile, steps_ready isFile]
      dsimp only
      split
      · cases create (prepare disk file.path mayWait).1 file.path file.text <;> rfl
      · rfl

end Steps

/-- The steps that a call takes at most, if the directory is made once. -/
def turns (number : Nat) (mayWait : Bool) : List Event :=
  [mayWait, mayWait, false, false, false].map (.advance number)

/-- A call whose steps are not interrupted does what the program does in a row. -/
theorem Scene.run_turns
    {scene : Scene}
    {number : Nat}
    {job : Job}
    (called : scene.calls[number]? = some ⟨job, .asked⟩)
    (mayWait : Bool) :
    scene.run (turns number mayWait)
      = ⟨(job.serve scene.disk mayWait).1,
          scene.calls.set number ⟨job, .done (job.serve scene.disk mayWait).2⟩⟩ := by
  rw [turns, run_advance called, Job.serve_eq]
  cases isFile : job.file? with
  | none =>
      rw [Call.steps, Call.step, isFile]
      exact congrArg (fun stepped : Disk × Phase =>
        Scene.mk stepped.1 (scene.calls.set number ⟨job, stepped.2⟩)) (Call.steps_done _ _ _)
  | some file => rw [Call.steps_eq_writeOnce isFile]

/-! ## A file that can be made -/

/-- Where a file can be made, its directory is there once it is prepared. -/
theorem prepare_path
    {disk : Disk}
    {above : Place}
    {name : String}
    (admits : disk.Admits (above ++ [name])) :
    ∃ middle, prepare disk (Place.path (above ++ [name])) true = (middle, true)
      ∧ middle.closed = disk.closed
      ∧ middle.lookup above.path = .ok (above, .directory)
      ∧ middle.at? (above ++ [name]) = none := by
  rw [prepare, Disk.parent?_path admits.spelled.names]
  dsimp only
  by_cases there : disk.isDirectory above.path = true
  · refine ⟨disk, if_pos there, rfl, ?_, admits.free⟩
    rw [Disk.isDirectory] at there
    split at there
    · next place looked =>
        rw [looked, (Disk.of_lookup_path admits.spelled.above.names looked).1]
    · cases there
  · obtain ⟨middle, made, kept, leads, same⟩ :=
      admits.passable.above.makeDirectories admits.spelled.above
    have isDirectory : middle.isDirectory above.path = true := by
      rw [Disk.isDirectory, leads]
    have beside : ¬above ++ [name] <+: above := fun inside =>
      absurd inside.length_le (by simp)
    refine ⟨middle, ?_, kept.closed, leads, (same _ beside).trans admits.free⟩
    rw [if_neg there, if_pos rfl, made]
    exact congrArg (Prod.mk middle) isDirectory

/-- Where a file can be made, it is, as long as there is time. -/
theorem writeOnce_path
    {disk : Disk}
    {place : Place}
    (admits : disk.Admits place)
    (text : String) :
    ∃ after, writeOnce disk place.path text true = (after, .ok true)
      ∧ after.lookup place.path = .ok (place, .file text true) := by
  have free : isFree disk place.path = true := by
    rw [isFree, admits.exists?_eq_false]
    rfl
  rcases List.eq_nil_or_concat' place with rfl | ⟨above, name, rfl⟩
  · cases admits.free
  · obtain ⟨middle, prepared, closed, leads, missing⟩ := prepare_path admits
    have isOpen : above ∉ middle.closed := by
      rw [closed]
      exact admits.passable.opened above name List.prefix_rfl admits.free
    have created := Disk.createNew_path admits.spelled isOpen leads missing text
    obtain ⟨-, -, target, -, -, stands, -⟩ := Disk.creates_of_createNew created
    refine ⟨_, ?_, (Disk.of_lookup_path admits.spelled.names stands).1 ▸ stands⟩
    rw [writeOnce, if_pos free, prepared]
    dsimp only
    rw [if_pos rfl, create, created]

/-! ## Together -/

/-- Whatever the disk, whoever asks, and whatever happens between the steps of a call: the call
leaves alone what is there, and it says that it wrote its file if and only if it made it. Otherwise
it made no file. Of all calls to write to one path, at most one says so before something is lost
there, and then at most one before the next loss. The steps are those of the program, which takes
them in a row where nothing happens in between. A call to write where a file can be made, also after
the directories that lead there, makes it. -/
theorem written_once :
    (∀ (job : Job) (disk : Disk) (mayWait : Bool),
      Faithful job [(disk, (job.serve disk mayWait).1)] ((job.serve disk mayWait).2 = .ok true))
      ∧ (∀ (scene : Scene) (events : List Event) (number : Nat) (job : Job),
        scene.calls[number]? = some ⟨job, .asked⟩ →
          ∃ phase, (scene.run events).calls[number]? = some ⟨job, phase⟩
            ∧ Faithful job (scene.actions number events) (phase = .done (.ok true)))
      ∧ (∀ (scene : Scene) (events : List Event) (path : String),
        (scene.run events).writers path ≤ scene.writers path + scene.losses path events + 1)
      ∧ (∀ (scene : Scene) (number : Nat) (job : Job) (mayWait : Bool),
        scene.calls[number]? = some ⟨job, .asked⟩ →
          scene.run (turns number mayWait)
            = ⟨(job.serve scene.disk mayWait).1,
                scene.calls.set number ⟨job, .done (job.serve scene.disk mayWait).2⟩⟩)
      ∧ ∀ (job : Job) (disk : Disk) (file : GeneratedFile) (place : Place),
        job.file? = some file → file.path = place.path → disk.Admits place →
          ∃ after, job.serve disk true = (after, .ok true)
            ∧ after.lookup file.path = .ok (place, .file file.text true) := by
  refine ⟨faithful_serve, fun scene events number job called => ?_,
    fun scene events path => ?_,
    fun scene number job mayWait called => Scene.run_turns called mayWait,
    fun job disk file place isFile isPath admits => ?_⟩
  · obtain ⟨phase, final, -, faithful⟩ := Scene.faithful_run called events
    have ends : (Phase.asked.hasWritten = false ∧ phase.hasWritten = true)
        = (phase = .done (.ok true)) := by
      refine propext ⟨fun ended => phase.eq_of_hasWritten ended.2, ?_⟩
      rintro rfl
      exact ⟨rfl, rfl⟩
    exact ⟨phase, final, ends ▸ faithful⟩
  · have counted := scene.writers_run events path
    have bound := Bool.toNat_le ((scene.run events).disk.exists? path)
    omega
  · rw [Job.serve_eq, isFile]
    dsimp only
    rw [isPath]
    exact writeOnce_path admits file.text

/-! ## Two calls at once -/

/-- A disk with a directory in which something can be made. The root is closed. -/
def openDisk : Disk :=
  ⟨[(["tmp"], .directory)], ["tmp"], [[]]⟩

/-- A place in a directory that is missing. -/
def sharedPlace : Place :=
  ["tmp", "out", "B.cs"]

/-- A file for this place. -/
def sharedFile : GeneratedFile :=
  ⟨"/tmp/out/B.cs", ⟨"A.dll", .nil⟩, ⟨⟨1⟩, 0⟩, false, "class B\n", .empty⟩

theorem admits_sharedPlace :
    openDisk.Admits sharedPlace where
  spelled :=
    { names := by
        have checked : ∀ name ∈ sharedPlace, name ≠ "" ∧ name ≠ "." ∧ name ≠ ".."
            ∧ '/' ∉ name.toList ∧ '\x00' ∉ name.toList
            ∧ name.utf8ByteSize ≤ Disk.longestName := by
          decide +kernel
        intro name isName
        obtain ⟨someChar, notCurrent, notParent, noSlash, noZero, short⟩ := checked name isName
        exact ⟨someChar, notCurrent, notParent, noSlash, noZero, short⟩
      short := by decide +kernel }
  passable :=
    { clear := by
        have checked : ∀ above ∈ sharedPlace.inits,
            openDisk.at? above = none ∨ openDisk.at? above = some .directory := by
          decide +kernel
        exact fun above isAbove => checked above ((List.mem_inits above _).2 isAbove)
      opened := by
        -- Only the root is closed, and it does not lack the name on the way.
        intro above name isAbove missing isClosed
        obtain rfl := List.mem_singleton.1 isClosed
        obtain rfl : name = "tmp" := (List.cons_prefix_cons.1 isAbove).1
        exact absurd missing (by decide +kernel) }
  free := by decide +kernel

/-- Two calls to write the file, before their first step. -/
def sharedStart : Scene :=
  ⟨openDisk, [⟨.materialize sharedFile, .asked⟩, ⟨.materialize sharedFile, .asked⟩]⟩

/-- Both find the path free and the directory missing. Then the second call is faster. -/
def sharedEvents : List Event :=
  [0, 1, 0, 1, 0, 1, 0, 1, 1, 0].map (.advance · true)

/-- Each call alone would write the file. Of both, the second one does, and the first does not. -/
theorem written_once_sharedFile :
    (∃ after, (Job.materialize sharedFile).serve openDisk true = (after, .ok true)
      ∧ after.lookup sharedFile.path = .ok (sharedPlace, .file sharedFile.text true))
      ∧ (∃ action ∈ sharedStart.actions 1 sharedEvents,
        action.1.Creates action.2 sharedFile.path sharedFile.text)
      ∧ (∀ action ∈ sharedStart.actions 0 sharedEvents, action.1.SameFiles action.2)
      ∧ (sharedStart.run sharedEvents).writers sharedFile.path = 1 := by
  obtain ⟨-, faithful, -, -, makes⟩ := written_once
  have ends : (sharedStart.run sharedEvents).calls.map (·.phase.hasWritten) = [false, true] := by
    decide +kernel
  have ended {number : Nat} {job : Job} {phase : Phase}
      (called : (sharedStart.run sharedEvents).calls[number]? = some ⟨job, phase⟩) :
      [false, true][number]? = some phase.hasWritten := by
    rw [← ends, List.getElem?_map, called]
    rfl
  obtain ⟨slow, isSlow, slowFaithful⟩ := faithful sharedStart sharedEvents 0 _ rfl
  obtain ⟨fast, isFast, fastFaithful⟩ := faithful sharedStart sharedEvents 1 _ rfl
  refine ⟨makes _ openDisk sharedFile sharedPlace rfl (by decide +kernel) admits_sharedPlace,
    ?_, slowFaithful.otherwise ?_, by decide +kernel⟩
  · have wrote := fast.eq_of_hasWritten (Option.some.inj (ended isFast)).symm
    obtain ⟨file, isFile, creates⟩ := fastFaithful.written_iff.1 wrote
    cases isFile
    exact creates
  · rintro rfl
    cases ended isSlow

end Writing
end Navigation
end AssemblyAtlas
