import AssemblyAtlas.Proofs.Sources.Written

/-!
# The reports of a run

A run reports each unit that it has worked on, in the order of the work, and the file with the
attributes of the assembly behind all of them. A run that is not completed has reported the first of
its units only.

* `Run.atEnd` is the run at its end, completed or not;
* `Tells` is what a part of a run adds to the reports, and `Tells.bind` puts parts together;
* `Job.tells_run` is about the whole run.
-/

namespace AssemblyAtlas
namespace Sources

open Assembly

/-- The run at its end, whether or not it was completed. -/
def Run.atEnd : Except Stop Run → Run
  | .ok run => run
  | .error stop => stop.run

@[simp] theorem Run.atEnd_ok (run : Run) :
    Run.atEnd (.ok run) = run := rfl

@[simp] theorem Run.atEnd_error (stop : Stop) :
    Run.atEnd (.error stop) = stop.run := rfl

/-- What is done from a run on reports files with the first of the given paths, and with all of them
if it is completed. -/
def Tells (run : Run) (paths : List String) (outcome : Except Stop Run) : Prop :=
  ∃ reports, (Run.atEnd outcome).reports = run.reports ++ reports
    ∧ reports.map (·.path) <+: paths
    ∧ ∀ next, outcome = .ok next → reports.map (·.path) = paths

namespace Tells

variable {run : Run} {paths more : List String} {outcome : Except Stop Run}

/-- What is not done reports nothing. -/
theorem of_stop
    {stop : Stop}
    (same : stop.run.reports = run.reports) :
    Tells run paths (.error stop) :=
  ⟨[], same.trans (List.append_nil _).symm, List.nil_prefix, fun _ completed => nomatch completed⟩

theorem refl (run : Run) :
    Tells run [] (.ok run) :=
  ⟨[], (List.append_nil _).symm, List.prefix_rfl, fun _ _ => rfl⟩

/-- Reports stay. -/
theorem grows
    (tells : Tells run paths outcome) :
    run.reports <+: (Run.atEnd outcome).reports := by
  obtain ⟨reports, added, -⟩ := tells
  rw [added]
  exact List.prefix_append _ _

theorem bind
    {rest : Run → Except Stop Run}
    (first : Tells run paths outcome)
    (second : ∀ next, outcome = .ok next → Tells next more (rest next)) :
    Tells run (paths ++ more) (outcome >>= rest) := by
  obtain ⟨reports, added, start, whole⟩ := first
  cases outcome with
  | error stop =>
      exact ⟨reports, added, start.trans (List.prefix_append _ _), fun _ done => nomatch done⟩
  | ok next =>
      obtain ⟨further, addedAfter, startAfter, wholeAfter⟩ := second next rfl
      have paths_eq := whole next rfl
      refine ⟨reports ++ further, ?_, ?_, fun last completed => ?_⟩
      · rw [← List.append_assoc, ← added]
        exact addedAfter
      · rw [List.map_append, paths_eq]
        exact (List.prefix_append_right_inj paths).2 startAfter
      · rw [List.map_append, paths_eq, wholeAfter last completed]

/-- What is done from the start on has no other reports. -/
theorem of_start
    {cancelled : Bool}
    (tells : Tells (.start cancelled) paths outcome) :
    (Run.atEnd outcome).reports.map (·.path) <+: paths
      ∧ ∀ run, outcome = .ok run → (Run.atEnd outcome).reports.map (·.path) = paths := by
  obtain ⟨reports, added, start, whole⟩ := tells
  have all : (Run.atEnd outcome).reports = reports := added
  rw [all]
  exact ⟨start, whole⟩

/-- A check reports nothing. -/
theorem check
    {rest : Except Stop Run}
    (tells : Tells run paths rest) :
    Tells run paths (Job.check run >>= fun _ => rest) := by
  rw [Job.check]
  split
  · exact of_stop rfl
  · exact tells

end Tells

namespace Job

variable (job : Job)

/-- A report tells the path of a file. -/
theorem tells_report
    (path : String)
    {run next : Run}
    (same : next.reports = run.reports) :
    Tells run [path] (.ok (job.report path next)) := by
  refine ⟨[⟨"Decompiling " ++ job.module.name, path, next.completed + 1, next.total⟩], ?_,
    List.prefix_rfl, fun _ _ => rfl⟩
  rw [← same]
  rfl

/-- A cancelled run works on no unit. -/
theorem work_of_cancelled
    {run : Run}
    (cancelled : run.cancelled = true)
    (unit : WorkUnit) :
    job.work run unit = .error ⟨.cancelled, run⟩ := by
  rw [work, check, if_pos cancelled]
  rfl

/-- What work on a unit comes to is a question of its tree if nobody has cancelled. -/
theorem work_of_going
    {run : Run}
    (going : run.cancelled = false)
    (unit : WorkUnit) :
    job.work run unit
      = match job.tree false unit with
        | .error failure => .error ⟨unitFailure unit.path failure, run⟩
        | .ok tree =>
            .ok (job.report unit.path
              { run.mention (job.mentioned tree) with
                draft := run.draft.insert (job.file unit tree) }) := by
  rw [work, check_eq_ok_iff.2 going, going]
  rfl

/-- Work that fails leaves the run as it was. -/
theorem run_of_work_error
    {run : Run}
    {unit : WorkUnit}
    {stop : Stop}
    (failed : job.work run unit = .error stop) :
    stop.run = run := by
  rcases going : run.cancelled with _ | _
  · rw [job.work_of_going going] at failed
    split at failed
    · rw [← Except.error.inj failed]
    · cases failed
  · rw [job.work_of_cancelled going] at failed
    rw [← Except.error.inj failed]

/-! ## Units -/

theorem tells_work
    (run : Run)
    (unit : WorkUnit) :
    Tells run [unit.path] (job.work run unit) := by
  refine Tells.check ?_
  split
  · exact Tells.of_stop rfl
  · exact job.tells_report unit.path rfl

theorem tells_foldlM_work
    (units : List WorkUnit)
    (run : Run) :
    Tells run (units.map (·.path)) (units.foldlM job.work run) := by
  induction units generalizing run with
  | nil => exact .refl run
  | cons unit rest ih =>
      rw [List.foldlM_cons, List.map_cons, ← List.singleton_append]
      exact (job.tells_work run unit).bind fun next _ => ih next

/-- Work on units starts no round, even if it is not completed. -/
theorem rounds_atEnd_foldlM_work
    (units : List WorkUnit)
    (run : Run) :
    (Run.atEnd (units.foldlM job.work run)).rounds = run.rounds := by
  induction units generalizing run with
  | nil => rfl
  | cons unit rest ih =>
      rw [List.foldlM_cons]
      cases worked : job.work run unit with
      | error stop => exact congrArg Run.rounds (job.run_of_work_error worked)
      | ok next => exact (ih next).trans (work_step worked).1

/-! ## Rounds -/

theorem tells_workRound
    (run : Run)
    (types : List Token) :
    Tells run ((job.order (job.roundOf types).units).map (·.path)) (job.workRound run types) :=
  Tells.check (job.tells_foldlM_work _ (run.startRound (job.roundOf types)))

/-- A round that is not completed was started all the same. -/
theorem worked_atEnd_workRound
    (run : Run)
    (types : List Token) :
    job.worked (Run.atEnd (job.workRound run types))
      = job.worked run ++ job.order (job.roundOf types).units := by
  have rounds : (Run.atEnd (job.workRound run types)).rounds
      = run.rounds ++ [job.roundOf types] := by
    rw [workRound, check]
    split
    · rfl
    · exact job.rounds_atEnd_foldlM_work _ (run.startRound (job.roundOf types))
  rw [worked, rounds, List.flatMap_append, List.flatMap_singleton]
  rfl

/-- Behind a round comes the next one, unless nothing is next. -/
theorem rounds_succ
    (limit : Nat)
    (run : Run)
    (types : List Token) :
    job.rounds (limit + 1) run types
      = job.workRound run types >>= fun next =>
          if next.nextTypes.isEmpty then .ok next else job.rounds limit next next.nextTypes := rfl

/-- Rounds report the units of the rounds that they start. -/
theorem tells_rounds
    (limit : Nat)
    (run : Run)
    (types : List Token) :
    ∃ units, job.worked (Run.atEnd (job.rounds limit run types)) = job.worked run ++ units
      ∧ Tells run (units.map (·.path)) (job.rounds limit run types) := by
  induction limit generalizing run types with
  | zero => exact ⟨[], (List.append_nil _).symm, .refl run⟩
  | succ limit ih =>
      have started := job.worked_atEnd_workRound run types
      have first := job.tells_workRound run types
      have behind (next : Run) :
          ∃ units, job.worked (Run.atEnd (if next.nextTypes.isEmpty then .ok next
                else job.rounds limit next next.nextTypes)) = job.worked next ++ units
            ∧ Tells next (units.map (·.path)) (if next.nextTypes.isEmpty then .ok next
                else job.rounds limit next next.nextTypes) := by
        split
        · exact ⟨[], (List.append_nil _).symm, .refl next⟩
        · exact ih next next.nextTypes
      rw [rounds_succ]
      cases round : job.workRound run types with
      | error stop =>
          rw [round] at started first
          exact ⟨_, started, first⟩
      | ok next =>
          rw [round] at started first
          obtain ⟨units, longer, second⟩ := behind next
          refine ⟨job.order (job.roundOf types).units ++ units, longer.trans ?_, ?_⟩
          · rw [← List.append_assoc, ← started]
            rfl
          · rw [List.map_append]
            exact first.bind fun other same => Except.ok.inj same ▸ second

/-! ## The whole run -/

/-- The last file is written if nobody has cancelled. -/
theorem finish_of_going
    {run : Run}
    (going : run.cancelled = false) :
    job.finish run
      = .ok (job.report assemblyInfoPath
          { run with draft := run.draft.insert job.assemblyInfo }) := by
  rw [finish, check_eq_ok_iff.2 going]
  rfl

theorem tells_finish (run : Run) :
    Tells run [assemblyInfoPath] (job.finish run) :=
  Tells.check (job.tells_report assemblyInfoPath rfl)

/-- The last file belongs to no unit. -/
theorem worked_atEnd_bind_finish (outcome : Except Stop Run) :
    job.worked (Run.atEnd (outcome >>= job.finish)) = job.worked (Run.atEnd outcome) := by
  cases outcome with
  | error stop => rfl
  | ok run =>
      change job.worked (Run.atEnd (job.finish run)) = job.worked run
      rw [finish, check]
      split <;> rfl

/-- All rounds together report their units. -/
theorem tells_allRounds
    (limit : Nat)
    (cancelled : Bool)
    (types : List Token) :
    Tells (.start cancelled)
      ((job.worked (Run.atEnd (job.rounds limit (.start cancelled) types))).map (·.path))
      (job.rounds limit (.start cancelled) types) := by
  obtain ⟨units, started, tells⟩ := job.tells_rounds limit (.start cancelled) types
  rw [started]
  exact tells

/-- A run reports its units, and the file with the attributes of the assembly behind them. -/
theorem tells_run (cancelled : Bool) :
    Tells (.start cancelled)
      ((job.worked (Run.atEnd (job.run cancelled))).map (·.path) ++ [assemblyInfoPath])
      (job.run cancelled) := by
  rw [run, worked_atEnd_bind_finish]
  exact (job.tells_allRounds _ cancelled job.initialTypes).bind fun next _ => job.tells_finish next

end Job

end Sources
end AssemblyAtlas
