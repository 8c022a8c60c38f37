import AssemblyAtlas.Proofs.Sources.Rounds

/-!
# Runs that nobody cancels

A listener may cancel a run, but changes nothing else. So a run that ends without being cancelled is
the same as without a listener, and all such runs of a job have the same files.

* `Job.quiet` is the job without its listener, and `Job.run_quiet` compares the two runs.
-/

namespace AssemblyAtlas
namespace Sources

open Assembly

namespace Job

variable {job : Job}

/-- The job without a listener. -/
def quiet (job : Job) : Job :=
  { job with cancelsAt := fun _ => false }

/-- Where the run goes on, the report of a file is the same without a listener. -/
theorem report_quiet
    {path : String}
    {run : Run}
    (going : (job.report path run).cancelled = false) :
    job.quiet.report path run = job.report path run := by
  obtain ⟨before, listened⟩ := Bool.or_eq_false_iff.1 going
  simp only [report, quiet, before, Bool.false_or] at listened ⊢
  rw [listened]
  rfl

theorem work_quiet
    {run next : Run}
    {unit : WorkUnit}
    (worked : job.work run unit = .ok next)
    (going : next.cancelled = false) :
    job.quiet.work run unit = .ok next := by
  obtain ⟨before, tree, built, rfl⟩ := work_eq_ok_iff.1 worked
  exact work_eq_ok_iff.2 ⟨before, tree, built, (report_quiet going).symm⟩

/-- Work that was done means that nobody had cancelled before it. -/
theorem going_of_foldlM_work
    {units : List WorkUnit}
    {run next : Run}
    (worked : units.foldlM job.work run = .ok next)
    (going : next.cancelled = false) :
    run.cancelled = false := by
  cases units with
  | nil =>
      obtain rfl : run = next := Except.ok.inj worked
      exact going
  | cons unit rest =>
      rw [List.foldlM_cons, Success.bind_eq_ok_iff] at worked
      obtain ⟨middle, first, -⟩ := worked
      exact (work_eq_ok_iff.1 first).1

theorem foldlM_work_quiet
    {units : List WorkUnit}
    {run next : Run}
    (worked : units.foldlM job.work run = .ok next)
    (going : next.cancelled = false) :
    units.foldlM job.quiet.work run = .ok next := by
  induction units generalizing run with
  | nil => exact worked
  | cons unit rest ih =>
      rw [List.foldlM_cons, Success.bind_eq_ok_iff] at worked ⊢
      obtain ⟨middle, first, later⟩ := worked
      exact ⟨middle, work_quiet first (going_of_foldlM_work later going), ih later⟩

theorem workRound_quiet
    {run next : Run}
    {types : List Token}
    (worked : job.workRound run types = .ok next)
    (going : next.cancelled = false) :
    job.quiet.workRound run types = .ok next ∧ run.cancelled = false := by
  rw [workRound, Success.bind_eq_ok_iff] at worked
  obtain ⟨⟨⟩, checked, worked⟩ := worked
  have before : (run.startRound (job.roundOf types)).cancelled = false := check_eq_ok_iff.1 checked
  refine ⟨?_, before⟩
  rw [workRound, Success.bind_eq_ok_iff]
  exact ⟨(), checked, foldlM_work_quiet worked going⟩

theorem rounds_quiet
    {limit : Nat}
    {run final : Run}
    {types : List Token}
    (worked : job.rounds (limit + 1) run types = .ok final)
    (going : final.cancelled = false) :
    job.quiet.rounds (limit + 1) run types = .ok final ∧ run.cancelled = false := by
  induction limit generalizing run types with
  | zero =>
      obtain ⟨next, round, ended⟩ := rounds_succ_eq_ok worked
      have same : next = final := by
        rcases ended with ⟨-, rfl⟩ | ⟨-, last⟩
        · rfl
        · exact Except.ok.inj last
      obtain ⟨quiet, before⟩ := workRound_quiet round (same ▸ going)
      refine ⟨?_, before⟩
      rw [Job.rounds, Success.bind_eq_ok_iff] at worked ⊢
      obtain ⟨middle, first, rest⟩ := worked
      obtain rfl : next = middle := Except.ok.inj (round.symm.trans first)
      exact ⟨next, quiet, rest⟩
  | succ limit ih =>
      rw [Job.rounds, Success.bind_eq_ok_iff] at worked ⊢
      obtain ⟨next, round, rest⟩ := worked
      by_cases done : next.nextTypes.isEmpty = true
      · rw [if_pos done] at rest
        obtain rfl : next = final := Except.ok.inj rest
        obtain ⟨quiet, before⟩ := workRound_quiet round going
        exact ⟨⟨next, quiet, if_pos done⟩, before⟩
      · rw [if_neg done] at rest
        obtain ⟨later, between⟩ := ih rest
        obtain ⟨quiet, before⟩ := workRound_quiet round between
        exact ⟨⟨next, quiet, (if_neg done).trans later⟩, before⟩

/-- A run that ends without being cancelled is the same without a listener. -/
theorem run_quiet
    {cancelled : Bool}
    {run : Run}
    (completed : job.run cancelled = .ok run)
    (going : run.cancelled = false) :
    job.quiet.run false = .ok run := by
  rw [Job.run, Success.bind_eq_ok_iff] at completed
  obtain ⟨last, worked, finished⟩ := completed
  rw [finish, Success.bind_eq_ok_iff] at finished
  obtain ⟨⟨⟩, checked, finished⟩ := finished
  have own := Except.ok.inj finished
  obtain ⟨quiet, before⟩ := rounds_quiet worked (check_eq_ok_iff.1 checked)
  obtain rfl : cancelled = false := before
  rw [Job.run, Success.bind_eq_ok_iff]
  refine ⟨last, quiet, ?_⟩
  rw [finish, Success.bind_eq_ok_iff]
  refine ⟨(), checked, congrArg Except.ok ?_⟩
  rw [← own] at going ⊢
  exact report_quiet going

end Job

end Sources
end AssemblyAtlas
