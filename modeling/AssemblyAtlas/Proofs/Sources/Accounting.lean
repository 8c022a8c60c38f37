import AssemblyAtlas.Proofs.Sources.Reports
import Mathlib.Logic.Relation

/-!
# What reports count

Each report tells how many files are written and how many are known to be written in the end. A run
is followed step by step: the units of a round are worked on one after the other, a further round is
started when none is left and some type is next, and the file with the attributes of the assembly
comes last. As many units are left as are known and not yet reported, so no report but the last one
is about everything.

* `Stage` is a run with the units of its round that are left, and `Job.Advances` is one step;
* `Run.Balanced` is what each step keeps, and `Job.Leads` follows a run to its end;
* `exists_moment` finds the step in which a report was made;
* `Job.accounted_run` is about all reports of a run, completed or not.
-/

namespace AssemblyAtlas
namespace Sources

open Assembly
open Relation

/-- Where a run stands: some units of its last round may be left, or it is closed. -/
inductive Stage where
  | working (run : Run) (left : List WorkUnit)
  | closed (run : Run)

/-- What was done up to the stage. -/
def Stage.run : Stage → Run
  | working run _ => run
  | closed run => run

@[simp] theorem Stage.run_working
    (run : Run)
    (left : List WorkUnit) :
    (working run left).run = run := rfl

namespace Job

variable (job : Job)

/-- Where a run stands when a round over some types is started. -/
def opened (run : Run) (types : List Token) : Stage :=
  .working (run.startRound (job.roundOf types)) (job.order (job.roundOf types).units)

/-- One step of a run. -/
inductive Advances : Stage → Stage → Prop
  | unit {run next : Run} {unit : WorkUnit} {left : List WorkUnit} :
      job.work run unit = .ok next →
      Advances (.working run (unit :: left)) (.working next left)
  | round {run : Run} :
      run.nextTypes ≠ [] →
      Advances (.working run []) (job.opened run run.nextTypes)
  | close {run next : Run} :
      run.nextTypes = [] →
      job.finish run = .ok next →
      Advances (.working run []) (.closed next)

/-- The report on a file when a run stands at the given counts. -/
def news (path : String) (run : Run) : Report :=
  ⟨"Decompiling " ++ job.module.name, path, run.completed + 1, run.total⟩

/-- The steps of the run lead to this stage. -/
def Passes (cancelled : Bool) (stage : Stage) : Prop :=
  ReflTransGen job.Advances (job.opened (.start cancelled) job.initialTypes) stage

variable {job}

/-- Work on a unit adds its report and changes no other count. -/
theorem work_counts
    {run next : Run}
    {unit : WorkUnit}
    (worked : job.work run unit = .ok next) :
    next.reports = run.reports ++ [job.news unit.path run]
      ∧ next.completed = run.completed + 1
      ∧ next.total = run.total
      ∧ next.rounds = run.rounds := by
  obtain ⟨-, tree, -, rfl⟩ := work_eq_ok_iff.1 worked
  exact ⟨rfl, rfl, rfl, rfl⟩

/-- The last file is reported like any other. -/
theorem finish_reports
    {run next : Run}
    (finished : job.finish run = .ok next) :
    next.reports = run.reports ++ [job.news assemblyInfoPath run] ∧ next.rounds = run.rounds := by
  obtain ⟨⟨⟩, -, done⟩ := Success.bind_eq_ok_iff.1 finished
  obtain rfl := Except.ok.inj done
  exact ⟨rfl, rfl⟩

/-- A step makes one report or none. -/
theorem Advances.reports
    {before after : Stage}
    (advances : job.Advances before after) :
    after.run.reports = before.run.reports
      ∨ ∃ path, after.run.reports = before.run.reports ++ [job.news path before.run] := by
  cases advances with
  | unit worked => exact .inr ⟨_, (work_counts worked).1⟩
  | round _ => exact .inl rfl
  | close _ finished => exact .inr ⟨_, (finish_reports finished).1⟩

end Job

/-! ## What each step keeps -/

/-- As many files are written as are reported. The units of the rounds and one more file are known
to be written in the end, and those that are not reported are left. No report tells more files than
are known by now, and none that everything is written. -/
structure Run.Balanced (run : Run) (left : List WorkUnit) : Prop where
  completed : run.completed = run.reports.length
  total : run.total = 1 + run.units.length
  left : run.reports.length + left.length = run.units.length
  reports : ∀ report ∈ run.reports, report.completed < report.total ∧ report.total ≤ run.total

namespace Run.Balanced

variable {job : Job} {run next : Run} {left : List WorkUnit}

theorem start (cancelled : Bool) :
    (Run.start cancelled).Balanced [] where
  completed := rfl
  total := rfl
  left := rfl
  reports := fun _ none => absurd none List.not_mem_nil

/-- The units of a further round are left, whatever their order. -/
theorem startRound
    (balanced : run.Balanced [])
    {round : Round}
    (perm : left.Perm round.units) :
    (run.startRound round).Balanced left := by
  have units : (run.startRound round).units = run.units ++ round.units := by
    rw [units, startRound_rounds, List.flatMap_append, List.flatMap_singleton]
    rfl
  have total : (run.startRound round).total = run.total + round.units.length := rfl
  have before := balanced.total
  have even := balanced.left
  rw [List.length_nil] at even
  refine ⟨balanced.completed, ?_, ?_, fun report isReport => ?_⟩
  · rw [units, total, List.length_append]
    omega
  · rw [units, perm.length_eq, List.length_append, ← even]
    rfl
  · obtain ⟨some_left, known⟩ := balanced.reports report isReport
    exact ⟨some_left, by omega⟩

/-- A unit that is worked on is left no more, and its report cannot be about everything. -/
theorem work
    {unit : WorkUnit}
    (balanced : run.Balanced (unit :: left))
    (worked : job.work run unit = .ok next) :
    next.Balanced left := by
  obtain ⟨reports, completed, total, rounds⟩ := Job.work_counts worked
  have units : next.units = run.units := by
    rw [Run.units, rounds, Run.units]
  have count := balanced.completed
  have known := balanced.total
  have even := balanced.left
  rw [List.length_cons] at even
  have length : next.reports.length = run.reports.length + 1 := by
    rw [reports, List.length_append, List.length_singleton]
  refine ⟨by omega, by rw [units]; omega, by rw [units]; omega, fun report isReport => ?_⟩
  rw [total]
  rw [reports] at isReport
  rcases List.mem_append.1 isReport with old | new
  · exact balanced.reports report old
  · rw [List.mem_singleton.1 new]
    exact ⟨by change run.completed + 1 < run.total; omega, Nat.le_refl _⟩

end Run.Balanced

namespace Job

variable {job : Job} {cancelled : Bool}

/-- Wherever a run stands before it is closed, its counts are balanced. -/
theorem Passes.balanced
    (order : ∀ units, (job.order units).Perm units)
    {stage : Stage}
    (passes : job.Passes cancelled stage)
    {run : Run}
    {left : List WorkUnit}
    (same : stage = .working run left) :
    run.Balanced left := by
  induction passes generalizing run left with
  | refl =>
      obtain ⟨rfl, rfl⟩ := Stage.working.inj same
      exact (Run.Balanced.start cancelled).startRound (order _)
  | tail _ advances ih =>
      cases advances with
      | unit worked =>
          obtain ⟨rfl, rfl⟩ := Stage.working.inj same
          exact (ih rfl).work worked
      | round _ =>
          obtain ⟨rfl, rfl⟩ := Stage.working.inj same
          exact (ih rfl).startRound (order _)
      | close _ _ => cases same

/-! ## From the start to the end -/

variable (job) in
/-- From the stage on the steps lead to the end of what is done, with no unit left if it is
completed. -/
def Leads (stage : Stage) (outcome : Except Stop Run) : Prop :=
  ∃ left, ReflTransGen job.Advances stage (.working (Run.atEnd outcome) left)
    ∧ ∀ next, outcome = .ok next → left = []

namespace Leads

variable {stage : Stage} {outcome : Except Stop Run}

theorem refl (run : Run) :
    job.Leads (.working run []) (.ok run) :=
  ⟨[], .refl, fun _ _ => rfl⟩

/-- What is not done leaves its units. -/
theorem of_stop
    (stop : Stop)
    (left : List WorkUnit) :
    job.Leads (.working stop.run left) (.error stop) :=
  ⟨left, .refl, fun _ completed => nomatch completed⟩

theorem trans
    {next : Stage}
    (passes : ReflTransGen job.Advances stage next)
    (leads : job.Leads next outcome) :
    job.Leads stage outcome := by
  obtain ⟨left, further, none_left⟩ := leads
  exact ⟨left, passes.trans further, none_left⟩

/-- What is completed has no unit left. -/
theorem completed
    {run : Run}
    (leads : job.Leads stage (.ok run)) :
    ReflTransGen job.Advances stage (.working run []) := by
  obtain ⟨left, passes, none_left⟩ := leads
  obtain rfl := none_left run rfl
  exact passes

end Leads

theorem leads_foldlM_work
    (units : List WorkUnit)
    (run : Run) :
    job.Leads (.working run units) (units.foldlM job.work run) := by
  induction units generalizing run with
  | nil => exact .refl run
  | cons unit rest ih =>
      rw [List.foldlM_cons]
      cases worked : job.work run unit with
      | error stop =>
          obtain rfl := job.run_of_work_error worked
          exact .of_stop stop (unit :: rest)
      | ok next => exact .trans (.single (.unit worked)) (ih next)

/-- A round is started even if the run was cancelled before. -/
theorem leads_workRound
    (job : Job)
    (run : Run)
    (types : List Token) :
    job.Leads (job.opened run types) (job.workRound run types) := by
  rw [workRound, check]
  split
  · exact .of_stop ⟨.cancelled, run.startRound (job.roundOf types)⟩ _
  · exact leads_foldlM_work _ (run.startRound (job.roundOf types))

/-- Rounds go on until nothing is next, since their limit is never what ends them. -/
theorem leads_rounds
    (order : ∀ units, (job.order units).Perm units)
    {limit : Nat}
    {run : Run}
    {types : List Token}
    (explored : job.Explored run types)
    (few : run.rounds.length ≤ (run.processed ++ types).length)
    (enough : job.module.types.size < run.rounds.length + limit) :
    job.Leads (job.opened run types) (job.rounds limit run types)
      ∧ ∀ final, job.rounds limit run types = .ok final → final.nextTypes = [] := by
  induction limit generalizing run types with
  | zero =>
      have bound := Module.length_le_size explored.nodup explored.known
      omega
  | succ limit ih =>
      have first := job.leads_workRound run types
      cases round : job.workRound run types with
      | error stop =>
          rw [rounds_succ, round]
          rw [round] at first
          exact ⟨first, fun final completed => nomatch completed⟩
      | ok next =>
          have behind : job.rounds (limit + 1) run types
              = if next.nextTypes.isEmpty then .ok next
                else job.rounds limit next next.nextTypes := by
            rw [rounds_succ, round]
            rfl
          rw [round] at first
          by_cases none_next : next.nextTypes = []
          · rw [behind, if_pos (List.isEmpty_iff.2 none_next)]
            exact ⟨first, fun final completed => Except.ok.inj completed ▸ none_next⟩
          · rw [behind, if_neg (List.isEmpty_iff.not.2 none_next)]
            obtain ⟨processed, count⟩ := counts_of_workRound order round
            have more : 0 < next.nextTypes.length := List.length_pos_iff.2 none_next
            have few : next.rounds.length ≤ (next.processed ++ next.nextTypes).length := by
              rw [List.length_append, processed]
              omega
            obtain ⟨second, none_further⟩ := ih (explored.workRound order round) few (by omega)
            exact ⟨.trans (first.completed.tail (.round none_next)) second, none_further⟩

theorem leads_allRounds
    (order : ∀ units, (job.order units).Perm units)
    (cancelled : Bool) :
    job.Leads (job.opened (.start cancelled) job.initialTypes)
        (job.rounds (job.module.types.size + 1) (.start cancelled) job.initialTypes)
      ∧ ∀ final,
        job.rounds (job.module.types.size + 1) (.start cancelled) job.initialTypes = .ok final →
          final.nextTypes = [] := by
  have start : (Run.start cancelled).rounds.length = 0 := rfl
  exact leads_rounds order (explored_start cancelled) (by omega) (by omega)

/-- A run that is completed is closed behind its last unit. -/
theorem exists_closing
    (order : ∀ units, (job.order units).Perm units)
    {run : Run}
    (completed : job.run cancelled = .ok run) :
    ∃ last, job.Passes cancelled (.working last [])
      ∧ last.nextTypes = []
      ∧ job.finish last = .ok run := by
  obtain ⟨last, rounds, finished⟩ := Success.bind_eq_ok_iff.1 completed
  obtain ⟨leads, none_next⟩ := leads_allRounds order cancelled
  rw [rounds] at leads
  exact ⟨last, leads.completed, none_next last rounds, finished⟩

/-- A run that is not completed stops before it is closed. -/
theorem exists_left
    (order : ∀ units, (job.order units).Perm units)
    {stop : Stop}
    (stopped : job.run cancelled = .error stop) :
    ∃ left, job.Passes cancelled (.working stop.run left) := by
  obtain ⟨⟨left, passes, -⟩, -⟩ := leads_allRounds order cancelled
  rcases Success.bind_eq_error_iff.1 stopped with early | ⟨last, rounds, late⟩
  · rw [early] at passes
    exact ⟨left, passes⟩
  · -- All units are worked on, so only the check before the last file can have failed.
    rw [rounds] at passes
    rw [finish, check] at late
    split at late
    · rw [← Except.error.inj late]
      exact ⟨left, passes⟩
    · cases late

/-- The steps of a run lead to its end. -/
theorem exists_end
    (order : ∀ units, (job.order units).Perm units)
    (cancelled : Bool) :
    ∃ stage, job.Passes cancelled stage ∧ stage.run = Run.atEnd (job.run cancelled) := by
  cases outcome : job.run cancelled with
  | error stop =>
      obtain ⟨left, passes⟩ := exists_left order outcome
      exact ⟨.working stop.run left, passes, rfl⟩
  | ok run =>
      obtain ⟨last, passes, none_next, finished⟩ := exists_closing order outcome
      exact ⟨.closed run, passes.tail (.close none_next finished), rfl⟩

/-! ## Reports -/

/-- The report with a number was made in a step of the run: when it came, the reports before it were
there, and nothing else. -/
theorem exists_moment
    {final : Stage}
    (passes : job.Passes cancelled final)
    {number : Nat}
    {report : Report}
    (made : final.run.reports[number]? = some report) :
    ∃ before after, job.Passes cancelled before
      ∧ job.Advances before after
      ∧ ReflTransGen job.Advances after final
      ∧ before.run.reports = final.run.reports.take number
      ∧ after.run.reports = before.run.reports ++ [report]
      ∧ ∃ path, report = job.news path before.run := by
  induction passes with
  | refl => cases made
  | @tail last final passes advances ih =>
      rcases advances.reports with same | ⟨path, more⟩
      · rw [same] at made ⊢
        obtain ⟨before, after, earlier, step, later, facts⟩ := ih made
        exact ⟨before, after, earlier, step, later.tail advances, facts⟩
      · have inside := (List.getElem?_eq_some_iff.1 made).1
        rw [more, List.length_append, List.length_singleton] at inside
        rw [more] at made ⊢
        rcases Nat.lt_succ_iff_lt_or_eq.1 inside with old | rfl
        · rw [List.getElem?_append_left old] at made
          rw [List.take_append_of_le_length (Nat.le_of_lt old)]
          obtain ⟨before, after, earlier, step, later, facts⟩ := ih made
          exact ⟨before, after, earlier, step, later.tail advances, facts⟩
        · rw [List.getElem?_concat_length] at made
          obtain rfl := Option.some.inj made
          refine ⟨last, final, passes, advances, .refl, ?_, more, path, rfl⟩
          rw [List.take_left']
          rfl

/-- When a report was made, its counts were those of the reports before it and of the units of all
rounds that were started by then. -/
theorem exists_counted_moment
    (order : ∀ units, (job.order units).Perm units)
    {final : Stage}
    (passes : job.Passes cancelled final)
    {number : Nat}
    {report : Report}
    (made : final.run.reports[number]? = some report) :
    ∃ run left after, job.Advances (.working run left) after
      ∧ job.Passes cancelled (.working run left)
      ∧ ReflTransGen job.Advances after final
      ∧ run.Balanced left
      ∧ run.reports = final.run.reports.take number
      ∧ after.run.reports = run.reports ++ [report]
      ∧ report.completed = number + 1
      ∧ report.total = 1 + run.units.length := by
  obtain ⟨before, after, earlier, step, later, reports, more, path, rfl⟩ :=
    exists_moment passes made
  cases before with
  | closed run => cases step
  | working run left =>
      have balanced := earlier.balanced order rfl
      have inside := (List.getElem?_eq_some_iff.1 made).1
      have count : run.completed = number := by
        rw [balanced.completed, ← Stage.run_working run left, reports, List.length_take]
        omega
      exact ⟨run, left, after, step, earlier, later, balanced, reports, more,
        congrArg (· + 1) count, balanced.total⟩

/-- No report tells fewer files than the reports before it. -/
theorem pairwise_total
    (order : ∀ units, (job.order units).Perm units)
    {final : Stage}
    (passes : job.Passes cancelled final) :
    final.run.reports.Pairwise (·.total ≤ ·.total) := by
  rw [List.pairwise_iff_getElem]
  intro first second insideFirst insideSecond before
  have made := List.getElem?_eq_getElem insideSecond
  obtain ⟨run, _, _, -, -, -, balanced, reports, -, -, total⟩ :=
    exists_counted_moment order passes made
  have isFirst : final.run.reports[first] ∈ run.reports := by
    rw [reports, List.mem_take_iff_getElem]
    exact ⟨first, by omega, rfl⟩
  rw [total, ← balanced.total]
  exact (balanced.reports _ isFirst).2

/-- A completed run reports its units, none of them as the last file, and one more file behind them,
with which all is written. -/
theorem exists_reports_of_run
    (order : ∀ units, (job.order units).Perm units)
    {run : Run}
    (completed : job.run cancelled = .ok run) :
    ∃ reports last, run.reports = reports ++ [last]
      ∧ reports.map (·.path) = (job.worked run).map (·.path)
      ∧ (∀ report ∈ reports, report.completed < report.total)
      ∧ last.path = assemblyInfoPath
      ∧ last.completed = last.total := by
  obtain ⟨before, passes, -, finished⟩ := exists_closing order completed
  have balanced := passes.balanced order rfl
  have reports := (finish_reports finished).1
  refine ⟨before.reports, _, reports, ?_, fun report isReport =>
    (balanced.reports report isReport).1, rfl, ?_⟩
  · have told := (job.tells_run cancelled).of_start.2 run completed
    rw [completed, Run.atEnd_ok, reports, List.map_append] at told
    exact List.append_inj_left' told rfl
  · have even := balanced.left
    change before.completed + 1 = before.total
    rw [balanced.completed, balanced.total, ← even, List.length_nil]
    omega

/-- The reports of a run, completed or not, are numbered from one on. Each tells the file with the
attributes of the assembly and the units of the rounds that were started when it was made, so these
totals never fall. While units are left no report is about everything. A completed run reports each
of its units once, and then the last file, with which all is written. -/
theorem accounted_run
    (job : Job)
    (order : ∀ units, (job.order units).Perm units)
    (cancelled : Bool) :
    (∃ final, job.Passes cancelled final
        ∧ final.run = Run.atEnd (job.run cancelled)
        ∧ ∀ number report, final.run.reports[number]? = some report →
          report.completed = number + 1
            ∧ ∃ run left after, job.Passes cancelled (.working run left)
              ∧ job.Advances (.working run left) after
              ∧ ReflTransGen job.Advances after final
              ∧ run.reports = final.run.reports.take number
              ∧ after.run.reports = run.reports ++ [report]
              ∧ report.total = 1 + run.units.length)
      ∧ (Run.atEnd (job.run cancelled)).reports.Pairwise (·.total ≤ ·.total)
      ∧ (∀ stop, job.run cancelled = .error stop →
        ∀ report ∈ stop.run.reports, report.completed < report.total)
      ∧ ∀ run, job.run cancelled = .ok run →
        ∃ reports last, run.reports = reports ++ [last]
          ∧ reports.map (·.path) = (job.worked run).map (·.path)
          ∧ (∀ report ∈ reports, report.completed < report.total)
          ∧ last.path = assemblyInfoPath
          ∧ last.completed = last.total := by
  obtain ⟨final, passes, atEnd⟩ := exists_end order cancelled
  refine ⟨⟨final, passes, atEnd, fun number report made => ?_⟩, ?_, fun stop stopped => ?_,
    fun run completed => exists_reports_of_run order completed⟩
  · obtain ⟨run, left, after, step, earlier, later, -, reports, more, completed, total⟩ :=
      exists_counted_moment order passes made
    exact ⟨completed, run, left, after, earlier, step, later, reports, more, total⟩
  · rw [← atEnd]
    exact pairwise_total order passes
  · obtain ⟨left, passes⟩ := exists_left order stopped
    exact fun report isReport => ((passes.balanced order rfl).reports report isReport).1

/-- Over a module whose visible type names a generated one, two files are known when the first is
written, and three when the second is, since its round was started behind the first. -/
theorem accounted_run_derivedSample :
    ∃ run, (Job.new ⟨derivedSample, []⟩ .default).run false = .ok run
      ∧ run.reports.map (fun report => (report.completed, report.total)) = [(1, 2), (2, 3), (3, 3)]
      ∧ run.reports.Pairwise (·.total ≤ ·.total)
      ∧ ∃ reports last, run.reports = reports ++ [last]
        ∧ (∀ report ∈ reports, report.completed < report.total)
        ∧ last.completed = last.total := by
  have passes : ((Job.new ⟨derivedSample, []⟩ .default).run false).toOption.any (fun run =>
      decide (run.reports.map (fun report => (report.completed, report.total))
        = [(1, 2), (2, 3), (3, 3)])) = true := by
    decide +kernel
  obtain ⟨run, completed, counts⟩ := Success.exists_ok_of_any passes
  obtain ⟨-, totals, -, whole⟩ :=
    accounted_run (Job.new ⟨derivedSample, []⟩ .default) (fun _ => .refl _) false
  rw [completed, Run.atEnd_ok] at totals
  obtain ⟨reports, last, both, -, few, -, all⟩ := whole run completed
  exact ⟨run, completed, of_decide_eq_true counts, totals, reports, last, both, few, all⟩

end Job

end Sources
end AssemblyAtlas
