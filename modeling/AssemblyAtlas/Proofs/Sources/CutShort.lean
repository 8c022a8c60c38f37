import AssemblyAtlas.Proofs.Sources.Quiet
import AssemblyAtlas.Proofs.Sources.Reports

/-!
# Runs that are cut short

A listener may cancel a run at the report with some number. The run goes on as if nobody listened up
to this report, and ends before the next one; only behind the last report there is nothing left to
be cut off.

* `Near` relates a run that nobody cancels to one that is cancelled at a report, and `Parted` what
  comes of the two;
* `Near.work`, `Near.workRound` and `Near.rounds` follow both runs through the same work;
* `Job.run_stoppedAt` compares the two runs as a whole.
-/

namespace AssemblyAtlas
namespace Sources

open Assembly

namespace Job

/-- The job with a listener that cancels at the report with a number. -/
def stoppedAt (job : Job) (number : Nat) : Job :=
  { job with cancelsAt := fun report => report.completed == number }

/-- The run that nobody cancels. -/
def whole (job : Job) : Except Stop Run :=
  job.quiet.run false

/-- The run that is cancelled at the report with a number. -/
def part (job : Job) (number : Nat) : Except Stop Run :=
  (job.stoppedAt number).run false

end Job

/-- Nobody has cancelled, and the report with the number is still to come. -/
structure Going (number : Nat) (run : Run) : Prop where
  quiet : run.cancelled = false
  counted : run.completed = run.reports.length
  few : run.completed < number

/-- The second run is the first one, until the report with the number has come and cancelled it. -/
inductive Near (number : Nat) : Run → Run → Prop
  | going {run : Run} :
      Going number run →
      Near number run run
  | raised {run : Run} :
      run.cancelled = false →
      run.completed = run.reports.length →
      run.completed = number →
      Near number run { run with cancelled := true }

/-- What becomes of a run that nobody cancels, and of one that is cancelled at the report with the
number. Both end well or fail alike, or the second stops at this report, wherever the first ends. -/
inductive Parted (number : Nat) : Except Stop Run → Except Stop Run → Prop
  | near {run other : Run} :
      Near number run other →
      Parted number (.ok run) (.ok other)
  | failed {stop : Stop} :
      stop.run.reports.length < number →
      Parted number (.error stop) (.error stop)
  | stopped {whole : Except Stop Run} {run : Run} :
      run.reports <+: (Run.atEnd whole).reports →
      run.reports.length = number →
      Parted number whole (.error ⟨.cancelled, run⟩)

section Steps

variable {number : Nat} {run other : Run}

theorem Parted.bind
    {whole part : Except Stop Run}
    {rest otherRest : Run → Except Stop Run}
    (first : Parted number whole part)
    (grows : ∀ next, next.reports <+: (Run.atEnd (rest next)).reports)
    (second : ∀ next otherNext, Near number next otherNext →
      Parted number (rest next) (otherRest otherNext)) :
    Parted number (whole >>= rest) (part >>= otherRest) := by
  cases first with
  | near both => exact second _ _ both
  | failed few => exact .failed few
  | stopped start many =>
      refine .stopped (start.trans ?_) many
      cases whole with
      | error stop => exact List.prefix_rfl
      | ok next => exact grows next

/-- A check stops the cancelled run, and lets the other one go on. -/
theorem Near.check
    (near : Near number run other)
    {rest otherRest : Except Stop Run}
    (grows : run.reports <+: (Run.atEnd rest).reports)
    (going : Going number run → other = run → Parted number rest otherRest) :
    Parted number (Job.check run >>= fun _ => rest) (Job.check other >>= fun _ => otherRest) := by
  cases near with
  | going isGoing =>
      rw [Job.check_eq_ok_iff.2 isGoing.quiet]
      exact going isGoing rfl
  | raised quiet counted last =>
      rw [Job.check_eq_ok_iff.2 quiet]
      exact .stopped grows (counted.symm.trans last)

theorem Near.startRound
    (near : Near number run other)
    (round : Round) :
    Near number (run.startRound round) (other.startRound round) := by
  cases near with
  | going isGoing => exact .going ⟨isGoing.quiet, isGoing.counted, isGoing.few⟩
  | raised quiet counted last =>
      exact @Near.raised number (run.startRound round) quiet counted last

/-- Being cancelled does not change what is next. -/
theorem Near.nextTypes_eq
    (near : Near number run other) :
    other.nextTypes = run.nextTypes := by
  cases near <;> rfl

variable {job : Job}

/-- The report with the number cancels the run. -/
theorem Going.report
    (going : Going number run)
    (path : String) :
    Near number (job.quiet.report path run) ((job.stoppedAt number).report path run) := by
  have more : run.completed + 1
      = (run.reports ++ [(⟨"Decompiling " ++ job.module.name, path, run.completed + 1,
          run.total⟩ : Report)]).length := by
    rw [List.length_append, List.length_singleton, going.counted]
  have still : (job.quiet.report path run).cancelled = false := by
    rw [Job.report, Job.quiet, going.quiet]
    rfl
  by_cases last : run.completed + 1 = number
  · have raised : (job.stoppedAt number).report path run
        = { job.quiet.report path run with cancelled := true } := by
      simp only [Job.report, Job.stoppedAt, Job.quiet, last, beq_self_eq_true, Bool.or_true]
      rfl
    rw [raised]
    exact .raised still more last
  · have same : (job.stoppedAt number).report path run = job.quiet.report path run := by
      simp only [Job.report, Job.stoppedAt, Job.quiet, beq_eq_false_iff_ne.2 last]
      rfl
    have few := going.few
    rw [same]
    exact .going ⟨still, more, by change run.completed + 1 < number; omega⟩

theorem Near.work
    (near : Near number run other)
    (unit : WorkUnit) :
    Parted number (job.quiet.work run unit) ((job.stoppedAt number).work other unit) := by
  cases near with
  | going isGoing =>
      rw [job.quiet.work_of_going isGoing.quiet, (job.stoppedAt number).work_of_going isGoing.quiet]
      -- Both runs make the tree of the unit in the same way.
      have quiet : job.quiet.tree false unit = job.tree false unit := rfl
      have heard : (job.stoppedAt number).tree false unit = job.tree false unit := rfl
      rw [quiet, heard]
      cases job.tree false unit with
      | error failure => exact .failed (isGoing.counted ▸ isGoing.few)
      | ok tree =>
          have noted : Going number { run.mention (job.mentioned tree) with
              draft := run.draft.insert (job.file unit tree) } :=
            ⟨isGoing.quiet, isGoing.counted, isGoing.few⟩
          exact .near (noted.report unit.path)
  | raised quiet counted last =>
      rw [(job.stoppedAt number).work_of_cancelled rfl]
      exact .stopped (job.quiet.tells_work run unit).grows (counted.symm.trans last)

theorem Near.foldlM_work
    (near : Near number run other)
    (units : List WorkUnit) :
    Parted number (units.foldlM job.quiet.work run)
      (units.foldlM (job.stoppedAt number).work other) := by
  induction units generalizing run other with
  | nil => exact .near near
  | cons unit rest ih =>
      rw [List.foldlM_cons, List.foldlM_cons]
      exact (near.work unit).bind (fun next => (job.quiet.tells_foldlM_work rest next).grows)
        fun _ _ both => ih both

theorem Near.workRound
    (near : Near number run other)
    (types : List Token) :
    Parted number (job.quiet.workRound run types)
      ((job.stoppedAt number).workRound other types) := by
  have started := near.startRound (job.roundOf types)
  exact started.check (job.quiet.tells_foldlM_work _ (run.startRound (job.roundOf types))).grows
    fun _ _ => started.foldlM_work (job.order (job.roundOf types).units)

variable (job) in
theorem Near.rounds
    (near : Near number run other)
    (limit : Nat)
    (types : List Token) :
    Parted number (job.quiet.rounds limit run types)
      ((job.stoppedAt number).rounds limit other types) := by
  induction limit generalizing run other types with
  | zero => exact .near near
  | succ limit ih =>
      rw [Job.rounds_succ, Job.rounds_succ]
      refine (near.workRound types).bind (fun next => ?_) fun next otherNext both => ?_
      · split
        · exact List.prefix_rfl
        · obtain ⟨_, -, tells⟩ := job.quiet.tells_rounds limit next next.nextTypes
          exact tells.grows
      · rw [both.nextTypes_eq]
        split
        · exact .near both
        · exact ih both _

end Steps

namespace Job

/-- What a listener that cancels at the report with a number makes of a run: nothing if the run ends
before; nothing but the mark that it is cancelled if this is the last report, that of the file with
the attributes of the assembly; and otherwise an end right behind the report. -/
inductive CutShort (job : Job) (number : Nat) : Except Stop Run → Except Stop Run → Prop
  | early {whole : Except Stop Run} :
      (Run.atEnd whole).reports.length < number →
      CutShort job number whole whole
  | last {run : Run} :
      run.reports.length = number →
      (job.worked run).length + 1 = number →
      CutShort job number (.ok run) (.ok { run with cancelled := true })
  | between {whole : Except Stop Run} {run : Run} :
      run.reports <+: (Run.atEnd whole).reports →
      run.reports.length = number →
      number ≤ (job.worked (Run.atEnd whole)).length →
      CutShort job number whole (.error ⟨.cancelled, run⟩)

variable {job : Job} {number : Nat}

/-- A run that has reported one file more than its units is at its end. -/
theorem CutShort.of_near
    {run other : Run}
    (near : Near number run other)
    (all : run.reports.length = (job.worked run).length + 1) :
    job.CutShort number (.ok run) (.ok other) := by
  cases near with
  | going isGoing => exact .early (isGoing.counted ▸ isGoing.few)
  | raised quiet counted last => exact .last (counted ▸ last) (all ▸ counted ▸ last)

/-- The last report is that of the file with the attributes of the assembly. -/
theorem CutShort.of_going
    {run : Run}
    (going : Going number run)
    (units : run.reports.length = (job.worked run).length) :
    job.CutShort number (job.quiet.finish run) ((job.stoppedAt number).finish run) := by
  rw [job.quiet.finish_of_going going.quiet, (job.stoppedAt number).finish_of_going going.quiet]
  have inserted : Going number { run with draft := run.draft.insert job.assemblyInfo } :=
    ⟨going.quiet, going.counted, going.few⟩
  refine .of_near (inserted.report assemblyInfoPath) ?_
  change (run.reports ++ [_]).length = (job.worked run).length + 1
  rw [List.length_append, units, List.length_singleton]

/-- The file with the attributes of the assembly is written behind all units, unless there was a
report before that cancels the run. -/
theorem CutShort.finish
    {whole part : Except Stop Run}
    (parted : Parted number whole part)
    (told : (Run.atEnd whole).reports.map (·.path)
      <+: (job.worked (Run.atEnd whole)).map (·.path))
    (completed : ∀ run, whole = .ok run →
      (Run.atEnd whole).reports.map (·.path) = (job.worked (Run.atEnd whole)).map (·.path)) :
    job.CutShort number (whole >>= job.quiet.finish) (part >>= (job.stoppedAt number).finish) := by
  have units : job.worked (Run.atEnd (whole >>= job.quiet.finish)) = job.worked (Run.atEnd whole) :=
    job.quiet.worked_atEnd_bind_finish whole
  have grows : (Run.atEnd whole).reports <+: (Run.atEnd (whole >>= job.quiet.finish)).reports := by
    cases whole with
    | error stop => exact List.prefix_rfl
    | ok run => exact (job.quiet.tells_finish run).grows
  have unitsOnly : (Run.atEnd whole).reports.length ≤ (job.worked (Run.atEnd whole)).length := by
    simpa using told.length_le
  cases parted with
  | failed few => exact .early few
  | stopped start many =>
      refine .between (start.trans grows) many ?_
      rw [units, ← many]
      exact start.length_le.trans unitsOnly
  | @near run other near =>
      cases near with
      | raised quiet counted last =>
          refine @CutShort.between job number _ { run with cancelled := true } grows (counted ▸ last) ?_
          rw [units, ← last, counted]
          exact unitsOnly
      | going going =>
          exact .of_going going (by simpa using congrArg List.length (completed run rfl))

/-- A listener that cancels at a report cuts the run short there. -/
theorem cutShort_run
    (job : Job)
    (positive : 0 < number) :
    job.CutShort number job.whole (job.part number) := by
  have start : Going number (.start false) := ⟨rfl, rfl, positive⟩
  have parted := (Near.going start).rounds job (job.module.types.size + 1) job.initialTypes
  obtain ⟨told, completed⟩ := (job.quiet.tells_allRounds (job.module.types.size + 1)
    false job.initialTypes).of_start
  exact .finish parted told completed

/-- Up to a report, a run that is cancelled there is the run that nobody cancels. If this one makes
fewer reports, both are the same. Otherwise the cancelled run has exactly the reports up to this one
and fails as cancelled, unless it is the report behind those of all units, that of the file with the
attributes of the assembly: then the run is completed with the same files. -/
theorem run_stoppedAt
    (job : Job)
    (number : Nat)
    (positive : 0 < number) :
    ((Run.atEnd job.whole).reports.length < number → job.part number = job.whole)
      ∧ (number ≤ (Run.atEnd job.whole).reports.length →
        (Run.atEnd (job.part number)).reports = (Run.atEnd job.whole).reports.take number
          ∧ if number = (job.worked (Run.atEnd job.whole)).length + 1 then
              ∃ run, job.whole = .ok run ∧ job.part number = .ok { run with cancelled := true }
            else
              ∃ run, job.part number = .error ⟨.cancelled, run⟩)
      ∧ (Run.atEnd job.whole).reports.map (·.path)
          <+: (job.worked (Run.atEnd job.whole)).map (·.path) ++ [assemblyInfoPath]
      ∧ ∀ run, job.whole = .ok run →
          run.reports.map (·.path) = (job.worked run).map (·.path) ++ [assemblyInfoPath] := by
  obtain ⟨told, completed⟩ := (job.quiet.tells_run false).of_start
  have cut := job.cutShort_run positive
  refine ⟨fun few => ?_, fun reached => ?_, told, fun run done => ?_⟩
  · generalize job.whole = whole, job.part number = part at cut few ⊢
    cases cut with
    | early _ => rfl
    | last all _ => exact absurd few (Nat.not_lt.2 all.ge)
    | between start all _ => exact absurd few (Nat.not_lt.2 (all ▸ start.length_le))
  · generalize job.whole = whole, job.part number = part at cut reached ⊢
    cases cut with
    | early few => exact absurd few (Nat.not_lt.2 reached)
    | @last run all units =>
        rw [Run.atEnd_ok, Run.atEnd_ok, ← all, List.take_length, if_pos (all.trans units.symm)]
        exact ⟨rfl, run, rfl, rfl⟩
    | @between _ run start all units =>
        rw [Run.atEnd_error, if_neg (by omega), ← all]
        exact ⟨List.prefix_iff_eq_take.1 start, run, rfl⟩
  · have all := completed run done
    rw [show job.quiet.run false = .ok run from done] at all
    exact all

/-- Cancelled at its first report, the run over a module whose visible type names a generated one
stops before the round of the generated type. At the third report everything is done. -/
theorem run_stoppedAt_derivedSample :
    ∃ whole, (Job.new ⟨derivedSample, []⟩ .default).whole = .ok whole
      ∧ whole.reports.length = 3
      ∧ (∃ run, (Job.new ⟨derivedSample, []⟩ .default).part 1 = .error ⟨.cancelled, run⟩
          ∧ run.reports = whole.reports.take 1)
      ∧ (Job.new ⟨derivedSample, []⟩ .default).part 3 = .ok { whole with cancelled := true } := by
  have passes : (Job.new ⟨derivedSample, []⟩ .default).whole.toOption.any (fun run =>
      decide (run.reports.length = 3
        ∧ ((Job.new ⟨derivedSample, []⟩ .default).worked run).length = 2)) = true := by
    decide +kernel
  obtain ⟨whole, completed, shape⟩ := Success.exists_ok_of_any passes
  obtain ⟨three, two⟩ := of_decide_eq_true shape
  have first := (run_stoppedAt (Job.new ⟨derivedSample, []⟩ .default) 1 (by decide)).2.1
  have third := (run_stoppedAt (Job.new ⟨derivedSample, []⟩ .default) 3 (by decide)).2.1
  simp only [completed, Run.atEnd_ok, three, two] at first third
  obtain ⟨reports, run, stopped⟩ := first (by decide)
  obtain ⟨-, last, same, done⟩ := third (by decide)
  obtain rfl := Except.ok.inj same
  rw [stopped] at reports
  exact ⟨whole, completed, three, ⟨run, stopped, reports⟩, done⟩

end Job

end Sources
end AssemblyAtlas
