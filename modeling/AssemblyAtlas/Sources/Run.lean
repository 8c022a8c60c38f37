import AssemblyAtlas.Declaration.Build
import AssemblyAtlas.Sources.Layout
import AssemblyAtlas.Sources.SourceSet
import AssemblyAtlas.Syntax.Visit

/-!
# Runs

A run writes the source files of a whole assembly. It starts with the included types. Whatever
types of the assembly a file mentions are written too, in a further round, until no new type is
mentioned; the file with the attributes of the assembly comes last.

* `Job` is what a run is told, and `Run` is what it has done so far;
* `Job.work` writes one file, `Job.rounds` all of them, and `Job.run` the whole assembly;
* a run that fails or is cancelled ends in a `Stop`, which keeps what was done.
-/

namespace AssemblyAtlas
namespace Sources

open Assembly
open Declaration
open Syntax

/-- The news that a file is written. -/
structure Report where
  title : String
  path : String
  /-- The number of files written so far. -/
  completed : Nat
  /-- The number of files that are known to be written in the end. -/
  total : Nat
deriving DecidableEq

/-- The types of a round and the units they make. -/
structure Round where
  types : List Token
  units : List WorkUnit
deriving DecidableEq

/-- What a run has done so far. -/
structure Run where
  /-- The rounds that were started, in their order. -/
  rounds : List Round
  /-- The types that were mentioned in this round and are in none so far. -/
  pending : List Token
  draft : SourceDraft
  completed : Nat
  total : Nat
  reports : List Report
  cancelled : Bool

namespace Run

/-- Nothing is done, and perhaps nothing will be. -/
def start (cancelled : Bool) : Run :=
  ⟨[], [], .empty, 0, 1, [], cancelled⟩

/-- The types of all rounds. -/
def processed (run : Run) : List Token :=
  run.rounds.flatMap (·.types)

/-- Notes the types among some that are in no round. -/
def mention (run : Run) (tokens : List Token) : Run :=
  { run with
    pending :=
      run.pending ++ tokens.filter fun token =>
        token.isTypeDefinition && !run.processed.contains token }

/-- The mentioned types that are in no round, each once and in the order of their tokens. -/
def nextTypes (run : Run) : List Token :=
  (run.pending.filter (!run.processed.contains ·)).eraseDups.mergeSort
    fun left right => decide (left ≤ right)

/-- Starts a round. -/
def startRound (run : Run) (round : Round) : Run :=
  { run with
    rounds := run.rounds ++ [round]
    pending := []
    total := run.total + round.units.length }

end Run

/-- The end of a run that was not completed. -/
structure Stop where
  failure : Failure
  run : Run

/-- The number of units that are worked on at the same time, when some number is asked for. -/
def workers (requested : Nat) : Nat :=
  max requested 1

/-- What a run is told. -/
structure Job where
  system : TypeSystem
  settings : Settings
  /-- The order in which the units of a round are worked on. -/
  order : List WorkUnit → List WorkUnit
  /-- The listener cancels the run when it gets this report. -/
  cancelsAt : Report → Bool

/-- The failure of the unit with a path. Cancellation has no path. -/
def unitFailure (path : String) : Failure → Failure
  | .cancelled => .cancelled
  | .unit inner source => .unit inner source
  | failure => .unit path failure

namespace Job

/-- A run over a type system in which nobody listens. -/
def new (system : TypeSystem) (settings : Settings) : Job :=
  ⟨system, settings, id, fun _ => false⟩

variable (job : Job)

/-- The module that is written. -/
def module : Module :=
  job.system.main

/-- The syntax tree of a unit. -/
def tree (cancelled : Bool) (unit : WorkUnit) : Except Failure SourceUnit :=
  (Decompiler.new job.system job.settings).types cancelled unit.types

/-- The outermost types of the module that a syntax tree mentions. -/
def mentioned (tree : SourceUnit) : List Token :=
  tree.namedTypes.filterMap fun resolved =>
    (resolved.definitionIn? job.module.mvid).bind job.module.outermost?

/-- The file with a syntax tree. -/
def file (unit : WorkUnit) (tree : SourceUnit) : SourceFile :=
  let rendered := tree.render job.settings.format
  ⟨unit.path, rendered.text, rendered.symbols, unit.types⟩

/-- Counts a file and reports it. -/
def report (path : String) (run : Run) : Run :=
  let report : Report :=
    ⟨"Decompiling " ++ job.module.name, path, run.completed + 1, run.total⟩
  { run with
    completed := run.completed + 1
    reports := run.reports ++ [report]
    cancelled := run.cancelled || job.cancelsAt report }

/-- A cancelled run goes no further. -/
def check (run : Run) : Except Stop Unit :=
  if run.cancelled then .error ⟨.cancelled, run⟩ else .ok ()

/-- Writes the file of a unit. -/
def work (run : Run) (unit : WorkUnit) : Except Stop Run := do
  check run
  match job.tree run.cancelled unit with
  | .error failure => .error ⟨unitFailure unit.path failure, run⟩
  | .ok tree =>
      let run := run.mention (job.mentioned tree)
      return job.report unit.path { run with draft := run.draft.insert (job.file unit tree) }

/-- The round of some types. -/
def roundOf (types : List Token) : Round :=
  ⟨types, group job.settings job.module types⟩

/-- Writes the files of a round. -/
def workRound (run : Run) (types : List Token) : Except Stop Run := do
  let round := job.roundOf types
  let run := run.startRound round
  check run
  (job.order round.units).foldlM job.work run

/-- Writes rounds until no new type is mentioned, but at most a number of them. -/
def rounds : (limit : Nat) → Run → List Token → Except Stop Run
  | 0, run, _ => .ok run
  | limit + 1, run, types => do
      let run ← job.workRound run types
      let next := run.nextTypes
      if next.isEmpty then .ok run else rounds limit run next

/-- The types with which a run starts. -/
def initialTypes : List Token :=
  (job.module.topLevelTypes.filter (included job.settings.concealment job.module)).map (·.token)

/-- The file with the attributes of assembly and module. -/
def assemblyInfo : SourceFile :=
  let decompiler := (Decompiler.new job.system job.settings).withTransform .dropGenerated
  job.file ⟨assemblyInfoPath, []⟩ decompiler.assemblyMarks

/-- Writes the file with the attributes of assembly and module. -/
def finish (run : Run) : Except Stop Run := do
  check run
  return job.report assemblyInfoPath { run with draft := run.draft.insert job.assemblyInfo }

/-- Writes the files of the module. Every round but the first has a type of its own, so there are
not more rounds than types and one. -/
def run (cancelled : Bool) : Except Stop Run := do
  let run ← job.rounds (job.module.types.size + 1) (.start cancelled) job.initialTypes
  job.finish run

end Job

/-- The source files that a completed run has written. -/
def Run.sources (run : Run) : SourceSet :=
  .ofDraft run.draft

end Sources
end AssemblyAtlas
