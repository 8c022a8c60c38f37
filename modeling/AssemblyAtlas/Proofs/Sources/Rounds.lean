import AssemblyAtlas.Proofs.Assembly.Lookup
import AssemblyAtlas.Proofs.Declaration.SeveralTypes
import AssemblyAtlas.Proofs.Sources.Grouping
import AssemblyAtlas.Sources.Run
import Mathlib.Data.Set.Card

/-!
# The types that a run writes

A run writes the least set of types that contains the included ones and, with each type, those that
its tree names. What one unit adds to a run is said first, then what a round adds; the rounds keep
`Explored`, and a run stops when nothing is left to explore.
-/

namespace AssemblyAtlas
namespace Sources

open Assembly
open Declaration
open Syntax

namespace Run

/-- The units of all rounds. -/
def units (run : Run) : List WorkUnit :=
  run.rounds.flatMap (·.units)

/-- The types in the units of all rounds. -/
def assigned (run : Run) : List Token :=
  run.units.flatMap (·.types)

@[simp] theorem mention_rounds
    (run : Run)
    (tokens : List Token) :
    (run.mention tokens).rounds = run.rounds := rfl

theorem mem_mention_pending
    {run : Run}
    {tokens : List Token}
    {token : Token} :
    token ∈ (run.mention tokens).pending
      ↔
    token ∈ run.pending
      ∨ token ∉ run.processed ∧ token.isTypeDefinition = true ∧ token ∈ tokens := by
  simp only [mention, List.mem_append, List.mem_filter, Bool.and_eq_true, Bool.not_eq_true',
    List.contains_eq_mem, decide_eq_false_iff_not]
  tauto

theorem mem_nextTypes
    {run : Run}
    {token : Token} :
    token ∈ run.nextTypes ↔ token ∈ run.pending ∧ token ∉ run.processed := by
  simp [nextTypes, List.mem_eraseDups]

theorem nodup_nextTypes (run : Run) :
    run.nextTypes.Nodup :=
  (List.mergeSort_perm _ _).nodup_iff.2 (Decompiler.nodup_eraseDups _)

@[simp] theorem startRound_rounds
    (run : Run)
    (round : Round) :
    (run.startRound round).rounds = run.rounds ++ [round] := rfl

@[simp] theorem startRound_pending
    (run : Run)
    (round : Round) :
    (run.startRound round).pending = [] := rfl

theorem processed_eq_append
    {run next : Run}
    {round : Round}
    (h : next.rounds = run.rounds ++ [round]) :
    next.processed = run.processed ++ round.types := by
  rw [processed, processed, h, List.flatMap_append, List.flatMap_singleton]

end Run

namespace Job

variable (job : Job)

/-- The tree of the first type names a type that stands in the second. -/
def Follows (token next : Token) : Prop :=
  ∃ tree resolved definition,
    (Decompiler.new job.system job.settings).types false [token] = .ok tree
      ∧ tree.Names resolved
      ∧ resolved.definitionIn? job.module.mvid = some definition
      ∧ job.module.outermost? definition = some next
      ∧ next.isTypeDefinition = true

/-- The types contain all included ones and, with each type, those that its tree names. -/
structure Closed (types : Set Token) : Prop where
  included : ∀ type ∈ job.module.topLevelTypes,
    included job.settings.concealment job.module type = true → type.token ∈ types
  follows : ∀ token ∈ types, ∀ next, job.Follows token next → next ∈ types

variable {job}

/-! ## One unit -/

theorem check_eq_ok_iff {run : Run} :
    check run = .ok () ↔ run.cancelled = false := by
  rw [check]
  split <;> simp_all

/-- What the tree of a unit mentions follows one of its types, and conversely. -/
theorem mem_mentioned_iff
    {unit : WorkUnit}
    {tree : SourceUnit}
    (built : job.tree false unit = .ok tree)
    (next : Token) :
    next.isTypeDefinition = true ∧ next ∈ job.mentioned tree
      ↔
    ∃ token ∈ unit.types, job.Follows token next := by
  simp only [mentioned, List.mem_filterMap, SourceUnit.mem_namedTypes_iff,
    Option.bind_eq_some_iff]
  have names := Decompiler.names_of_types_iff job.system job.settings false built
  constructor
  · rintro ⟨isType, resolved, named, definition, found, outermost⟩
    obtain ⟨token, isToken, single, hsingle, named⟩ := (names resolved).1 named
    exact ⟨token, isToken, single, resolved, definition, hsingle, named, found, outermost, isType⟩
  · rintro ⟨token, isToken, single, resolved, definition, hsingle, named, found, outermost, isType⟩
    exact ⟨isType, resolved, (names resolved).2 ⟨token, isToken, single, hsingle, named⟩,
      definition, found, outermost⟩

/-- Work on a unit succeeds if nobody has cancelled and the unit has a tree. -/
theorem work_eq_ok_iff
    {run next : Run}
    {unit : WorkUnit} :
    job.work run unit = .ok next
      ↔
    run.cancelled = false ∧ ∃ tree, job.tree false unit = .ok tree
      ∧ next = job.report unit.path
          { run.mention (job.mentioned tree) with
            draft := run.draft.insert (job.file unit tree) } := by
  rw [work, Success.bind_eq_ok_iff]
  constructor
  · rintro ⟨⟨⟩, checked, h⟩
    have going := check_eq_ok_iff.1 checked
    rw [going] at h
    cases built : job.tree false unit with
    | error failure => simp [built] at h
    | ok tree =>
        refine ⟨going, tree, rfl, ?_⟩
        rw [built] at h
        exact (Except.ok.inj h).symm
  · rintro ⟨going, tree, built, rfl⟩
    refine ⟨(), check_eq_ok_iff.2 going, ?_⟩
    rw [going, built]
    rfl

/-- Work on a unit starts no round. What becomes pending is what follows its types and is in no
round. -/
theorem work_step
    {run next : Run}
    {unit : WorkUnit}
    (worked : job.work run unit = .ok next) :
    next.rounds = run.rounds ∧
      ∀ token, token ∈ next.pending ↔ token ∈ run.pending
        ∨ token ∉ run.processed ∧ ∃ type ∈ unit.types, job.Follows type token := by
  obtain ⟨-, tree, built, rfl⟩ := work_eq_ok_iff.1 worked
  refine ⟨rfl, fun token => ?_⟩
  rw [← mem_mentioned_iff built token]
  exact Run.mem_mention_pending

/-- Work on units starts no round. What becomes pending is what follows their types and is in no
round. -/
theorem foldlM_work
    {units : List WorkUnit}
    {run next : Run}
    (worked : units.foldlM job.work run = .ok next) :
    next.rounds = run.rounds ∧
      ∀ token, token ∈ next.pending ↔ token ∈ run.pending
        ∨ token ∉ run.processed ∧ ∃ unit ∈ units, ∃ type ∈ unit.types, job.Follows type token := by
  induction units generalizing run with
  | nil =>
      obtain rfl : run = next := Except.ok.inj worked
      simp
  | cons unit rest ih =>
      rw [List.foldlM_cons, Success.bind_eq_ok_iff] at worked
      obtain ⟨middle, first, worked⟩ := worked
      obtain ⟨step_rounds, step_pending⟩ := work_step first
      obtain ⟨rounds, pending⟩ := ih worked
      refine ⟨rounds.trans step_rounds, fun token => ?_⟩
      have processed : middle.processed = run.processed := by
        rw [Run.processed, step_rounds, Run.processed]
      have either : (∃ other ∈ unit :: rest, ∃ type ∈ other.types, job.Follows type token)
          ↔ (∃ type ∈ unit.types, job.Follows type token)
            ∨ ∃ other ∈ rest, ∃ type ∈ other.types, job.Follows type token := by
        simp only [List.mem_cons, exists_eq_or_imp]
      rw [pending token, step_pending token, processed, either, and_or_left, or_assoc]

/-- A round is started and its units are worked on. What becomes pending is what follows its types
and is in no round. -/
theorem workRound_eq_ok
    {run next : Run}
    {types : List Token}
    (order : ∀ units, (job.order units).Perm units)
    (worked : job.workRound run types = .ok next) :
    next.rounds = run.rounds ++ [job.roundOf types] ∧
      ∀ token, token ∈ next.nextTypes ↔ token ∉ next.processed
        ∧ ∃ unit ∈ (job.roundOf types).units, ∃ type ∈ unit.types, job.Follows type token := by
  rw [workRound, Success.bind_eq_ok_iff] at worked
  obtain ⟨⟨⟩, -, worked⟩ := worked
  obtain ⟨rounds, pending⟩ := foldlM_work worked
  rw [Run.startRound_rounds] at rounds
  refine ⟨rounds, fun token => ?_⟩
  have processed : (run.startRound (job.roundOf types)).processed = next.processed :=
    (Run.processed_eq_append rfl).trans (Run.processed_eq_append rounds).symm
  rw [Run.mem_nextTypes, pending token, Run.startRound_pending, processed]
  have any_order : (∃ unit ∈ job.order (job.roundOf types).units, ∃ type ∈ unit.types,
        job.Follows type token)
      ↔ ∃ unit ∈ (job.roundOf types).units, ∃ type ∈ unit.types, job.Follows type token := by
    simp only [(order _).mem_iff]
  rw [any_order]
  simp only [List.not_mem_nil, false_or]
  tauto

/-- A round is one more round, and its types are processed. -/
theorem counts_of_workRound
    {run next : Run}
    {types : List Token}
    (order : ∀ units, (job.order units).Perm units)
    (worked : job.workRound run types = .ok next) :
    next.processed = run.processed ++ types ∧ next.rounds.length = run.rounds.length + 1 := by
  obtain ⟨rounds, -⟩ := workRound_eq_ok order worked
  refine ⟨Run.processed_eq_append rounds, ?_⟩
  rw [rounds, List.length_append, List.length_singleton]

/-! ## Rounds -/

/-- After a round nothing is next and the run ends, or the next round follows. -/
theorem rounds_succ_eq_ok
    {limit : Nat}
    {run final : Run}
    {types : List Token}
    (worked : job.rounds (limit + 1) run types = .ok final) :
    ∃ next, job.workRound run types = .ok next
      ∧ (next.nextTypes = [] ∧ next = final
        ∨ next.nextTypes ≠ [] ∧ job.rounds limit next next.nextTypes = .ok final) := by
  rw [Job.rounds, Success.bind_eq_ok_iff] at worked
  obtain ⟨next, round, worked⟩ := worked
  refine ⟨next, round, ?_⟩
  cases next_types : next.nextTypes with
  | nil =>
      rw [next_types] at worked
      exact Or.inl ⟨rfl, Except.ok.inj worked⟩
  | cons token rest =>
      rw [next_types] at worked
      exact Or.inr ⟨List.cons_ne_nil token rest, worked⟩

variable (job)

/-- What holds between rounds, when some types are next. -/
structure Explored (run : Run) (next : List Token) : Prop where
  known : ∀ token ∈ run.processed ++ next, (job.module.type? token).isSome
  nodup : (run.processed ++ next).Nodup
  initial : ∀ token ∈ job.initialTypes, token ∈ run.processed ++ next
  followed : ∀ token ∈ run.processed, ∀ other, job.Follows token other →
    other ∈ run.processed ++ next
  least : ∀ types, job.Closed types → ∀ token ∈ run.processed ++ next, token ∈ types
  shaped : ∀ round ∈ run.rounds, round = job.roundOf round.types

variable {job}

/-- A type that follows another has a definition. -/
theorem Follows.known
    {token next : Token}
    (follows : job.Follows token next) :
    (job.module.type? next).isSome := by
  obtain ⟨_, _, _, -, -, -, outermost, -⟩ := follows
  exact Module.isSome_of_outermost? outermost

/-- The types with which a run starts are the included top-level types. -/
theorem mem_initialTypes_iff
    {token : Token} :
    token ∈ job.initialTypes
      ↔
    ∃ type ∈ job.module.topLevelTypes,
      included job.settings.concealment job.module type = true ∧ type.token = token := by
  simp [initialTypes, and_assoc]

/-- At the start the included types are next. -/
theorem explored_start
    (cancelled : Bool) :
    job.Explored (.start cancelled) job.initialTypes where
  known := by
    intro token isToken
    obtain ⟨type, isType, -, rfl⟩ := mem_initialTypes_iff.1 isToken
    rw [Module.type?_of_topLevel isType, Option.isSome_some]
  nodup := (Module.nodup_topLevel job.module).sublist (List.filter_sublist.map _)
  initial := fun _ isToken => isToken
  followed := fun _ isToken => absurd isToken List.not_mem_nil
  least := by
    intro types closed token isToken
    obtain ⟨type, isType, isIncluded, rfl⟩ := mem_initialTypes_iff.1 isToken
    exact closed.included type isType isIncluded
  shaped := fun _ isRound => absurd isRound List.not_mem_nil

/-- A round keeps what holds between rounds. -/
theorem Explored.workRound
    {run next : Run}
    {types : List Token}
    (explored : job.Explored run types)
    (order : ∀ units, (job.order units).Perm units)
    (worked : job.workRound run types = .ok next) :
    job.Explored next next.nextTypes := by
  obtain ⟨rounds, nextTypes⟩ := workRound_eq_ok order worked
  have processed : next.processed = run.processed ++ types := Run.processed_eq_append rounds
  -- The units of the round hold exactly its types, since all of these have definitions.
  have in_units (token : Token) :
      (∃ unit ∈ (job.roundOf types).units, token ∈ unit.types) ↔ token ∈ types := by
    refine (mem_units_iff job.settings job.module types token).trans ⟨And.left, fun isType => ?_⟩
    exact ⟨isType, explored.known token (List.mem_append_right _ isType)⟩
  have next_iff (token : Token) : token ∈ next.nextTypes
      ↔ token ∉ next.processed ∧ ∃ type ∈ types, job.Follows type token := by
    rw [nextTypes token]
    refine and_congr_right fun _ => ⟨?_, ?_⟩
    · rintro ⟨unit, isUnit, type, isType, follows⟩
      exact ⟨type, (in_units type).1 ⟨unit, isUnit, isType⟩, follows⟩
    · rintro ⟨type, isType, follows⟩
      obtain ⟨unit, isUnit, inUnit⟩ := (in_units type).2 isType
      exact ⟨unit, isUnit, type, inUnit, follows⟩
  refine ⟨?_, ?_, ?_, ?_, ?_, ?_⟩
  · intro token isToken
    rcases List.mem_append.1 isToken with old | new
    · exact explored.known token (processed ▸ old)
    · obtain ⟨-, type, -, follows⟩ := (next_iff token).1 new
      exact follows.known
  · rw [List.nodup_append']
    refine ⟨processed ▸ explored.nodup, Run.nodup_nextTypes next, ?_⟩
    intro token old new
    exact ((next_iff token).1 new).1 old
  · intro token isToken
    exact List.mem_append_left _ (processed ▸ explored.initial token isToken)
  · intro token isToken other follows
    by_cases old : other ∈ next.processed
    · exact List.mem_append_left _ old
    · rw [processed] at isToken
      rcases List.mem_append.1 isToken with before | inRound
      · exact absurd (processed ▸ explored.followed token before other follows) old
      · exact List.mem_append_right _ ((next_iff other).2 ⟨old, token, inRound, follows⟩)
  · intro closure closed token isToken
    rcases List.mem_append.1 isToken with old | new
    · exact explored.least closure closed token (processed ▸ old)
    · obtain ⟨-, type, isType, follows⟩ := (next_iff token).1 new
      have inside := explored.least closure closed type (List.mem_append_right _ isType)
      exact closed.follows type inside token follows
  · intro round isRound
    rw [rounds] at isRound
    rcases List.mem_append.1 isRound with old | new
    · exact explored.shaped round old
    · rw [List.mem_singleton.1 new]
      rfl

/-- Rounds end when nothing is next. They are at most one more than the types they write, since each
but the first adds a type; so the limit on their number is never what ends them. -/
theorem Explored.rounds
    (order : ∀ units, (job.order units).Perm units)
    {limit : Nat}
    {run final : Run}
    {types : List Token}
    (explored : job.Explored run types)
    (few : run.rounds.length ≤ (run.processed ++ types).length)
    (enough : job.module.types.size < run.rounds.length + limit)
    (worked : job.rounds limit run types = .ok final) :
    job.Explored final [] ∧ final.rounds.length ≤ final.processed.length + 1 := by
  induction limit generalizing run types with
  | zero =>
      have bound := Module.length_le_size explored.nodup explored.known
      omega
  | succ limit ih =>
      obtain ⟨next, round, worked⟩ := rounds_succ_eq_ok worked
      have further := explored.workRound order round
      obtain ⟨processed, count⟩ := counts_of_workRound order round
      rcases worked with ⟨none_next, rfl⟩ | ⟨some_next, worked⟩
      · rw [none_next] at further
        refine ⟨further, ?_⟩
        rw [processed]
        omega
      · have more : 0 < next.nextTypes.length := List.length_pos_iff.2 some_next
        refine ih further ?_ (by omega) worked
        rw [List.length_append, processed]
        omega

/-- The types in the units of explored rounds are the processed ones, in another order. -/
theorem Explored.perm_assigned
    {run : Run}
    {types : List Token}
    (explored : job.Explored run types) :
    run.assigned.Perm run.processed := by
  have nodup : run.processed.Nodup := (List.nodup_append'.1 explored.nodup).1
  rw [Run.assigned, Run.units, List.flatMap_assoc, Run.processed]
  refine List.Perm.flatMap_left _ fun round isRound => ?_
  have shape := explored.shaped round isRound
  have inside (token : Token) (isToken : token ∈ round.types) :
      (job.module.type? token).isSome :=
    explored.known token (List.mem_append_left _ (List.mem_flatMap.2 ⟨round, isRound, isToken⟩))
  have once : round.types.Nodup := (List.nodup_flatMap.1 nodup).1 round isRound
  rw [shape]
  refine (List.perm_ext_iff_of_nodup (nodup_units job.settings job.module once) once).2 ?_
  intro token
  rw [List.mem_flatMap]
  refine (mem_units_iff job.settings job.module round.types token).trans ?_
  exact ⟨And.left, fun isToken => ⟨isToken, inside token isToken⟩⟩

end Job

end Sources
end AssemblyAtlas
