import AssemblyAtlas.Proofs.Sources.Rounds

/-!
# The closure that a run writes

A completed run has explored its rounds to the end, so its units hold the least closed set of types,
each in one place.

* `Job.explored_run` is what a completed run keeps of its rounds;
* `Run.existsUnique_unitAt` places a type that no unit repeats;
* `Job.isLeast_assigned` is the closure, with its places and the number of its rounds.
-/

namespace AssemblyAtlas
namespace Sources

open Assembly
open Declaration
open Syntax

namespace Run

/-- The unit at a place: the number of its round, and its own number in the round. -/
def unitAt? (run : Run) (place : Nat × Nat) : Option WorkUnit :=
  (run.rounds[place.1]?).bind (·.units[place.2]?)

end Run

/-- Lists that repeat nothing, one after the other, hold an element at one index only. -/
theorem index_eq_of_nodup
    {α β : Type}
    {entries : List α}
    {contents : α → List β}
    (nodup : (entries.flatMap contents).Nodup)
    {i j : Nat}
    {left right : α}
    (at_i : entries[i]? = some left)
    (at_j : entries[j]? = some right)
    {element : β}
    (in_left : element ∈ contents left)
    (in_right : element ∈ contents right) :
    i = j := by
  obtain ⟨below_i, rfl⟩ := List.getElem?_eq_some_iff.1 at_i
  obtain ⟨below_j, rfl⟩ := List.getElem?_eq_some_iff.1 at_j
  have apart := List.pairwise_iff_getElem.1 (List.nodup_flatMap.1 nodup).2
  rcases Nat.lt_trichotomy i j with less | equal | greater
  · exact absurd in_right (apart i j below_i below_j less in_left)
  · exact equal
  · exact absurd in_left (apart j i below_j below_i greater in_right)

namespace Run

/-- A type that the units hold once has one place. -/
theorem existsUnique_unitAt
    {run : Run}
    (nodup : run.assigned.Nodup)
    {token : Token}
    (isAssigned : token ∈ run.assigned) :
    ∃! place, ∃ unit ∈ run.unitAt? place, token ∈ unit.types := by
  rw [assigned, units, List.flatMap_assoc] at nodup isAssigned
  obtain ⟨round, isRound, inRound⟩ := List.mem_flatMap.1 isAssigned
  obtain ⟨unit, isUnit, inUnit⟩ := List.mem_flatMap.1 inRound
  obtain ⟨i, at_i⟩ := List.mem_iff_getElem?.1 isRound
  obtain ⟨j, at_j⟩ := List.mem_iff_getElem?.1 isUnit
  refine ⟨(i, j), ⟨unit, by simp [unitAt?, at_i, at_j], inUnit⟩, ?_⟩
  rintro ⟨k, l⟩ ⟨other, isOther, inOther⟩
  obtain ⟨otherRound, at_k, at_l⟩ := Option.bind_eq_some_iff.1 isOther
  have inOtherRound : token ∈ otherRound.units.flatMap (·.types) :=
    List.mem_flatMap.2 ⟨other, List.mem_of_getElem? at_l, inOther⟩
  obtain rfl : k = i := index_eq_of_nodup nodup at_k at_i inOtherRound inRound
  obtain rfl : otherRound = round := Option.some.inj (at_k.symm.trans at_i)
  have once := (List.nodup_flatMap.1 nodup).1 otherRound isRound
  obtain rfl : l = j := index_eq_of_nodup once at_l at_j inOther inUnit
  rfl

end Run

namespace Job

variable {job : Job}

/-- The last file belongs to no round. -/
theorem finish_rounds
    {run next : Run}
    (finished : job.finish run = .ok next) :
    next.rounds = run.rounds := by
  rw [finish, Success.bind_eq_ok_iff] at finished
  obtain ⟨-, -, finished⟩ := finished
  rw [← Except.ok.inj finished]
  rfl

/-- What holds between rounds is about the rounds only. -/
theorem Explored.congr
    {run next : Run}
    {types : List Token}
    (explored : job.Explored run types)
    (rounds : next.rounds = run.rounds) :
    job.Explored next types := by
  have processed : next.processed = run.processed := by
    rw [Run.processed, rounds, Run.processed]
  constructor
  · rw [processed]
    exact explored.known
  · rw [processed]
    exact explored.nodup
  · rw [processed]
    exact explored.initial
  · rw [processed]
    exact explored.followed
  · rw [processed]
    exact explored.least
  · rw [rounds]
    exact explored.shaped

/-- A completed run has explored all, in at most one more round than it has types. -/
theorem explored_run
    (order : ∀ units, (job.order units).Perm units)
    {cancelled : Bool}
    {run : Run}
    (completed : job.run cancelled = .ok run) :
    job.Explored run [] ∧ run.rounds.length ≤ run.processed.length + 1 := by
  rw [Job.run, Success.bind_eq_ok_iff] at completed
  obtain ⟨last, worked, finished⟩ := completed
  have rounds := finish_rounds finished
  have start : (Run.start cancelled).rounds.length = 0 := rfl
  obtain ⟨explored, few⟩ :=
    (explored_start cancelled).rounds order (by omega) (by omega) worked
  have processed : run.processed = last.processed := by
    rw [Run.processed, rounds, Run.processed]
  refine ⟨explored.congr rounds, ?_⟩
  rw [rounds, processed]
  exact few

/-- Where all is explored, the types in the units are the least closed set. -/
theorem Explored.isLeast
    {run : Run}
    (explored : job.Explored run []) :
    IsLeast {types | job.Closed types} {token | token ∈ run.assigned} := by
  have assigned (token : Token) : token ∈ run.assigned ↔ token ∈ run.processed ++ [] := by
    rw [explored.perm_assigned.mem_iff, List.append_nil]
  constructor
  · constructor
    · intro type isType isIncluded
      have isInitial := mem_initialTypes_iff.2 ⟨type, isType, isIncluded, rfl⟩
      exact (assigned _).2 (explored.initial _ isInitial)
    · intro token isToken next follows
      exact (assigned _).2
        (explored.followed token (explored.perm_assigned.mem_iff.1 isToken) next follows)
  · intro types closed token isToken
    exact explored.least types closed token ((assigned token).1 isToken)

/-- A completed run assigns the least closed set of types to its units. Each type lies in one unit
of one round, and there is at most one more round than types. -/
theorem isLeast_assigned
    (job : Job)
    (order : ∀ units, (job.order units).Perm units)
    (cancelled : Bool)
    (run : Run)
    (completed : job.run cancelled = .ok run) :
    IsLeast {types | job.Closed types} {token | token ∈ run.assigned}
      ∧ run.assigned.Nodup
      ∧ (∀ token ∈ run.assigned, ∃! place, ∃ unit ∈ run.unitAt? place, token ∈ unit.types)
      ∧ run.rounds.length ≤ {token | token ∈ run.assigned}.ncard + 1 := by
  obtain ⟨explored, few⟩ := explored_run order completed
  have same := explored.perm_assigned
  have nodup : run.assigned.Nodup :=
    same.nodup_iff.2 (List.nodup_append'.1 explored.nodup).1
  refine ⟨explored.isLeast, nodup, fun _ => Run.existsUnique_unitAt nodup, ?_⟩
  have count : {token | token ∈ run.assigned}.ncard = run.processed.length := by
    rw [← List.coe_toFinset, Set.ncard_coe_finset, List.toFinset_card_of_nodup nodup,
      same.length_eq]
  rw [count]
  exact few

/-- A module whose only visible type is derived from one that compilers generate. -/
def derivedSample : Module :=
  .ofTypes [
    .bare (.ofRow .typeDefinition 2) "" "<>c",
    { TypeDefinition.bare (.ofRow .typeDefinition 3) "Shop" "Order" with
      base := some (.reference (.definition (.ofRow .typeDefinition 2))) }]

/-- A generated type is written in a second round, because a visible one names it. -/
theorem isLeast_assigned_derivedSample :
    ∃ run, (Job.new ⟨derivedSample, []⟩ .default).run false = .ok run
      ∧ run.rounds.length = 2
      ∧ run.assigned = [.ofRow .typeDefinition 3, .ofRow .typeDefinition 2]
      ∧ IsLeast {types | (Job.new ⟨derivedSample, []⟩ .default).Closed types}
          {token | token ∈ run.assigned} := by
  have passes : ((Job.new ⟨derivedSample, []⟩ .default).run false).toOption.any (fun run =>
      decide (run.rounds.length = 2
        ∧ run.assigned = [.ofRow .typeDefinition 3, .ofRow .typeDefinition 2])) = true := by
    decide +kernel
  obtain ⟨run, completed, shape⟩ := Success.exists_ok_of_any passes
  obtain ⟨two, assigned⟩ := of_decide_eq_true shape
  obtain ⟨least, -⟩ := isLeast_assigned _ List.Perm.refl false run completed
  exact ⟨run, completed, two, assigned, least⟩

end Job

end Sources
end AssemblyAtlas
