import AssemblyAtlas.Navigation.Implementation
import AssemblyAtlas.Proofs.Assembly.Lookup
import AssemblyAtlas.Proofs.Success

/-!
# Routes along forwarded types

From an assembly that does not define a type the way leads to the file that its first forward names,
from there to the next, and so on to the first assembly that does not send it any further.

* `IsFinal` and `next?` say where the way ends and where it goes on;
* `IsRoute` is the way from one assembly to the first final one, as a list of readable files of
  which no two are the same;
* `follow?_eq_some_iff` says that the way is found if it has less than `maxForwards` hops.
-/

namespace AssemblyAtlas
namespace Navigation
namespace Implementation

open Assembly
open Reference

/-! ## Ways from file to file -/

section Ways

variable (read : ModuleReader) (disk : Disk) (type : SymbolKey)

/-- The file is there, and its module can be read. -/
def IsReadable (path : String) : Prop :=
  disk.isFile path ∧ (moduleAt read disk path).toOption.isSome

/-- The module of the file defines the type, or has no forward for it. -/
def IsFinal (path : String) : Prop :=
  ∃ module, moduleAt read disk path = .ok module
    ∧ ((module.findType? type.space type.typeName).isSome
      ∨ module.forwarded? type.space type.typeName = none)

/-- The file beside this one that the first forward for the type names. -/
def next? (path : String) : Option String := do
  let module ← (moduleAt read disk path).toOption
  let forward ← module.forwarded? type.space type.typeName
  forwardPath? path forward

/-- The way from a file to the first final one: each file is the next of the one before it, all of
them are readable, and none comes twice. -/
structure IsRoute (route : List String) (start stop : String) : Prop where
  first : route.head? = some start
  last : route.getLast? = some stop
  steps : route.IsChain fun path next => next? read disk type path = some next
  final : IsFinal read disk type stop
  passed : ∀ path ∈ route.dropLast, ¬IsFinal read disk type path
  apart : route.Pairwise fun earlier later => ¬Path.Same earlier later
  readable : ∀ path ∈ route, IsReadable read disk path

end Ways

/-- The number of times that a way goes from one file to the next. -/
def hops (route : List String) : Nat :=
  route.length - 1

variable {read : ModuleReader} {disk : Disk} {type : SymbolKey}

theorem isFinal_iff_any
    {path : String} :
    IsFinal read disk type path
      ↔ (moduleAt read disk path).toOption.any fun module =>
          (module.findType? type.space type.typeName).isSome
            || (module.forwarded? type.space type.typeName).isNone := by
  rw [IsFinal]
  cases moduleAt read disk path with
  | error failure => simp [Except.toOption]
  | ok module => simp [Except.toOption]

instance (path : String) : Decidable (IsFinal read disk type path) :=
  decidable_of_iff _ isFinal_iff_any.symm

instance (path : String) : Decidable (IsReadable read disk path) :=
  inferInstanceAs (Decidable (_ ∧ _))

/-! ## One step -/

/-- Only files have modules. -/
theorem isFile_of_moduleAt
    {path : String}
    {module : Module}
    (found : moduleAt read disk path = .ok module) :
    disk.isFile path := by
  obtain ⟨image, opened, -⟩ := Success.bind_eq_ok_iff.1 found
  rw [Image.ofFile] at opened
  rw [Disk.isFile]
  split at opened
  · exact absurd opened.symm Success.ok_ne_error
  · next place text readOnly looked => rw [looked]
  · exact absurd opened.symm Success.ok_ne_error

/-- Where the module can be read, the file is final or has a forward for the type. -/
theorem isFinal_iff_of_moduleAt
    {path : String}
    {module : Module}
    (found : moduleAt read disk path = .ok module) :
    IsFinal read disk type path
      ↔ (module.findType? type.space type.typeName).isSome
        ∨ module.forwarded? type.space type.typeName = none := by
  constructor
  · rintro ⟨other, alsoFound, final⟩
    obtain rfl := Except.ok.inj (alsoFound.symm.trans found)
    exact final
  · exact fun final => ⟨module, found, final⟩

theorem next?_of_moduleAt
    {path : String}
    {module : Module}
    (found : moduleAt read disk path = .ok module) :
    next? read disk type path
      = (module.forwarded? type.space type.typeName).bind (forwardPath? path) := by
  rw [next?, found]
  rfl

theorem isReadable_of_isFinal
    {path : String}
    (final : IsFinal read disk type path) :
    IsReadable read disk path := by
  obtain ⟨module, found, -⟩ := final
  exact ⟨isFile_of_moduleAt found, by rw [found]; rfl⟩

theorem isReadable_of_next?
    {path next : String}
    (leads : next? read disk type path = some next) :
    IsReadable read disk path := by
  obtain ⟨module, read, -⟩ := Option.bind_eq_some_iff.1 leads
  refine ⟨?_, by rw [read]; rfl⟩
  match found : moduleAt _ disk path, read with
  | .ok _, _ => exact isFile_of_moduleAt found

/-- One step: a file that was not visited is where the search ends if it is final; from any other
the search goes on at the next file, if that is there. -/
theorem followFrom?_succ_eq_some_iff
    {count : Nat}
    {visited : List String}
    {path stop : String} :
    followFrom? read disk type (count + 1) visited path = some stop
      ↔ (∀ other ∈ visited, ¬Path.Same other path)
        ∧ (IsFinal read disk type path ∧ stop = path
          ∨ ¬IsFinal read disk type path
            ∧ ∃ next, next? read disk type path = some next
              ∧ disk.isFile next
              ∧ followFrom? read disk type count (visited ++ [path]) next = some stop) := by
  rw [followFrom?]
  by_cases seen : visited.any fun other => decide (Path.Same other path)
  · rw [if_pos seen]
    obtain ⟨other, inside, same⟩ := List.any_eq_true.1 seen
    refine iff_of_false (fun found => nomatch found) fun found => ?_
    exact found.1 other inside (of_decide_eq_true same)
  · have fresh : ∀ other ∈ visited, ¬Path.Same other path := fun other inside same =>
      seen (List.any_eq_true.2 ⟨other, inside, decide_eq_true same⟩)
    rw [if_neg seen, and_iff_right fresh]
    match found : moduleAt read disk path with
    | .error failure =>
        refine iff_of_false (fun found => nomatch found) ?_
        rintro (⟨⟨module, read, -⟩, -⟩ | ⟨-, next, leads, -⟩)
        · exact Success.ok_ne_error (read.symm.trans found)
        · simp [next?, found, Except.toOption] at leads
    | .ok module =>
        rw [isFinal_iff_of_moduleAt found, next?_of_moduleAt found]
        dsimp only
        cases module.findType? type.space type.typeName with
        | some definition => simp [@eq_comm _ path]
        | none =>
            cases module.forwarded? type.space type.typeName with
            | none => simp [@eq_comm _ path]
            | some forward => simp [Option.bind_eq_some_iff]

/-! ## Whole ways -/

namespace IsRoute

/-- The way from a final file is the file itself. -/
theorem of_isFinal
    {path : String}
    (final : IsFinal read disk type path) :
    IsRoute read disk type [path] path path where
  first := rfl
  last := rfl
  steps := .singleton path
  final := final
  passed := fun _ inside => nomatch inside
  apart := List.pairwise_singleton _ path
  readable := fun _ inside => List.mem_singleton.1 inside ▸ isReadable_of_isFinal final

/-- The way from any other file goes on from the next one and does not come back. -/
theorem cons
    {path next stop : String}
    {rest : List String}
    (passing : ¬IsFinal read disk type path)
    (leads : next? read disk type path = some next)
    (route : IsRoute read disk type rest next stop)
    (apart : ∀ later ∈ rest, ¬Path.Same path later) :
    IsRoute read disk type (path :: rest) path stop := by
  obtain ⟨tail, rfl⟩ := List.head?_eq_some_iff.1 route.first
  refine ⟨rfl, ?_, ?_, route.final, ?_, List.pairwise_cons.2 ⟨apart, route.apart⟩, ?_⟩
  · rw [List.getLast?_cons_cons, route.last]
  · exact List.isChain_cons_cons.2 ⟨leads, route.steps⟩
  · rw [List.dropLast_cons_cons]
    exact List.forall_mem_cons.2 ⟨passing, route.passed⟩
  · exact List.forall_mem_cons.2 ⟨isReadable_of_next? leads, route.readable⟩

/-- A way starts at a final file and ends there, or it goes on from the next file. -/
theorem cases_start
    {route : List String}
    {start stop : String}
    (way : IsRoute read disk type route start stop) :
    route = [start] ∧ stop = start ∧ IsFinal read disk type start
      ∨ ∃ next rest, route = start :: rest
        ∧ ¬IsFinal read disk type start
        ∧ next? read disk type start = some next
        ∧ (∀ later ∈ rest, ¬Path.Same start later)
        ∧ IsRoute read disk type rest next stop := by
  obtain ⟨tail, rfl⟩ := List.head?_eq_some_iff.1 way.first
  cases tail with
  | nil =>
      obtain rfl : start = stop := Option.some.inj way.last
      exact .inl ⟨rfl, rfl, way.final⟩
  | cons next rest =>
      have steps := List.isChain_cons_cons.1 way.steps
      have passed := way.passed
      rw [List.dropLast_cons_cons, List.forall_mem_cons] at passed
      have apart := List.pairwise_cons.1 way.apart
      refine .inr ⟨next, next :: rest, rfl, passed.1, steps.1, apart.1, rfl, ?_, steps.2, way.final,
        passed.2, apart.2, fun path inside => way.readable path (List.mem_cons_of_mem _ inside)⟩
      rw [← way.last, List.getLast?_cons_cons]

/-- The start of a way is a file. -/
theorem isFile_start
    {route : List String}
    {start stop : String}
    (way : IsRoute read disk type route start stop) :
    disk.isFile start :=
  (way.readable start (List.mem_of_head? way.first)).1

end IsRoute

/-- Within a number of files the search gets to the end of the way, if the way has no more files
than these and goes past none that was visited before. -/
theorem followFrom?_eq_some_iff
    {count : Nat}
    {visited : List String}
    {path stop : String} :
    followFrom? read disk type count visited path = some stop
      ↔ ∃ route, IsRoute read disk type route path stop
        ∧ route.length ≤ count
        ∧ ∀ other ∈ visited, ∀ later ∈ route, ¬Path.Same other later := by
  induction count generalizing visited path with
  | zero =>
      refine iff_of_false (fun found => nomatch found) ?_
      rintro ⟨route, way, short, -⟩
      have first := way.first
      rw [List.length_eq_zero_iff.1 (Nat.le_zero.1 short)] at first
      exact nomatch first
  | succ count ih =>
      rw [followFrom?_succ_eq_some_iff]
      constructor
      · rintro ⟨fresh, ⟨final, rfl⟩ | ⟨passing, next, leads, -, found⟩⟩
        · refine ⟨[stop], .of_isFinal final, Nat.le_add_left 1 count, fun other inside later => ?_⟩
          exact fun isStop => List.mem_singleton.1 isStop ▸ fresh other inside
        · obtain ⟨rest, way, short, apart⟩ := ih.1 found
          rw [List.forall_mem_append, List.forall_mem_singleton] at apart
          refine ⟨path :: rest, way.cons passing leads apart.2, Nat.succ_le_succ short, ?_⟩
          exact fun other inside => List.forall_mem_cons.2 ⟨fresh other inside, apart.1 other inside⟩
      · rintro ⟨route, way, short, fresh⟩
        refine ⟨fun other inside => fresh other inside path (List.mem_of_head? way.first), ?_⟩
        rcases way.cases_start with ⟨-, rfl, final⟩ | ⟨next, rest, rfl, passing, leads, apart, way⟩
        · exact .inl ⟨final, rfl⟩
        · refine .inr ⟨passing, next, leads, way.isFile_start, ih.2 ⟨rest, way, ?_, ?_⟩⟩
          · exact Nat.le_of_succ_le_succ short
          · rw [List.forall_mem_append, List.forall_mem_singleton]
            exact ⟨fun other inside => (List.forall_mem_cons.1 (fresh other inside)).2, apart⟩

/-- An assembly is found if it is the end of a way with less than eight hops, from the start to the
first assembly that does not forward the top-level type, and nothing is found if there is no such
way: if it comes back, breaks off at a file that is not there or cannot be read, or is too long. -/
theorem follow?_eq_some_iff
    (read : ModuleReader)
    (disk : Disk)
    (symbol : SymbolKey)
    (start : String) :
    (∀ stop, follow? read disk symbol start = some stop
        ↔ ∃ route, IsRoute read disk symbol.topLevelType route start stop
          ∧ hops route < maxForwards)
      ∧ (follow? read disk symbol start = none
        ↔ ¬∃ stop route, IsRoute read disk symbol.topLevelType route start stop
          ∧ hops route < maxForwards) := by
  have found (stop : String) : follow? read disk symbol start = some stop
      ↔ ∃ route, IsRoute read disk symbol.topLevelType route start stop
        ∧ hops route < maxForwards := by
    rw [follow?, followFrom?_eq_some_iff]
    refine exists_congr fun route => and_congr_right fun way => ?_
    have positive : 0 < route.length :=
      List.length_pos_of_mem (List.mem_of_head? way.first)
    have anew : ∀ other ∈ [], ∀ later ∈ route, ¬Path.Same other later := by simp
    rw [and_iff_left anew, hops]
    omega
  refine ⟨found, ?_⟩
  simp only [Option.eq_none_iff_forall_ne_some, ne_eq, found, not_exists]

/-- The name of an assembly file in a row of them. -/
def rowName (index : Nat) : String :=
  "a" ++ toString index

/-- The files of the row. -/
def rowRoute : List String :=
  (List.range 9).map fun index => rowName index ++ ".dll"

/-- The modules of the row: each forwards a type to the next, and only the last defines it. -/
def rowModule (index : Nat) : Module :=
  if index < 8 then
    { Module.ofTypes [] with forwards := [⟨"N", "T", .ofName (rowName (index + 1)) .unspecified⟩] }
  else
    .ofTypes [.bare (.ofRow .typeDefinition 2) "N" "T"]

/-- Finds the modules of the row by the paths of their files. -/
def rowReader : ModuleReader := fun image =>
  match rowRoute.findIdx? fun path => image.path = some path with
  | some index => .ok (rowModule index)
  | none => .error .empty

/-- The files of the row beside each other. -/
def rowDisk : Disk :=
  { Disk.empty with entries := rowRoute.map fun path => ([path], .file "MZ" false) }

/-- The last of nine files is eight hops away, and is not found. -/
theorem follow?_rowSample :
    IsRoute rowReader rowDisk (SymbolKey.ofTypePath "N" ["T"]).topLevelType rowRoute
        "a0.dll" "a8.dll"
      ∧ hops rowRoute ≤ maxForwards
      ∧ follow? rowReader rowDisk (.ofTypePath "N" ["T"]) "a0.dll" = none := by
  refine ⟨⟨?first, ?last, ?steps, ?final, ?passed, ?apart, ?readable⟩, ?hops, ?none⟩
  all_goals decide +kernel

end Implementation
end Navigation
end AssemblyAtlas
