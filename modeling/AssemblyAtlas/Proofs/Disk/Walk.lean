import AssemblyAtlas.Disk
import AssemblyAtlas.Proofs.Success

/-!
# Following paths

* `Disk.Leads` is what one step of a path can do, and `Disk.step_eq_ok_iff` says that it is all;
* `Disk.lookup_eq_ok_iff` says when a path leads to an entry.
-/

namespace AssemblyAtlas
namespace Disk

open Success

variable {disk : Disk}

/-- Where one step leads. Only from the root a path goes on whatever was before. -/
inductive Leads (disk : Disk) : Target → Path.Component → Target → Prop
  | root (start : Target) : Leads disk start .root (.found [] .directory)
  | current (place : Place) :
      Leads disk (.found place .directory) .current (.found place .directory)
  | parent (place : Place) :
      Leads disk (.found place .directory) .parent (.found place.dropLast .directory)
  | found {place : Place} {name : String} {entry : Entry} :
      name.utf8ByteSize ≤ longestName →
      disk.at? (place ++ [name]) = some entry →
      Leads disk (.found place .directory) (.name name) (.found (place ++ [name]) entry)
  | absent {place : Place} {name : String} :
      name.utf8ByteSize ≤ longestName →
      disk.at? (place ++ [name]) = none →
      Leads disk (.found place .directory) (.name name) (.absent (place ++ [name]))

theorem step_eq_ok_iff
    {start target : Target}
    {step : Path.Component} :
    start.step disk step = .ok target ↔ disk.Leads start step target := by
  constructor
  · intro stepped
    cases start with
    | absent place =>
        cases step with
        | root => cases stepped; exact .root _
        | _ => cases stepped
    | found place entry =>
        cases entry with
        | file text readOnly =>
            cases step with
            | root => cases stepped; exact .root _
            | _ => cases stepped
        | directory =>
            cases step with
            | root => cases stepped; exact .root _
            | current => cases stepped; exact .current place
            | parent => cases stepped; exact .parent place
            | name name =>
                rw [Target.step] at stepped
                split_ifs at stepped with long
                dsimp only at stepped
                split at stepped
                · next entry present =>
                    cases stepped
                    exact .found (Nat.le_of_not_lt long) present
                · next missing =>
                    cases stepped
                    exact .absent (Nat.le_of_not_lt long) missing
  · rintro (start | place | place | ⟨short, present⟩ | ⟨short, missing⟩)
    · rw [Target.step]
    · rfl
    · rfl
    · rw [Target.step, if_neg (Nat.not_lt.2 short)]
      dsimp only
      rw [present]
    · rw [Target.step, if_neg (Nat.not_lt.2 short)]
      dsimp only
      rw [missing]

/-- A single dot leads nowhere else, if it leads anywhere. -/
theorem eq_of_step_current
    {start target : Target}
    (stepped : start.step disk .current = .ok target) :
    target = start := by
  cases step_eq_ok_iff.1 stepped
  rfl

/-- Every path from the root goes on, also where the working directory is gone. -/
theorem walk_root (steps : List Path.Component) :
    disk.walk (.root :: steps) = steps.foldlM (Target.step disk) (.found [] .directory) := by
  rw [walk, List.foldlM_cons, step_eq_ok_iff.2 (.root disk.start)]
  rfl

theorem walk_concat
    {steps : List Path.Component}
    {step : Path.Component}
    {directory target : Target}
    (walked : disk.walk steps = .ok directory)
    (stepped : directory.step disk step = .ok target) :
    disk.walk (steps ++ [step]) = .ok target := by
  rw [walk, List.foldlM_append]
  exact bind_eq_ok_iff.2 ⟨directory, walked, bind_eq_ok_iff.2 ⟨target, stepped, rfl⟩⟩

/-- A path leads to an entry if its steps do. Only a directory stands before a slash at the end. -/
theorem lookup_eq_ok_iff
    {path : String}
    {place : Place}
    {entry : Entry} :
    disk.lookup path = .ok (place, entry)
      ↔ check path = .ok () ∧ disk.walk (Path.steps path) = .ok (.found place entry)
        ∧ (Path.endsInSlash path = true → entry = .directory) := by
  rw [lookup, bind_eq_ok_iff]
  constructor
  · rintro ⟨target, resolved, looked⟩
    obtain ⟨⟨⟩, checked, resolved⟩ := bind_eq_ok_iff.1 resolved
    obtain ⟨reached, walked, resolved⟩ := bind_eq_ok_iff.1 resolved
    cases reached with
    | absent place =>
        cases resolved
        cases looked
    | found place entry =>
        cases entry with
        | directory =>
            cases resolved
            cases looked
            exact ⟨checked, walked, fun _ => rfl⟩
        | file text readOnly =>
            dsimp only at resolved
            split_ifs at resolved with slash
            cases resolved
            cases looked
            exact ⟨checked, walked, fun slashed => absurd slashed slash⟩
  · rintro ⟨checked, walked, bare⟩
    refine ⟨.found place entry, ?_, rfl⟩
    rw [resolve, checked]
    change (disk.walk (Path.steps path) >>= _) = _
    rw [walked]
    cases entry with
    | directory => rfl
    | file text readOnly => exact if_neg fun slashed => nomatch bare slashed

theorem exists?_iff
    {path : String} :
    disk.exists? path = true ↔ ∃ found, disk.lookup path = .ok found := by
  rw [exists?]
  split
  · next found looked => exact ⟨fun _ => ⟨found, looked⟩, fun _ => rfl⟩
  · next fault failed =>
      exact ⟨(nomatch ·), fun ⟨_, looked⟩ => absurd (failed.symm.trans looked) nofun⟩

end Disk
end AssemblyAtlas
