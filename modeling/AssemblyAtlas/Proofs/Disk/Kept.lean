import AssemblyAtlas.Proofs.Disk.Walk

/-!
# What is kept on a disk

A disk on which only new things are made keeps what it has: every path that leads somewhere leads to
the same entry afterwards. Directories are made so, and so is a file that must be new.

* `Disk.Kept` says that what stands at a place stays there, and `Disk.Kept.lookup` what this means
  for a path;
* `Disk.SameFiles` says that no file is new, changed or gone;
* `Disk.makeDirectories_kept` is about directories that are made, and `Disk.Creates` about a file
  that is.
-/

namespace AssemblyAtlas
namespace Disk

open Success

variable {disk before after : Disk}

/-! ## Entries -/

theorem at?_set_self
    {place : Place}
    (inside : place ≠ [])
    (entry : Entry) :
    (disk.set place entry).at? place = some entry := by
  have gone : (disk.entries.filter (·.1 ≠ place)).find? (·.1 = place) = none := by
    refine List.find?_eq_none.2 fun other isOther => ?_
    simpa using (List.mem_filter.1 isOther).2
  rw [at?, if_neg inside, set, List.find?_append, gone]
  simp

theorem at?_set_of_ne
    {place other : Place}
    (differs : other ≠ place)
    (entry : Entry) :
    (disk.set place entry).at? other = disk.at? other := by
  have left : (disk.entries.filter (·.1 ≠ place)).find? (·.1 = other)
      = disk.entries.find? (·.1 = other) := by
    rw [List.find?_filter]
    congr 1
    funext found
    by_cases same : found.1 = other
    · simp [same, differs]
    · simp [same]
  have right : [(place, entry)].find? (·.1 = other) = none := by
    simp [Ne.symm differs]
  rw [at?, at?, set, List.find?_append, left, right, Option.or_none]

/-- An entry is written over another one at once. -/
theorem set_set
    (place : Place)
    (first second : Entry) :
    (disk.set place first).set place second = disk.set place second := by
  simp [set, List.filter_append, List.filter_filter]

theorem ne_nil_of_at?_eq_none
    {place : Place}
    (absent : disk.at? place = none) :
    place ≠ [] := by
  rintro rfl
  cases absent

/-! ## What stays -/

/-- The working directory and the closed directories are the same, and what stands at a place stays
there. -/
structure Kept (before after : Disk) : Prop where
  home : after.home = before.home
  closed : after.closed = before.closed
  stays : ∀ place entry, before.at? place = some entry → after.at? place = some entry

/-- No file is new, changed or gone. -/
def SameFiles (before after : Disk) : Prop :=
  ∀ place text readOnly,
    after.at? place = some (.file text readOnly) ↔ before.at? place = some (.file text readOnly)

theorem Kept.refl (disk : Disk) :
    Kept disk disk where
  home := rfl
  closed := rfl
  stays := fun _ _ found => found

theorem Kept.trans
    {middle : Disk}
    (first : Kept before middle)
    (second : Kept middle after) :
    Kept before after where
  home := second.home.trans first.home
  closed := second.closed.trans first.closed
  stays := fun place entry found => second.stays place entry (first.stays place entry found)

theorem SameFiles.refl (disk : Disk) :
    SameFiles disk disk :=
  fun _ _ _ => Iff.rfl

theorem SameFiles.trans
    {middle : Disk}
    (first : SameFiles before middle)
    (second : SameFiles middle after) :
    SameFiles before after :=
  fun place text readOnly => (second place text readOnly).trans (first place text readOnly)

/-- Where nothing stands, something may be put. -/
theorem kept_set
    {place : Place}
    (absent : disk.at? place = none)
    (entry : Entry) :
    Kept disk (disk.set place entry) where
  home := rfl
  closed := rfl
  stays := fun other found isFound => by
    have differs : other ≠ place := by
      rintro rfl
      cases absent.symm.trans isFound
    rw [at?_set_of_ne differs, isFound]

theorem sameFiles_set_directory
    {place : Place}
    (absent : disk.at? place = none) :
    SameFiles disk (disk.set place .directory) := by
  intro other text readOnly
  by_cases same : other = place
  · rw [same, at?_set_self (ne_nil_of_at?_eq_none absent), absent]
    exact ⟨(nomatch ·), (nomatch ·)⟩
  · rw [at?_set_of_ne same]

/-- The second target is the first, unless nothing was there. -/
def Target.Outlives (first second : Target) : Prop :=
  ∀ place entry, first = .found place entry → second = .found place entry

theorem Kept.start
    (kept : Kept before after) :
    before.start.Outlives after.start := by
  intro place entry started
  rw [Disk.start] at started ⊢
  cases stands : before.at? before.home with
  | some entry =>
      rw [stands] at started
      rw [kept.home, kept.stays _ _ stands, started]
  | none =>
      rw [stands] at started
      cases started

/-- A step that can be taken can be taken still. -/
theorem Kept.step
    (kept : Kept before after)
    {start target other : Target}
    (outlives : start.Outlives other)
    {step : Path.Component}
    (stepped : start.step before step = .ok target) :
    ∃ next, other.step after step = .ok next ∧ target.Outlives next := by
  simp only [step_eq_ok_iff] at stepped ⊢
  cases stepped with
  | root => exact ⟨_, .root other, fun _ _ => id⟩
  | current place =>
      rw [outlives _ _ rfl]
      exact ⟨_, .current place, fun _ _ => id⟩
  | parent place =>
      rw [outlives _ _ rfl]
      exact ⟨_, .parent place, fun _ _ => id⟩
  | found short stands =>
      rw [outlives _ _ rfl]
      exact ⟨_, .found short (kept.stays _ _ stands), fun _ _ => id⟩
  | @absent place name short _ =>
      rw [outlives _ _ rfl]
      cases stands : after.at? (place ++ [name]) with
      | some entry => exact ⟨_, .found short stands, nofun⟩
      | none => exact ⟨_, .absent short stands, nofun⟩

theorem Kept.foldlM_step
    (kept : Kept before after)
    {steps : List Path.Component}
    {start target other : Target}
    (outlives : start.Outlives other)
    (walked : steps.foldlM (Target.step before) start = .ok target) :
    ∃ last, steps.foldlM (Target.step after) other = .ok last ∧ target.Outlives last := by
  induction steps generalizing start other with
  | nil =>
      cases walked
      exact ⟨other, rfl, outlives⟩
  | cons step rest ih =>
      rw [List.foldlM_cons, bind_eq_ok_iff] at walked
      obtain ⟨next, stepped, later⟩ := walked
      obtain ⟨again, alsoStepped, stays⟩ := kept.step outlives stepped
      rw [List.foldlM_cons, alsoStepped]
      exact ih stays later

/-- Steps that lead to an entry lead to it still. -/
theorem Kept.walk
    (kept : Kept before after)
    {steps : List Path.Component}
    {place : Place}
    {entry : Entry}
    (walked : before.walk steps = .ok (.found place entry)) :
    after.walk steps = .ok (.found place entry) := by
  obtain ⟨last, alsoWalked, outlives⟩ := kept.foldlM_step kept.start walked
  exact alsoWalked.trans (congrArg Except.ok (outlives _ _ rfl))

/-- A path that leads somewhere leads to the same entry afterwards. -/
theorem Kept.lookup
    (kept : Kept before after)
    {path : String}
    {found : Place × Entry}
    (looked : before.lookup path = .ok found) :
    after.lookup path = .ok found := by
  obtain ⟨checked, walked, bare⟩ := lookup_eq_ok_iff.1 looked
  exact lookup_eq_ok_iff.2 ⟨checked, kept.walk walked, bare⟩

/-! ## Directories that are made -/

/-- Only a name leads to nothing, and then it leads to what is put there. -/
theorem of_step_eq_absent
    {start : Target}
    {step : Path.Component}
    {place : Place}
    (stepped : start.step disk step = .ok (.absent place)) :
    (∃ name, step = .name name)
      ∧ disk.at? place = none
      ∧ ∀ entry, start.step (disk.set place entry) step = .ok (.found place entry) := by
  cases step_eq_ok_iff.1 stepped with
  | absent short missing =>
      refine ⟨⟨_, rfl⟩, missing, fun entry => step_eq_ok_iff.2 (.found short ?_)⟩
      exact at?_set_self (ne_nil_of_at?_eq_none missing) entry

/-- Where nothing is, something may be made if the directory is not closed. -/
theorem of_permit_eq_absent
    {target : Target}
    {place : Place}
    (permitted : disk.permit target = .ok (.absent place)) :
    target = .absent place ∧ place.dropLast ∉ disk.closed := by
  cases target with
  | found _ _ => cases permitted
  | absent _ =>
      rw [permit] at permitted
      split_ifs at permitted with closed
      cases permitted
      exact ⟨rfl, closed⟩

theorem makeFrom_kept
    (steps : List Path.Component)
    (disk : Disk)
    (target : Target) :
    Kept disk (disk.makeFrom target steps).1 ∧ SameFiles disk (disk.makeFrom target steps).1 := by
  induction steps generalizing disk target with
  | nil =>
      cases target with
      | absent place => exact ⟨.refl disk, .refl disk⟩
      | found place entry => cases entry <;> exact ⟨.refl disk, .refl disk⟩
  | cons step rest ih =>
      rw [makeFrom]
      split
      · exact ⟨.refl disk, .refl disk⟩
      · next place permitted =>
          obtain ⟨next, stepped, permitted⟩ := bind_eq_ok_iff.1 permitted
          obtain ⟨rfl, -⟩ := of_permit_eq_absent permitted
          have absent := (of_step_eq_absent stepped).2.1
          obtain ⟨kept, same⟩ := ih (disk.set place .directory) (.found place .directory)
          exact ⟨(kept_set absent .directory).trans kept,
            (sameFiles_set_directory absent).trans same⟩
      · exact ih disk _

/-- Where directories are made, all stays that was there, and no file is made. -/
theorem makeDirectories_kept
    (disk : Disk)
    (path : String) :
    Kept disk (disk.makeDirectories path).1 ∧ SameFiles disk (disk.makeDirectories path).1 := by
  rw [makeDirectories]
  split
  · exact ⟨.refl disk, .refl disk⟩
  · split
    · exact ⟨.refl disk, .refl disk⟩
    · split
      · rw [makeBefore]
        split
        · exact makeFrom_kept _ disk _
        · exact ⟨.refl disk, .refl disk⟩
      · exact makeFrom_kept _ disk _

/-! ## Files that are made -/

/-- A file with a text is made where a path leads, and protected; it is the only file that is new,
changed or gone. -/
def Creates (before after : Disk) (path text : String) : Prop :=
  before.exists? path = false ∧
    ∃ place, before.at? place = none
      ∧ after.at? place = some (.file text true)
      ∧ after.lookup path = .ok (place, .file text true)
      ∧ ∀ other, other ≠ place → ∀ text readOnly,
        after.at? other = some (.file text readOnly)
          ↔ before.at? other = some (.file text readOnly)

theorem SameFiles.not_creates
    (same : SameFiles before after)
    (path text : String) :
    ¬Creates before after path text := by
  rintro ⟨-, place, absent, stands, -⟩
  cases absent.symm.trans ((same place text true).1 stands)

/-- What came before a file was made may have made directories. -/
theorem Creates.of_kept
    {middle : Disk}
    {path text : String}
    (creates : Creates middle after path text)
    (kept : Kept before middle)
    (same : SameFiles before middle) :
    Creates before after path text := by
  obtain ⟨missing, place, absent, stands, leads, others⟩ := creates
  refine ⟨?_, place, ?_, stands, leads, fun other differs text readOnly =>
    (others other differs text readOnly).trans (same other text readOnly)⟩
  · rw [Bool.eq_false_iff] at missing ⊢
    intro present
    obtain ⟨found, looked⟩ := exists?_iff.1 present
    exact missing (exists?_iff.2 ⟨found, kept.lookup looked⟩)
  · rw [Option.eq_none_iff_forall_ne_some] at absent ⊢
    exact fun entry found => absent entry (kept.stays place entry found)

/-- A new file can be made where the steps before the last one lead to a directory that is not
closed, and the last one, a name, to nothing. -/
theorem of_resolveToWrite_eq_absent
    {path : String}
    {place : Place}
    (resolved : disk.resolveToWrite path = .ok (.absent place)) :
    check path = .ok () ∧ Path.endsInSlash path = false
      ∧ ∃ steps step directory, Path.steps path = steps ++ [step]
        ∧ disk.walk steps = .ok (.found directory .directory)
        ∧ (Target.found directory .directory).step disk step = .ok (.absent place) := by
  obtain ⟨⟨⟩, checked, resolved⟩ := bind_eq_ok_iff.1 resolved
  dsimp only at resolved
  split at resolved
  · next name last =>
      obtain ⟨reached, walked, resolved⟩ := bind_eq_ok_iff.1 resolved
      obtain ⟨directory, stayed, resolved⟩ := bind_eq_ok_iff.1 resolved
      split_ifs at resolved with slash
      obtain ⟨target, stepped, permitted⟩ := bind_eq_ok_iff.1 resolved
      obtain ⟨rfl, -⟩ := of_permit_eq_absent permitted
      cases step_eq_ok_iff.1 stayed with
      | current directory =>
          exact ⟨checked, Bool.eq_false_iff.2 slash, _, _, directory,
            (List.dropLast_append_getLast? _ last).symm, walked, stepped⟩
  · next step other last =>
      rw [← List.dropLast_append_getLast? step last, walk, List.foldlM_append] at resolved
      obtain ⟨reached, -, resolved⟩ := bind_eq_ok_iff.1 resolved
      rw [List.foldlM_cons] at resolved
      obtain ⟨next, stepped, resolved⟩ := bind_eq_ok_iff.1 resolved
      cases resolved
      obtain ⟨⟨name, rfl⟩, -⟩ := of_step_eq_absent stepped
      exact absurd rfl (other name)
  · cases resolved

/-- There is nothing where a new file can be made, and the path leads to what is put there. -/
theorem lookup_set_of_resolveToWrite
    {path : String}
    {place : Place}
    (resolved : disk.resolveToWrite path = .ok (.absent place)) :
    disk.at? place = none
      ∧ disk.exists? path = false
      ∧ ∀ entry, (disk.set place entry).lookup path = .ok (place, entry) := by
  obtain ⟨checked, bare, steps, step, directory, split, walked, stepped⟩ :=
    of_resolveToWrite_eq_absent resolved
  obtain ⟨-, absent, leads⟩ := of_step_eq_absent stepped
  refine ⟨absent, ?_, fun entry => lookup_eq_ok_iff.2 ⟨checked, ?_, ?_⟩⟩
  · rw [Bool.eq_false_iff]
    intro present
    obtain ⟨found, looked⟩ := exists?_iff.1 present
    have reached := (lookup_eq_ok_iff.1 looked).2.1
    rw [split, walk_concat walked stepped] at reached
    cases reached
  · rw [split]
    exact walk_concat ((kept_set absent entry).walk walked) (leads entry)
  · exact fun slash => absurd slash (ne_true_of_eq_false bare)

/-- A new file is made where nothing is. When it is protected, it is there with its text. -/
theorem creates_of_createNew
    {path text : String}
    (created : disk.createNew path text = .ok after) :
    Kept disk (after.markReadOnly path) ∧ Creates disk (after.markReadOnly path) path text := by
  obtain ⟨target, resolved, created⟩ := bind_eq_ok_iff.1 created
  cases target with
  | found place entry => cases created
  | absent place =>
      cases created
      obtain ⟨absent, missing, leads⟩ := lookup_set_of_resolveToWrite resolved
      have whole : (disk.set place (.file text false)).markReadOnly path
          = disk.set place (.file text true) := by
        rw [markReadOnly, leads]
        exact set_set place _ _
      rw [whole]
      refine ⟨kept_set absent _, missing, place, absent,
        at?_set_self (ne_nil_of_at?_eq_none absent) _, leads _, ?_⟩
      intro other differs text readOnly
      rw [at?_set_of_ne differs]

end Disk
end AssemblyAtlas
