import AssemblyAtlas.Proofs.Disk.Kept
import AssemblyAtlas.Proofs.FileName.SafePath
import AssemblyAtlas.Proofs.Text.Joined

/-!
# Where a file can be made

A place is spelled by the names that lead to it from the root. A file can be made there if nothing
stands there, no file stands in the way, and every directory that lacks a name on the way is open.

* `Place.path` spells a place; `Disk.Passable` and `Disk.Admits` say where something can be made;
* `Disk.Passable.makeDirectories` makes the directories that lead to a place;
* `Disk.createNew_path` makes a file in a directory that is there.
-/

namespace AssemblyAtlas

open Success

/-! ## Names and paths -/

/-- A name that something in a directory can have. -/
structure Disk.IsName (name : String) : Prop where
  someChar : name ≠ ""
  notCurrent : name ≠ "."
  notParent : name ≠ ".."
  noSlash : '/' ∉ name.toList
  noZero : '\x00' ∉ name.toList
  short : name.utf8ByteSize ≤ Disk.longestName

/-- The path that leads to a place from the root. -/
def Place.path (place : Place) : String :=
  "/" ++ String.intercalate "/" place

namespace Disk

open AssemblyAtlas.Path

variable {disk : Disk} {place : Place} {name : String}

theorem path_ne_empty (place : Place) :
    place.path ≠ "" := by
  intro nothing
  have chars := congrArg String.toList nothing
  rw [Place.path, String.toList_append] at chars
  cases chars

/-- The name comes last in its path. -/
theorem exists_path_concat (above : Place) (name : String) :
    ∃ slash, Place.path (above ++ [name]) = above.path ++ slash ++ name := by
  by_cases outside : above = []
  · exact ⟨"", by rw [outside, Place.path, Place.path]; rfl⟩
  · refine ⟨"/", ?_⟩
    rw [Place.path, Place.path, String.intercalate_append_of_ne_nil outside (List.cons_ne_nil _ _),
      String.intercalate_singleton]
    simp only [String.append_assoc]

theorem IsName.isIdle_eq_false
    (isName : IsName name) :
    isIdle name = false := by
  rw [isIdle, Bool.or_eq_false_iff, beq_eq_false_iff_ne, beq_eq_false_iff_ne]
  exact ⟨isName.someChar, isName.notCurrent⟩

theorem segments_intercalate
    (inside : place ≠ [])
    (names : ∀ name ∈ place, IsName name) :
    segments (String.intercalate "/" place) = place := by
  induction place with
  | nil => exact absurd rfl inside
  | cons name rest ih =>
      have single : segments name = [name] := by
        rw [segments, Text.pieces_of_not_mem (names name List.mem_cons_self).noSlash,
          List.map_singleton, String.ofList_toList]
      cases rest with
      | nil => rw [String.intercalate_singleton, single]
      | cons next others =>
          rw [String.intercalate_cons_cons, FileName.segments_append, single,
            ih (List.cons_ne_nil next others) fun other isOther =>
              names other (List.mem_cons_of_mem name isOther)]
          rfl

theorem segments_path
    (names : ∀ name ∈ place, IsName name) :
    segments place.path = "" :: if place = [] then [""] else place := by
  have front : segments place.path = "" :: segments (String.intercalate "/" place) :=
    FileName.segments_append "" _
  rw [front]
  split_ifs with outside
  · rw [outside]
    rfl
  · rw [segments_intercalate outside names]

theorem map_ofSegment
    (names : ∀ name ∈ place, IsName name) :
    place.map ofSegment = place.map .name :=
  List.map_congr_left fun name isName => if_neg (names name isName).notParent

/-- The steps to a place are its names. -/
theorem steps_path
    (names : ∀ name ∈ place, IsName name) :
    steps place.path = .root :: place.map .name := by
  have said : (segments place.path).filter (· ≠ "") = place := by
    rw [segments_path names]
    split_ifs with outside
    · rw [outside]
      rfl
    · rw [List.filter_cons_of_neg (by simp)]
      exact List.filter_eq_self.2 fun name isName => decide_eq_true (names name isName).someChar
  have absolute : isAbsolute place.path = true := by
    rw [isAbsolute, Place.path, String.toList_append]
    rfl
  rw [steps, said, if_pos absolute, List.singleton_append, ← map_ofSegment names]
  exact congrArg _ (List.map_congr_left fun name isName => if_neg (names name isName).notCurrent)

/-- So are the components of its path. -/
theorem components_path
    (names : ∀ name ∈ place, IsName name) :
    components place.path = .root :: place.map .name := by
  have said : ((if place = [] then [""] else place).filter (!isIdle ·)) = place := by
    split_ifs with outside
    · rw [outside]
      rfl
    · refine List.filter_eq_self.2 fun name isName => ?_
      rw [(names name isName).isIdle_eq_false]
      rfl
  have someSegment : (if place = [] then [""] else place).isEmpty = false := by
    split_ifs with outside
    · rfl
    · exact List.isEmpty_eq_false_iff.2 outside
  rw [components, segments_path names]
  dsimp only
  rw [if_pos rfl, said, map_ofSegment names, someSegment]
  rfl

theorem dropIdle_name
    (isName : IsName name)
    (rest : List String) :
    dropIdle (name :: rest) = name :: rest := by
  cases rest with
  | nil => rfl
  | cons next others =>
      rw [dropIdle, isName.isIdle_eq_false, if_neg Bool.false_ne_true]
      exact List.cons_ne_nil next others

/-- The names before the last lead to the directory of a place. -/
theorem parent?_path
    {above : Place}
    (names : ∀ other ∈ above ++ [name], IsName other) :
    parent? (Place.path (above ++ [name])) = some above.path := by
  have isName := names name (List.mem_append_right above List.mem_cons_self)
  have reversed : (segments (Place.path (above ++ [name]))).reverse
      = name :: (above.reverse ++ [""]) := by
    rw [segments_path names, if_neg (by simp)]
    simp
  obtain ⟨next, others, behind⟩ := List.exists_cons_of_ne_nil
    (by simp : above.reverse ++ [""] ≠ [])
  rw [parent?, reversed, dropIdle_name isName, behind]
  dsimp only
  rw [← behind]
  rcases List.eq_nil_or_concat' above with rfl | ⟨front, last, rfl⟩
  · rfl
  · have isLast := names last (by simp)
    obtain ⟨first, rest, split⟩ := List.exists_cons_of_ne_nil (by simp : front ++ [last] ≠ [])
    rw [List.reverse_concat, List.cons_append, dropIdle_name isLast, ofReversed,
      if_neg (by simp), Place.path, split]
    have back : (last :: (front.reverse ++ [""])).reverse = "" :: (front ++ [last]) := by simp
    rw [back, split, String.intercalate_cons_cons]
    rfl

/-! ## Steps along names -/

/-- Names lead to the place that they spell, if they lead anywhere. -/
theorem of_foldlM_names
    {base : Place}
    {names : List String}
    {entry : Entry}
    (stands : disk.at? base = some .directory)
    (walked : (names.map Component.name).foldlM (Target.step disk) (.found base .directory)
      = .ok (.found place entry)) :
    place = base ++ names ∧ disk.at? place = some entry := by
  induction names generalizing base with
  | nil =>
      cases walked
      exact ⟨(List.append_nil _).symm, stands⟩
  | cons name rest ih =>
      rw [List.map_cons, List.foldlM_cons, bind_eq_ok_iff] at walked
      obtain ⟨next, stepped, walked⟩ := walked
      cases step_eq_ok_iff.1 stepped with
      | absent short missing =>
          cases rest with
          | nil => cases walked
          | cons other others => cases walked
      | @found _ _ entry short present =>
          cases entry with
          | directory =>
              obtain ⟨rfl, isEntry⟩ := ih present walked
              exact ⟨List.append_assoc base [name] rest, isEntry⟩
          | file text readOnly =>
              cases rest with
              | nil =>
                  cases walked
                  exact ⟨rfl, present⟩
              | cons other others => cases walked

/-- The path of a place leads to it, if it leads anywhere. -/
theorem of_lookup_path
    {target : Place}
    {entry : Entry}
    (names : ∀ name ∈ place, IsName name)
    (looked : disk.lookup place.path = .ok (target, entry)) :
    target = place ∧ disk.at? place = some entry := by
  obtain ⟨-, walked, -⟩ := lookup_eq_ok_iff.1 looked
  rw [steps_path names, walk_root] at walked
  obtain ⟨rfl, isEntry⟩ := of_foldlM_names rfl walked
  exact ⟨rfl, isEntry⟩

/-! ## Places that can be reached -/

/-- No file stands in the way to a place or at it, and every directory that lacks a name on the way
is open. -/
structure Passable (disk : Disk) (place : Place) : Prop where
  clear : ∀ above, above <+: place →
    disk.at? above = none ∨ disk.at? above = some .directory
  opened : ∀ above name, above ++ [name] <+: place →
    disk.at? (above ++ [name]) = none → above ∉ disk.closed

theorem Passable.above
    {above : Place}
    (passable : disk.Passable (above ++ [name])) :
    disk.Passable above where
  clear := fun other isAbove => passable.clear other (isAbove.trans (List.prefix_append above _))
  opened := fun other last isAbove =>
    passable.opened other last (isAbove.trans (List.prefix_append above _))

/-- A directory that is made on the way leaves the way open. -/
theorem Passable.set
    (passable : disk.Passable place)
    {above : Place}
    (missing : disk.at? above = none) :
    (disk.set above .directory).Passable place where
  clear := by
    intro other isAbove
    by_cases same : other = above
    · rw [same, at?_set_self (ne_nil_of_at?_eq_none missing)]
      exact Or.inr rfl
    · rw [at?_set_of_ne same]
      exact passable.clear other isAbove
  opened := by
    intro other name isAbove missing
    refine passable.opened other name isAbove ?_
    rw [Option.eq_none_iff_forall_ne_some] at missing ⊢
    exact fun entry found => missing entry ((kept_set ‹_› _).stays _ _ found)

theorem makeFrom_found
    {start : Target}
    {step : Path.Component}
    {entry : Entry}
    (stepped : start.step disk step = .ok (.found place entry))
    (rest : List Path.Component) :
    disk.makeFrom start (step :: rest) = disk.makeFrom (.found place entry) rest := by
  rw [makeFrom, stepped]
  rfl

theorem makeFrom_absent
    {start : Target}
    {step : Path.Component}
    (stepped : start.step disk step = .ok (.absent place))
    (isOpen : place.dropLast ∉ disk.closed)
    (rest : List Path.Component) :
    disk.makeFrom start (step :: rest)
      = (disk.set place .directory).makeFrom (.found place .directory) rest := by
  have permitted : (start.step disk step >>= disk.permit) = .ok (.absent place) := by
    rw [stepped]
    exact if_neg isOpen
  rw [makeFrom, permitted]

/-- From a directory on the way, the others are made one below the other. -/
theorem Passable.makeFrom
    {base : Place}
    {names : List String}
    (passable : disk.Passable (base ++ names))
    (areNames : ∀ name ∈ names, IsName name)
    (stands : disk.at? base = some .directory) :
    ∃ after, disk.makeFrom (.found base .directory) (names.map .name) = (after, .ok ())
      ∧ Kept disk after
      ∧ (names.map Component.name).foldlM (Target.step after) (.found base .directory)
          = .ok (.found (base ++ names) .directory)
      ∧ ∀ other, ¬other <+: base ++ names → after.at? other = disk.at? other := by
  induction names generalizing disk base with
  | nil =>
      rw [List.append_nil]
      exact ⟨disk, rfl, .refl disk, rfl, fun _ _ => rfl⟩
  | cons name rest ih =>
      have whole : base ++ name :: rest = base ++ [name] ++ rest := by simp
      rw [whole] at passable ⊢
      have isAbove : base ++ [name] <+: base ++ [name] ++ rest := List.prefix_append _ rest
      have short := (areNames name List.mem_cons_self).short
      have later := fun other isOther => areNames other (List.mem_cons_of_mem name isOther)
      -- Whether the next directory is there or made, it is there in the end.
      have first {after : Disk} (present : after.at? (base ++ [name]) = some .directory) :
          (Target.found base .directory).step after (.name name)
            = .ok (.found (base ++ [name]) .directory) :=
        step_eq_ok_iff.2 (.found short present)
      rw [List.map_cons]
      rcases passable.clear _ isAbove with missing | present
      · have isOpen : (base ++ [name]).dropLast ∉ disk.closed := by
          rw [List.dropLast_concat]
          exact passable.opened base name isAbove missing
        have stands : (disk.set (base ++ [name]) .directory).at? (base ++ [name])
            = some .directory :=
          at?_set_self (ne_nil_of_at?_eq_none missing) _
        obtain ⟨after, made, kept, walked, same⟩ := ih (passable.set missing) later stands
        refine ⟨after, ?_, (kept_set missing _).trans kept, ?_, fun other beside => ?_⟩
        · rw [makeFrom_absent (step_eq_ok_iff.2 (.absent short missing)) isOpen, made]
        · rw [List.foldlM_cons, first (kept.stays _ _ stands)]
          exact walked
        · have differs : other ≠ base ++ [name] := by
            rintro rfl
            exact beside isAbove
          rw [same other beside, at?_set_of_ne differs]
      · obtain ⟨after, made, kept, walked, same⟩ := ih passable later present
        refine ⟨after, ?_, kept, ?_, same⟩
        · rw [makeFrom_found (first present), made]
        · rw [List.foldlM_cons, first (kept.stays _ _ present)]
          exact walked

/-! ## Paths to places -/

/-- The system takes the path of the place. -/
structure Spelled (place : Place) : Prop where
  names : ∀ name ∈ place, IsName name
  short : place.path.utf8ByteSize ≤ longestPath

/-- A character of a path is a slash, or stands in a segment. -/
theorem of_mem_path
    {path : String}
    {c : Char}
    (member : c ∈ path.toList) :
    c = '/' ∨ ∃ segment ∈ segments path, c ∈ segment.toList := by
  rw [← Text.join_pieces '/' path.toList] at member
  rcases Text.of_mem_join member with between | ⟨part, isPart, inside⟩
  · exact Or.inl (List.mem_singleton.1 between)
  · refine Or.inr ⟨.ofList part, List.mem_map_of_mem isPart, ?_⟩
    rw [String.toList_ofList]
    exact inside

theorem Spelled.check
    (spelled : Spelled place) :
    check place.path = .ok () := by
  have plain : '\x00' ∉ place.path.toList := by
    intro member
    rcases of_mem_path member with isSlash | ⟨segment, isSegment, inside⟩
    · exact absurd isSlash (by decide)
    · rw [segments_path spelled.names] at isSegment
      split_ifs at isSegment with outside
      · have nothing : segment = "" := by simpa using isSegment
        rw [nothing] at inside
        cases inside
      · rcases List.mem_cons.1 isSegment with rfl | isName
        · cases inside
        · exact (spelled.names segment isName).noZero inside
  rw [Disk.check, if_neg plain, if_neg (path_ne_empty place), if_neg (Nat.not_lt.2 spelled.short)]

theorem Spelled.above
    {above : Place}
    (spelled : Spelled (above ++ [name])) :
    Spelled above where
  names := fun other isOther => spelled.names other (List.mem_append_left _ isOther)
  short := by
    obtain ⟨slash, whole⟩ := exists_path_concat above name
    have short := spelled.short
    rw [whole, String.utf8ByteSize_append, String.utf8ByteSize_append] at short
    omega

theorem Spelled.lookup
    (spelled : Spelled place)
    (walked : (place.map Component.name).foldlM (Target.step disk) (.found [] .directory)
      = .ok (.found place .directory)) :
    disk.lookup place.path = .ok (place, .directory) := by
  refine lookup_eq_ok_iff.2 ⟨spelled.check, ?_, fun _ => rfl⟩
  rw [steps_path spelled.names, walk_root, walked]

/-- The directories that lead to a place are made, if no file stands in the way. Nothing is made
beside the way. -/
theorem Passable.makeDirectories
    (passable : disk.Passable place)
    (spelled : Spelled place) :
    ∃ after, disk.makeDirectories place.path = (after, .ok ())
      ∧ Kept disk after
      ∧ after.lookup place.path = .ok (place, .directory)
      ∧ ∀ other, ¬other <+: place → after.at? other = disk.at? other := by
  obtain ⟨after, made, kept, walked, same⟩ :=
    @Passable.makeFrom disk [] place passable spelled.names rfl
  refine ⟨after, ?_, kept, spelled.lookup walked, same⟩
  have bare : (steps place.path).getLast? ≠ some .current := by
    intro last
    have isStep := List.mem_of_getLast? last
    rw [steps_path spelled.names] at isStep
    simp at isStep
  rw [Disk.makeDirectories, if_neg (path_ne_empty place), spelled.check]
  dsimp only
  rw [if_neg bare, components_path spelled.names,
    makeFrom_found (step_eq_ok_iff.2 (.root disk.start)), made]

/-- A file can be made at the place: nothing stands there, and what is missing on the way to it can
be made. -/
structure Admits (disk : Disk) (place : Place) : Prop where
  spelled : Spelled place
  passable : disk.Passable place
  free : disk.at? place = none

theorem Admits.exists?_eq_false
    (admits : disk.Admits place) :
    disk.exists? place.path = false := by
  rw [Bool.eq_false_iff]
  intro present
  obtain ⟨⟨target, entry⟩, looked⟩ := exists?_iff.1 present
  cases (of_lookup_path admits.spelled.names looked).2.symm.trans admits.free

/-- A file is made in a directory that is there and open. -/
theorem createNew_path
    {above : Place}
    (spelled : Spelled (above ++ [name]))
    (isOpen : above ∉ disk.closed)
    (stands : disk.lookup above.path = .ok (above, .directory))
    (free : disk.at? (above ++ [name]) = none)
    (text : String) :
    disk.createNew (Place.path (above ++ [name])) text
      = .ok (disk.set (above ++ [name]) (.file text false)) := by
  have isName := spelled.names name (List.mem_append_right above List.mem_cons_self)
  have steps : steps (Place.path (above ++ [name])) = steps above.path ++ [.name name] := by
    rw [steps_path spelled.names, steps_path spelled.above.names, List.map_append]
    rfl
  have bare : endsInSlash (Place.path (above ++ [name])) = false := by
    obtain ⟨slash, whole⟩ := exists_path_concat above name
    have chars : name.toList ≠ [] := fun nothing => isName.someChar (String.toList_inj.1 nothing)
    rw [endsInSlash, whole, String.toList_append, List.getLast?_append_of_ne_nil _ chars,
      decide_eq_false_iff_not]
    exact fun last => isName.noSlash (List.mem_of_getLast? last)
  have resolved : disk.resolveToWrite (Place.path (above ++ [name]))
      = .ok (.absent (above ++ [name])) := by
    obtain ⟨-, walked, -⟩ := lookup_eq_ok_iff.1 stands
    rw [resolveToWrite, spelled.check, steps]
    simp only [bind, Except.bind, List.getLast?_concat, List.dropLast_concat, walked, bare]
    rw [step_eq_ok_iff.2 (.current above)]
    dsimp only
    rw [if_neg Bool.false_ne_true, step_eq_ok_iff.2 (.absent isName.short free)]
    dsimp only
    rw [permit, List.dropLast_concat, if_neg isOpen]
  rw [createNew, resolved]
  rfl

end Disk
end AssemblyAtlas
