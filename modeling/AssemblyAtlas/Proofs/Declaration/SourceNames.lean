import AssemblyAtlas.Declaration.Spelling
import AssemblyAtlas.Proofs.Syntax.Identifiers
import AssemblyAtlas.Proofs.Syntax.Mentions

/-!
# Source names that become identifiers

The source name of a type is cut out of its full name, and then each part between two dots becomes
an identifier. For names without plus signs and dots this comes to the same as to take each type of
the path by itself, but for two things: the parts of the namespace become identifiers too, and the
mark of arity at the very start of a name is no longer at the start behind a namespace.

* `sourceName_qualified` says what is cut out, and `dottedIdentifier_qualified` what becomes of it;
* `MadeOfIdentifiers` are the namespaces that stay as they are.
-/

namespace AssemblyAtlas
namespace Declaration

open Assembly
open Syntax
open Text

/-! ## What is cut out of a full name -/

/-- The name up to the first mark of arity, wherever that is. -/
def stem (name : String) : String :=
  String.ofList (name.toList.takeWhile (· != '`'))

/-- A mark at the start of a text is no longer there behind another text. -/
theorem before_append
    {stop : Char}
    {front : List Char}
    (some_char : front ≠ [])
    (absent : stop ∉ front)
    (text : List Char) :
    before stop (front ++ text) = front ++ text.takeWhile (· != stop) := by
  obtain ⟨c, rest, rfl⟩ := List.exists_cons_of_ne_nil some_char
  rw [List.mem_cons, not_or] at absent
  obtain ⟨notFirst, notLater⟩ := absent
  have kept : ∀ d ∈ rest, (d != stop) = true := by
    intro d inside
    rw [bne_iff_ne]
    rintro rfl
    exact notLater inside
  rw [List.cons_append, before, if_neg (Ne.symm notFirst), List.takeWhile_append_of_pos kept,
    List.cons_append]

/-- A name that does not start with the mark of arity is its stem without it. -/
theorem stem_eq_withoutArity
    {name : String}
    (unmarked : name.toList.head? ≠ some '`') :
    stem name = withoutArity name := by
  rw [stem, withoutArity]
  generalize name.toList = chars at unmarked ⊢
  cases chars with
  | nil => rfl
  | cons c rest =>
      have notMark : c ≠ '`' := fun same => unmarked (congrArg some same)
      rw [before, if_neg notMark, List.takeWhile_cons, if_pos (bne_iff_ne.2 notMark)]

/-- A name that starts with the mark of arity has an empty stem, and it stays whole. -/
theorem stem_of_marked
    {name : String}
    (marked : name.toList.head? = some '`') :
    stem name = "" ∧ withoutArity name = name := by
  obtain ⟨rest, chars⟩ := List.head?_eq_some_iff.1 marked
  rw [stem, withoutArity, chars, List.takeWhile_cons_of_neg (by simp), before, if_pos rfl, ← chars,
    String.ofList_toList]
  exact ⟨rfl, rfl⟩

theorem toList_qualified
    {space : String}
    (inSpace : space ≠ "")
    (name : String) :
    (qualified space name).toList = space.toList ++ '.' :: name.toList := by
  rw [qualified, if_neg inSpace, String.toList_append, String.toList_append, List.append_assoc]
  rfl

/-- The source name of a full name has the names of its types without their marks of arity. Behind a
namespace a mark at the very start of the outermost name is cut off too. -/
theorem sourceName_qualified
    {space outer : String}
    {inner : List String}
    (plainSpace : '+' ∉ space.toList ∧ '`' ∉ space.toList)
    (plain : ∀ name ∈ outer :: inner, '+' ∉ name.toList) :
    sourceName (qualified space (String.ofList (join ['+'] ((outer :: inner).map String.toList))))
      = qualified space (joinedByDots
          ((if space = "" then withoutArity outer else stem outer) :: inner.map withoutArity)) := by
  have cut (names : List String) :
      (names.map String.toList).map (before '`') = (names.map withoutArity).map String.toList := by
    simp [withoutArity, Function.comp_def]
  have parts : ∀ part ∈ (outer :: inner).map String.toList, '+' ∉ part := by
    rintro _ isPart
    obtain ⟨name, isName, rfl⟩ := List.mem_map.1 isPart
    exact plain name isName
  by_cases inSpace : space = ""
  · rw [qualified, if_pos inSpace, qualified, if_pos inSpace, if_pos inSpace, sourceName,
      String.toList_ofList, pieces_join (by simp) parts, cut]
    rfl
  · rw [List.map_cons, List.forall_mem_cons] at parts
    have first : '+' ∉ (space.toList ++ ['.']) ++ outer.toList := by
      simp [plainSpace.1, parts.1]
    have whole :
        (qualified space (String.ofList (join ['+'] ((outer :: inner).map String.toList)))).toList
        = join ['+'] (((space.toList ++ ['.']) ++ outer.toList) :: inner.map String.toList) := by
      rw [toList_qualified inSpace, String.toList_ofList, join_append_head, List.map_cons,
        List.append_assoc]
      rfl
    have front : '`' ∉ space.toList ++ ['.'] := by
      simp [plainSpace.2]
    rw [sourceName, whole, pieces_join (by simp) (List.forall_mem_cons.2 ⟨first, parts.2⟩),
      List.map_cons, cut, before_append (by simp) front, join_append_head, if_neg inSpace,
      ← String.toList_inj, String.toList_ofList, toList_qualified inSpace, List.append_assoc]
    simp [joinedByDots, stem]

/-! ## What becomes of it -/

/-- Identifiers are not empty. -/
theorem identifier_ne_empty (name : String) :
    identifier name ≠ "" := by
  intro empty
  have chars := withoutAt_identifier name
  rw [empty] at chars
  exact identifierChars_ne_nil name.toList chars.symm

/-- Each part of the namespace stands for itself. Types outside all namespaces have no part. -/
def MadeOfIdentifiers (space : String) : Prop :=
  space = "" ∨ ∀ part ∈ pieces '.' space.toList, identifier (String.ofList part) = String.ofList part

/-- The namespace with an identifier in place of each part, if it has parts. -/
def escapedSpace (space : String) : String :=
  if space = "" then "" else dottedIdentifier space

theorem dottedIdentifier_ne_empty (name : String) :
    dottedIdentifier name ≠ "" := by
  intro empty
  have parts := pieces_dottedIdentifier name
  obtain ⟨part, rest, isName⟩ := List.exists_cons_of_ne_nil (pieces_ne_nil '.' name.toList)
  rw [empty, isName, List.map_cons] at parts
  have first : [] = (identifier (String.ofList part)).toList := (List.cons_eq_cons.1 parts).1
  exact identifier_ne_empty _ (String.toList_eq_nil_iff.1 first.symm)

/-- The namespaces that are made of identifiers are those that escaping leaves alone. -/
theorem escapedSpace_eq_self_iff
    {space : String} :
    escapedSpace space = space ↔ MadeOfIdentifiers space := by
  rw [escapedSpace, MadeOfIdentifiers]
  split
  · next outside => exact iff_of_true outside.symm (.inl outside)
  · next inSpace =>
      rw [or_iff_right inSpace]
      have same : dottedIdentifier space = space
          ↔ pieces '.' (dottedIdentifier space).toList = pieces '.' space.toList := by
        constructor
        · exact fun same => by rw [same]
        · intro parts
          rw [← String.toList_inj, ← join_pieces '.' (dottedIdentifier space).toList, parts,
            join_pieces]
      rw [same, pieces_dottedIdentifier]
      constructor
      · intro fixed part isPart
        rw [← String.toList_inj, String.toList_ofList]
        exact List.map_inj_left.1 (fixed.trans (List.map_id _).symm) part isPart
      · intro fixed
        conv_rhs => rw [← List.map_id (pieces '.' space.toList)]
        refine List.map_congr_left fun part isPart => ?_
        rw [fixed part isPart, String.toList_ofList, id]

/-- The parts of a name behind a namespace become identifiers, and so do those of the namespace. -/
theorem dottedIdentifier_qualified (space name : String) :
    dottedIdentifier (qualified space name)
      = qualified (escapedSpace space) (dottedIdentifier name) := by
  by_cases inSpace : space = ""
  · rw [escapedSpace, if_pos inSpace, qualified, if_pos inSpace, qualified, if_pos rfl]
  · rw [escapedSpace, if_neg inSpace, ← String.toList_inj,
      toList_qualified (dottedIdentifier_ne_empty space), dottedIdentifier, dottedIdentifier,
      dottedIdentifier, toList_qualified inSpace, pieces_append_separator, List.map_append,
      String.toList_ofList, join_append, String.toList_ofList, String.toList_ofList,
      List.append_assoc]
    · rfl
    · simpa using pieces_ne_nil '.' space.toList
    · simpa using pieces_ne_nil '.' name.toList

/-- Names without dots become identifiers one by one. -/
theorem dottedIdentifier_joinedByDots
    {names : List String}
    (some_name : names ≠ [])
    (plain : ∀ name ∈ names, '.' ∉ name.toList) :
    dottedIdentifier (joinedByDots names) = joinedByDots (names.map identifier) := by
  rw [dottedIdentifier, joinedByDots, String.toList_ofList, pieces_join (by simpa using some_name)]
  · simp [joinedByDots, Function.comp_def]
  · rintro _ isPart
    obtain ⟨name, isName, rfl⟩ := List.mem_map.1 isPart
    exact plain name isName

/-! ## Comparing the two -/

/-- A name in two namespaces tells them apart. -/
theorem qualified_left_inj
    {left right name : String} :
    qualified left name = qualified right name ↔ left = right := by
  refine ⟨fun same => ?_, fun same => same ▸ rfl⟩
  by_cases outside : left = "" <;> by_cases alsoOutside : right = ""
  · rw [outside, alsoOutside]
  · have length := congrArg (List.length ∘ String.toList) same
    simp [qualified, outside, alsoOutside] at length
    omega
  · have length := congrArg (List.length ∘ String.toList) same
    simp [qualified, outside, alsoOutside] at length
    omega
  · have texts := congrArg String.toList same
    rw [toList_qualified outside, toList_qualified alsoOutside] at texts
    exact String.toList_inj.1 (List.append_cancel_right texts)

/-- Of two dotted names that are the same behind their first parts, the first parts can be read off
if both stand in namespaces. -/
theorem eq_of_qualified_joinedByDots
    {left right one other : String}
    {rest : List String}
    (inLeft : left ≠ "")
    (inRight : right ≠ "")
    (plain : '.' ∉ one.toList)
    (alsoPlain : '.' ∉ other.toList)
    (same : qualified left (joinedByDots (one :: rest))
      = qualified right (joinedByDots (other :: rest))) :
    one = other := by
  have split (first : String) : (joinedByDots (first :: rest)).toList
      = first.toList ++ join ['.'] ([] :: rest.map String.toList) := by
    rw [← join_append_head, List.append_nil, joinedByDots, String.toList_ofList, List.map_cons]
  have texts := congrArg String.toList same
  rw [toList_qualified inLeft, toList_qualified inRight, split, split, ← List.cons_append,
    ← List.append_assoc, ← List.cons_append, ← List.append_assoc] at texts
  have parts := congrArg (pieces '.') (List.append_cancel_right texts)
  rw [pieces_append_separator, pieces_append_separator, pieces_of_not_mem plain,
    pieces_of_not_mem alsoPlain] at parts
  exact String.toList_inj.1 (List.singleton_inj.1 (List.append_inj_right' parts rfl))

/-- Nothing but the mark of arity alone becomes the identifier that stands for the empty name. -/
theorem identifier_ne_identifier_empty
    {name : String}
    (marked : name.toList.head? = some '`')
    (more : name ≠ "`") :
    identifier "" ≠ identifier name := by
  intro same
  have chars := withoutAt_identifier name
  rw [← same, withoutAt_identifier] at chars
  have length := length_le_length_identifierChars name.toList
  obtain ⟨rest, isName⟩ := List.head?_eq_some_iff.1 marked
  rw [← chars, isName] at length
  have none : rest = [] := by
    cases rest with
    | nil => rfl
    | cons c rest => simp [identifierChars] at length
  rw [none] at isName
  exact more (String.toList_inj.1 isName)

end Declaration
end AssemblyAtlas
