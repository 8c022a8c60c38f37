import AssemblyAtlas.Assembly.SymbolKey
import AssemblyAtlas.Proofs.Text.Joined

/-!
# Texts of symbol keys

Which keys can be written and read again. A text is cut at its dots and plus signs, the member and
the namespace from the end and the type names from the start, so the parts of a key must lack those
signs that would cut them.

* `SymbolKey.Writable` says so for each part, and `parse_eq_ok_iff` says what reading does;
* `SymbolKey.parse_display_iff` is about keys that are written first, `SymbolKey.writable_of_parse`
  and `SymbolKey.display_iff_of_parse` about texts that are read first.
-/

namespace AssemblyAtlas
namespace Assembly

open Text

theorem SymbolKind.ofLetter?_eq_some_iff
    {letter : Char}
    {kind : SymbolKind} :
    ofLetter? letter = some kind ↔ letter = kind.letter := by
  constructor
  · intro known
    unfold ofLetter? at known
    split at known <;> first
      | obtain rfl := Option.some.inj known
        rfl
      | exact absurd known (by simp)
  · rintro rfl
    cases kind <;> rfl

namespace SymbolKey

/-- No part of the key has a sign that would cut it, and exactly the keys of types have no
member. -/
structure Writable (key : SymbolKey) : Prop where
  member_iff : key.member = none ↔ key.kind = .type
  some_type : key.typePath ≠ []
  names : ∀ name ∈ key.typePath, name ≠ "" ∧ '+' ∉ name.toList
  outer : ∀ name ∈ key.typePath.head?, '.' ∉ name.toList
  space : '+' ∉ key.space.toList
  member : ∀ name ∈ key.member, name ≠ "" ∧ '#' ∉ name.toList

/-- In the text a dot stands right behind the colon. -/
def StartsWithDot (text : String) : Prop :=
  ∃ letter rest, text.toList = letter :: ':' :: '.' :: rest

/-! ## Parts of a text -/

/-- The namespace with the dot behind it. -/
def spaceText (space : List Char) : List Char :=
  if space = [] then [] else space ++ ['.']

/-- The member with the dot in front of it. -/
def memberText : Option (List Char) → List Char
  | none => []
  | some name => '.' :: replaceChar '.' '#' name

theorem toList_display (key : SymbolKey) :
    key.display.toList
      = key.kind.letter :: ':' ::
          (spaceText key.space.toList ++ join ['+'] (key.typePath.map String.toList)
            ++ memberText (key.member.map String.toList)) := by
  have space : (if key.space = "" then "" else key.space ++ ".").toList
      = spaceText key.space.toList := by
    rw [spaceText]
    simp only [String.toList_eq_nil_iff]
    split
    · rfl
    · rw [String.toList_append]
      rfl
  cases known : key.member <;>
    simp [display, known, space, typeName, memberText]

/-- The namespace and the type names that are read from the part of a text before the member. -/
def splitTypes (text : List Char) : List Char × List (List Char) :=
  let names := pieces '+' text
  ((splitSpace (names.headD [])).1, (splitSpace (names.headD [])).2 :: names.tail)

/-- Reading succeeds if the text starts with the letter of the kind and a colon, a member is there
if one is expected, and no name is empty. -/
theorem parse_eq_ok_iff
    {text : String}
    {key : SymbolKey} :
    parse text = .ok key
      ↔
    ∃ rest types member,
      text.toList = key.kind.letter :: ':' :: rest
        ∧ splitMember? key.kind rest = some (types, member)
        ∧ [] ∉ (splitTypes types).2 ∧ member ≠ some []
        ∧ key.space = String.ofList (splitTypes types).1
        ∧ key.typePath = (splitTypes types).2.map String.ofList
        ∧ key.member = member.map String.ofList := by
  constructor
  · intro read
    rw [parse] at read
    split at read
    · cases read
    · next letter afterLetter chars =>
        split at read
        · cases read
        · next kind rest known =>
            split at read
            · cases read
            · next types member cut =>
                dsimp only at read
                split at read
                · cases read
                · next complete =>
                    obtain rfl := Except.ok.inj read
                    obtain ⟨names, someMember⟩ := not_or.1 complete
                    rw [SymbolKind.ofLetter?_eq_some_iff.1 known] at chars
                    exact ⟨rest, types, member, chars, cut, names, someMember, rfl, rfl, rfl⟩
        · cases read
  · rintro ⟨rest, types, member, chars, cut, names, someMember, space, path, known⟩
    have kind : SymbolKind.ofLetter? key.kind.letter = some key.kind :=
      SymbolKind.ofLetter?_eq_some_iff.2 rfl
    rw [parse, chars]
    simp only [kind, cut]
    refine (if_neg (not_or.2 ⟨names, someMember⟩)).trans (congrArg Except.ok ?_)
    cases key
    exact mk.injEq .. ▸ ⟨rfl, space.symm, path.symm, known.symm⟩

/-- Only behind a type name a member is expected, and it is what stands behind the last dot. -/
theorem splitMember?_eq_some_iff
    {kind : SymbolKind}
    {rest types : List Char}
    {member : Option (List Char)} :
    splitMember? kind rest = some (types, member)
      ↔
    kind = .type ∧ rest = types ∧ member = none
      ∨ kind ≠ .type ∧ ∃ name, rest = types ++ '.' :: name ∧ '.' ∉ name
          ∧ member = some (replaceChar '#' '.' name) := by
  rw [splitMember?]
  split
  · next isType => simp [isType, eq_comm]
  · next isMember =>
      constructor
      · intro cut
        obtain ⟨⟨left, name⟩, found, same⟩ := Option.map_eq_some_iff.1 cut
        obtain ⟨rfl, rfl⟩ := Prod.mk.inj same
        obtain ⟨whole, absent⟩ := cutLast?_eq_some found
        exact Or.inr ⟨isMember, name, whole, absent, rfl⟩
      · rintro (⟨isType, -⟩ | ⟨-, name, rfl, absent, rfl⟩)
        · exact absurd isType isMember
        · rw [cutLast?_append types absent]
          rfl

/-- The last dot before the first plus sign ends the namespace. A dot that stands at the very start
is lost, since there is no namespace before it. -/
theorem splitTypes_spec (text : List Char) :
    ∃ space outer inner,
      splitTypes text = (space, outer :: inner)
        ∧ '+' ∉ space ∧ (∀ name ∈ outer :: inner, '+' ∉ name) ∧ '.' ∉ outer
        ∧ (text = spaceText space ++ join ['+'] (outer :: inner)
          ∨ space = [] ∧ text = '.' :: join ['+'] (outer :: inner)) := by
  obtain ⟨first, inner, split⟩ := List.exists_cons_of_ne_nil (pieces_ne_nil '+' text)
  have joined : join ['+'] (first :: inner) = text := split ▸ join_pieces '+' text
  have plain (name : List Char) (isName : name ∈ first :: inner) : '+' ∉ name :=
    fun plus => (of_mem_pieces (split ▸ isName) plus).2 rfl
  cases cut : cutLast? '.' first with
  | none =>
      refine ⟨[], first, inner, by simp [splitTypes, split, splitSpace, cut], List.not_mem_nil,
        plain, not_mem_of_cutLast? cut, Or.inl joined.symm⟩
  | some sides =>
      obtain ⟨space, outer⟩ := sides
      obtain ⟨rfl, absent⟩ := cutLast?_eq_some cut
      have unplussed := plain _ List.mem_cons_self
      rw [List.mem_append, List.mem_cons, not_or, not_or] at unplussed
      refine ⟨space, outer, inner, by simp [splitTypes, split, splitSpace, cut], unplussed.1, ?_,
        absent, ?_⟩
      · intro name isName
        rcases List.mem_cons.1 isName with rfl | later
        · exact unplussed.2.2
        · exact plain name (List.mem_cons_of_mem _ later)
      · have dotted : space ++ '.' :: outer = (space ++ ['.']) ++ outer := by simp
        rw [dotted, join_append_head] at joined
        by_cases empty : space = []
        · right
          subst empty
          exact ⟨rfl, joined.symm⟩
        · left
          rw [spaceText, if_neg empty, joined]

/-- A namespace without plus signs and type names without signs that cut them are read again. -/
theorem splitTypes_spaceText
    {space outer : List Char}
    {inner : List (List Char)}
    (plain : '+' ∉ space)
    (names : ∀ name ∈ outer :: inner, '+' ∉ name)
    (undotted : '.' ∉ outer) :
    splitTypes (spaceText space ++ join ['+'] (outer :: inner)) = (space, outer :: inner) := by
  have front : '+' ∉ spaceText space := by
    rw [spaceText]
    split
    · exact List.not_mem_nil
    · simp [plain]
  have parts : pieces '+' (spaceText space ++ join ['+'] (outer :: inner))
      = (spaceText space ++ outer) :: inner := by
    rw [← join_append_head]
    refine pieces_join (List.cons_ne_nil _ _) fun name isName => ?_
    rcases List.mem_cons.1 isName with rfl | later
    · exact List.not_mem_append front (names outer List.mem_cons_self)
    · exact names name (List.mem_cons_of_mem _ later)
  have cut : splitSpace (spaceText space ++ outer) = (space, outer) := by
    rw [spaceText, splitSpace]
    split
    · next empty => simp [empty, cutLast?_of_not_mem undotted]
    · rw [List.append_assoc, List.singleton_append, cutLast?_append space undotted]
      rfl
  rw [splitTypes, parts, List.headD_cons, cut, List.tail_cons]

/-! ## Round trips -/

/-- A key that is written can be read if no part of it has a sign that would cut it. -/
theorem Writable.parse_display
    {key : SymbolKey}
    (writable : key.Writable) :
    parse key.display = .ok key := by
  obtain ⟨outer, inner, path⟩ := List.exists_cons_of_ne_nil writable.some_type
  have names : ∀ name ∈ key.typePath.map String.toList, name ≠ [] ∧ '+' ∉ name := by
    intro name isName
    obtain ⟨text, isText, rfl⟩ := List.mem_map.1 isName
    exact (writable.names text isText).imp_left (mt String.toList_eq_nil_iff.1)
  have undotted : '.' ∉ outer.toList := writable.outer outer (by rw [path]; rfl)
  have plain : ∀ name ∈ outer.toList :: inner.map String.toList, '+' ∉ name := by
    intro name isName
    rw [path] at names
    exact (names name isName).2
  have types := splitTypes_spaceText writable.space plain undotted
  have same : outer.toList :: inner.map String.toList = key.typePath.map String.toList := by
    rw [path]
    rfl
  rw [same] at types
  refine parse_eq_ok_iff.2 ⟨_, _, key.member.map String.toList, toList_display key,
    (?_ : splitMember? _ _ = some (spaceText key.space.toList
      ++ join ['+'] (key.typePath.map String.toList), _)), ?_⟩
  · rw [splitMember?_eq_some_iff]
    cases known : key.member with
    | none => exact Or.inl ⟨writable.member_iff.1 known, List.append_nil _, rfl⟩
    | some name =>
        have isMember : key.kind ≠ .type := fun isType =>
          absurd (writable.member_iff.2 isType) (by simp [known])
        have unhashed := (writable.member name known).2
        refine Or.inr ⟨isMember, replaceChar '.' '#' name.toList, rfl,
          not_mem_replaceChar (by decide) _, ?_⟩
        rw [replaceChar_replaceChar unhashed]
        rfl
  · rw [types]
    refine ⟨fun empty => (names [] empty).1 rfl, ?_, ?_, ?_, ?_⟩
    · intro empty
      obtain ⟨name, known, isEmpty⟩ := Option.map_eq_some_iff.1 empty
      exact (writable.member name known).1 (String.toList_eq_nil_iff.1 isEmpty)
    · exact String.ofList_toList.symm
    · simp
    · simp

/-- A key that was read can be written. -/
theorem writable_of_parse
    {text : String}
    {key : SymbolKey}
    (read : parse text = .ok key) :
    key.Writable := by
  obtain ⟨rest, types, member, -, cut, someNames, someMember, space, path, known⟩ :=
    parse_eq_ok_iff.1 read
  obtain ⟨spaceChars, outer, inner, split, unplussed, plain, undotted, -⟩ :=
    splitTypes_spec types
  rw [split] at someNames space path
  have members := splitMember?_eq_some_iff.1 cut
  refine ⟨?_, ?_, ?_, ?_, ?_, ?_⟩
  · rcases members with ⟨isType, -, rfl⟩ | ⟨isMember, name, -, -, rfl⟩
    · simp [known, isType]
    · simp [known, isMember]
  · rw [path]
    exact List.cons_ne_nil _ _
  · intro name isName
    rw [path] at isName
    obtain ⟨chars, isChars, rfl⟩ := List.mem_map.1 isName
    rw [String.toList_ofList]
    refine ⟨fun empty => someNames ?_, plain chars isChars⟩
    rw [← String.ofList_eq_empty_iff.1 empty]
    exact isChars
  · intro name isFirst
    rw [path] at isFirst
    obtain rfl : String.ofList outer = name := by simpa using isFirst
    rw [String.toList_ofList]
    exact undotted
  · rw [space, String.toList_ofList]
    exact unplussed
  · intro name isMember
    rw [known] at isMember
    obtain ⟨chars, isChars, rfl⟩ := Option.map_eq_some_iff.1 isMember
    rw [String.toList_ofList]
    refine ⟨fun empty => someMember ?_, ?_⟩
    · rw [isChars, String.ofList_eq_empty_iff.1 empty]
    · rcases members with ⟨-, -, none⟩ | ⟨-, name, -, -, replaced⟩
      · exact absurd (isChars.symm.trans none) (by simp)
      · rw [Option.some.inj (isChars.symm.trans replaced)]
        exact not_mem_replaceChar (by decide) name

/-- A key that was read has the text it was read from, unless this starts with a dot that ends an
empty namespace. -/
theorem display_iff_of_parse
    {text : String}
    {key : SymbolKey}
    (read : parse text = .ok key) :
    key.display = text ↔ ¬ (key.space = "" ∧ StartsWithDot text) := by
  obtain ⟨rest, types, member, chars, cut, someNames, -, space, path, known⟩ :=
    parse_eq_ok_iff.1 read
  obtain ⟨spaceChars, outer, inner, split, -, -, undotted, whole⟩ := splitTypes_spec types
  rw [split] at someNames space path
  have names : key.typePath.map String.toList = outer :: inner := by
    rw [path, List.map_map]
    exact (List.map_congr_left fun name _ => String.toList_ofList).trans (List.map_id _)
  have parts : rest = types ++ memberText (key.member.map String.toList) := by
    rcases splitMember?_eq_some_iff.1 cut with ⟨-, rfl, rfl⟩ | ⟨-, name, rfl, absent, rfl⟩
    · simp [known, memberText]
    · simp [known, memberText, replaceChar_replaceChar absent]
  have same_iff : key.display = text
      ↔ spaceText spaceChars ++ join ['+'] (outer :: inner) = types := by
    rw [← String.toList_inj, toList_display, chars, parts, names, space, String.toList_ofList]
    simp only [List.cons.injEq, true_and, List.append_cancel_right_eq]
  rw [same_iff]
  rcases whole with same | ⟨rfl, dotted⟩
  · refine iff_of_true same.symm ?_
    rintro ⟨empty, letter, later, starts⟩
    obtain rfl : spaceChars = [] := String.ofList_eq_empty_iff.1 (space ▸ empty)
    -- The text behind the colon starts with the outermost name, which has a first character.
    have some_outer : outer ≠ [] := fun none => someNames (none ▸ List.mem_cons_self)
    obtain ⟨c, others, rfl⟩ := List.exists_cons_of_ne_nil some_outer
    have first : (join ['+'] ((c :: others) :: inner)).head? = some c := by
      cases inner <;> rfl
    rw [chars, parts, same] at starts
    have second : (join ['+'] ((c :: others) :: inner)
        ++ memberText (key.member.map String.toList)).head? = some '.' := by
      simp_all [spaceText]
    rw [List.head?_append, first, Option.some_or] at second
    exact undotted (Option.some.inj second ▸ List.mem_cons_self)
  · refine iff_of_false ?_ (not_not_intro ⟨space, ?_⟩)
    · rw [dotted]
      intro same
      exact absurd (congrArg List.length same) (by simp [spaceText])
    · exact ⟨key.kind.letter, join ['+'] (outer :: inner)
        ++ memberText (key.member.map String.toList), by rw [chars, parts, dotted]; rfl⟩

/-- Exactly the writable keys are read from their own text. Every key that is read from a text is
writable, and it has this text unless the text starts with a dot that ends an empty namespace. -/
theorem parse_display_iff :
    (∀ key : SymbolKey, parse key.display = .ok key ↔ key.Writable)
      ∧ ∀ text key, parse text = .ok key →
          key.Writable ∧ (key.display = text ↔ ¬ (key.space = "" ∧ StartsWithDot text)) :=
  ⟨fun _ => ⟨writable_of_parse, Writable.parse_display⟩,
    fun _ _ read => ⟨writable_of_parse read, display_iff_of_parse read⟩⟩

/-- The key of a constructor can be written and read again. A text with an empty namespace before a
dot can be read, but is not written. -/
theorem parse_display_constructor :
    SymbolKey.Writable ⟨.method, "Shop.Front", ["Order", "Line.2"], some ".ctor"⟩
      ∧ parse (display ⟨.method, "Shop.Front", ["Order", "Line.2"], some ".ctor"⟩)
          = .ok ⟨.method, "Shop.Front", ["Order", "Line.2"], some ".ctor"⟩
      ∧ parse "T:.Order" = .ok ⟨.type, "", ["Order"], none⟩
      ∧ display ⟨.type, "", ["Order"], none⟩ ≠ "T:.Order" := by
  have writable : SymbolKey.Writable ⟨.method, "Shop.Front", ["Order", "Line.2"], some ".ctor"⟩ :=
    ⟨by decide, by decide, by decide, by decide, by decide, by decide⟩
  have read : parse "T:.Order" = .ok ⟨.type, "", ["Order"], none⟩ := rfl
  refine ⟨writable, (parse_display_iff.1 _).2 writable, read, fun same => ?_⟩
  exact (parse_display_iff.2 _ _ read).2.1 same ⟨rfl, 'T', "Order".toList, by decide⟩

end SymbolKey

end Assembly
end AssemblyAtlas
