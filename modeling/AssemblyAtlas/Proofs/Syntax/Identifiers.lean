import AssemblyAtlas.Proofs.Syntax.Escaping

/-!
# The identifier that stands for a name

Behind an at sign at its start, which only keywords have, the identifier that stands for a name is
not empty and has letters, numerics and underscores only. It starts with a numeric character just
where the name starts with one that is no decimal digit of ASCII, for only these get an underscore
before them.

* `withoutAt` takes the at sign away, and `StartsNumeric` is about the first character;
* `identifierChars_eq_self_iff` and `identifier_eq_self_iff` say which names stand for themselves.
-/

namespace AssemblyAtlas
namespace Syntax

open Text

/-- The text without an at sign at its start. -/
def withoutAt : List Char → List Char
  | '@' :: rest => rest
  | text => text

/-- The text starts with a decimal digit, a letter number or another numeric character. -/
def StartsNumeric (text : List Char) : Prop :=
  ∃ c, text.head? = some c ∧ isNumeric c

/-- The text starts with a decimal digit of ASCII. -/
def StartsWithDigit (text : List Char) : Prop :=
  ∃ c, text.head? = some c ∧ c.isDigit

/-- The name with an underscore for each character that cannot stand in an identifier. -/
def replaced (name : List Char) : List Char :=
  name.map fun c => if isIdentifierChar c then c else '_'

/-! ## Replaced characters -/

theorem isIdentifierChar_underscore : isIdentifierChar '_' := by
  decide +kernel

/-- The digits of ASCII are numeric. -/
theorem isNumeric_of_isDigit
    {c : Char}
    (isDigit : c.isDigit) :
    isNumeric c := by
  simp only [Char.isDigit, Bool.and_eq_true, decide_eq_true_eq] at isDigit
  have low : 48 ≤ c.toNat := UInt32.le_iff_toNat_le.1 isDigit.1
  have high : c.toNat ≤ 57 := UInt32.le_iff_toNat_le.1 isDigit.2
  rw [isNumeric, numericRanges, CodeRanges.contains, if_neg (by omega), if_pos high]

theorem isIdentifierChar_of_isNumeric
    {c : Char}
    (numeric : isNumeric c) :
    isIdentifierChar c := by
  simp [isIdentifierChar, isAlphanumeric, numeric]

/-- Characters that may stand in an identifier stay, and only they do. -/
theorem replaced_eq_self_iff
    {name : List Char} :
    replaced name = name ↔ ∀ c ∈ name, isIdentifierChar c := by
  have each (c : Char) : (if isIdentifierChar c then c else '_') = c ↔ isIdentifierChar c := by
    split
    · next fits => exact iff_of_true rfl fits
    · next unfit => exact iff_of_false (fun same => unfit (same ▸ isIdentifierChar_underscore)) unfit
  induction name with
  | nil => simp [replaced]
  | cons c rest ih =>
      rw [List.forall_mem_cons, replaced, List.map_cons, List.cons_eq_cons]
      exact and_congr (each c) ih

/-- A text starts numeric after the replacement if it did before. -/
theorem startsNumeric_replaced_iff
    {name : List Char} :
    StartsNumeric (replaced name) ↔ StartsNumeric name := by
  have underscore : ¬isNumeric '_' := by decide +kernel
  cases name with
  | nil => exact Iff.rfl
  | cons c rest =>
      have each : isNumeric (if isIdentifierChar c then c else '_') ↔ isNumeric c := by
        split
        · exact Iff.rfl
        · next unfit =>
            refine iff_of_false underscore fun numeric => ?_
            exact unfit (isIdentifierChar_of_isNumeric numeric)
      simpa [StartsNumeric, replaced] using each

/-- The three ways in which a name is made into the characters of an identifier. -/
inductive Spelling (name : List Char) : List Char → Prop
  | empty :
      name = [] →
      Spelling name ['_']
  | digit :
      StartsWithDigit name →
      Spelling name ('_' :: replaced name)
  | plain :
      name ≠ [] →
      ¬StartsWithDigit name →
      Spelling name (replaced name)

theorem spelling_identifierChars (name : List Char) :
    Spelling name (identifierChars name) := by
  cases name with
  | nil => exact .empty rfl
  | cons c rest =>
      have kept : (if isIdentifierChar c then c else '_').isDigit = c.isDigit := by
        split
        · rfl
        · next unfit =>
            symm
            rw [show Char.isDigit '_' = false by decide, Bool.eq_false_iff]
            exact fun isDigit => unfit (isIdentifierChar_of_isNumeric (isNumeric_of_isDigit isDigit))
      rw [identifierChars]
      simp only [List.map_cons, kept]
      split
      · next isDigit => exact .digit ⟨c, rfl, isDigit⟩
      · next notDigit =>
          refine .plain (List.cons_ne_nil c rest) ?_
          rintro ⟨first, isFirst, isDigit⟩
          exact notDigit (Option.some.inj isFirst ▸ isDigit)

/-! ## The identifier -/

/-- Behind an at sign at its start, an identifier is its characters. -/
theorem withoutAt_identifier (name : String) :
    withoutAt (identifier name).toList = identifierChars name.toList := by
  have noAt : '@' ∉ identifierChars name.toList := by
    intro inside
    exact absurd (isIdentifierChar_of_mem_identifierChars inside) (by decide +kernel)
  rw [identifier]
  split
  · rw [String.toList_ofList, String.toList_ofList, withoutAt]
  · rw [String.toList_ofList]
    generalize identifierChars name.toList = chars at noAt ⊢
    cases chars with
    | nil => rfl
    | cons c rest =>
        rw [withoutAt]
        intro _ same
        exact noAt ((List.cons_eq_cons.1 same).1 ▸ List.mem_cons_self)

/-- An identifier starts with an at sign if the rest of it is a keyword. -/
theorem head?_identifier_iff (name : String) :
    (identifier name).toList.head? = some '@'
      ↔ String.ofList (identifierChars name.toList) ∈ keywords := by
  rw [identifier]
  split
  · next keyword => simp [keyword]
  · next free =>
      refine iff_of_false (fun isFirst => ?_) free
      rw [String.toList_ofList] at isFirst
      exact absurd (isIdentifierChar_of_mem_identifierChars (List.mem_of_head? isFirst))
        (by decide +kernel)

theorem identifierChars_ne_nil (name : List Char) :
    identifierChars name ≠ [] := by
  have spelling := spelling_identifierChars name
  generalize identifierChars name = chars at spelling ⊢
  cases spelling with
  | empty _ => exact List.cons_ne_nil _ _
  | digit _ => exact List.cons_ne_nil _ _
  | plain some_char _ => simpa [replaced] using some_char

/-- A numeric character at the start stays there unless it is a digit of ASCII. -/
theorem startsNumeric_identifierChars_iff
    {name : List Char} :
    StartsNumeric (identifierChars name) ↔ StartsNumeric name ∧ ¬StartsWithDigit name := by
  have underscore (rest : List Char) : ¬StartsNumeric ('_' :: rest) := by
    rintro ⟨c, isFirst, numeric⟩
    obtain rfl := Option.some.inj isFirst
    exact absurd numeric (by decide +kernel)
  have spelling := spelling_identifierChars name
  generalize identifierChars name = chars at spelling ⊢
  cases spelling with
  | empty none =>
      refine iff_of_false (underscore []) ?_
      rintro ⟨⟨c, isFirst, -⟩, -⟩
      simp [none] at isFirst
  | digit digit => exact iff_of_false (underscore _) fun starts => starts.2 digit
  | plain _ notDigit => rw [startsNumeric_replaced_iff, and_iff_left notDigit]

/-- A name has the characters of its identifier if it is made of characters that may stand in one,
and does not start with a digit. -/
theorem identifierChars_eq_self_iff
    {name : List Char} :
    identifierChars name = name
      ↔ name ≠ [] ∧ (∀ c ∈ name, isIdentifierChar c) ∧ ¬StartsWithDigit name := by
  have spelling := spelling_identifierChars name
  generalize identifierChars name = chars at spelling ⊢
  cases spelling with
  | empty none => simp [none]
  | digit digit =>
      refine iff_of_false (fun same => ?_) fun fits => fits.2.2 digit
      have length := congrArg List.length same
      simp [replaced] at length
  | plain some_char notDigit =>
      rw [replaced_eq_self_iff, and_iff_left notDigit, and_iff_right some_char]

theorem length_le_length_identifierChars (name : List Char) :
    name.length ≤ (identifierChars name).length := by
  have spelling := spelling_identifierChars name
  generalize identifierChars name = chars at spelling ⊢
  cases spelling with
  | empty none => simp [none]
  | digit _ => simp [replaced]
  | plain _ _ => simp [replaced]

/-- A name is its own identifier if it has the characters of its identifier and is no keyword. -/
theorem identifier_eq_self_iff
    {name : String} :
    identifier name = name
      ↔ name ≠ "" ∧ (∀ c ∈ name.toList, isIdentifierChar c) ∧ ¬StartsWithDigit name.toList
        ∧ name ∉ keywords := by
  have chars : identifierChars name.toList = name.toList
      ↔ name ≠ "" ∧ (∀ c ∈ name.toList, isIdentifierChar c) ∧ ¬StartsWithDigit name.toList := by
    rw [identifierChars_eq_self_iff, ne_eq, String.toList_eq_nil_iff]
  rw [← and_assoc, ← and_assoc, and_assoc (a := name ≠ ""), ← chars, identifier]
  split
  · next keyword =>
      constructor
      · intro same
        -- An at sign makes the text longer than the name was.
        have length := congrArg (List.length ∘ String.toList) same
        have atLeast := length_le_length_identifierChars name.toList
        simp only [Function.comp_apply, String.toList_ofList, List.length_cons] at length
        omega
      · rintro ⟨same, free⟩
        rw [same, String.ofList_toList] at keyword
        exact absurd keyword free
  · next free =>
      constructor
      · intro same
        exact ⟨by rw [← String.toList_ofList (l := identifierChars _), same], same ▸ free⟩
      · rintro ⟨same, -⟩
        rw [same, String.ofList_toList]

/-- Behind its at sign, which only a keyword has, the identifier that stands for a name is not empty
and has letters, numerics and underscores only. It starts with a numeric character if the name does,
unless that is a digit of ASCII. A name stands for itself if it is made in this way, does not start
with a digit of ASCII and is no keyword. -/
theorem startsNumeric_identifier_iff (name : String) :
    withoutAt (identifier name).toList ≠ []
      ∧ (∀ c ∈ withoutAt (identifier name).toList, isAlphanumeric c ∨ c = '_')
      ∧ ((identifier name).toList.head? = some '@'
          ↔ String.ofList (withoutAt (identifier name).toList) ∈ keywords)
      ∧ (StartsNumeric (withoutAt (identifier name).toList)
          ↔ StartsNumeric name.toList ∧ ¬StartsWithDigit name.toList)
      ∧ (identifier name = name
          ↔ name ≠ "" ∧ (∀ c ∈ name.toList, isAlphanumeric c ∨ c = '_')
            ∧ ¬StartsWithDigit name.toList ∧ name ∉ keywords) := by
  have classes (c : Char) : isIdentifierChar c ↔ isAlphanumeric c ∨ c = '_' := by
    simp [isIdentifierChar]
  simp only [← classes]
  rw [withoutAt_identifier]
  exact ⟨identifierChars_ne_nil _, fun c => isIdentifierChar_of_mem_identifierChars,
    head?_identifier_iff name, startsNumeric_identifierChars_iff, identifier_eq_self_iff⟩

/-- An Arabic digit stays at the start of an identifier. -/
theorem startsNumeric_identifier_arabicSample :
    identifier "\u0663x" = "\u0663x"
      ∧ StartsNumeric (withoutAt (identifier "\u0663x").toList) := by
  refine ⟨by decide +kernel, '\u0663', by decide +kernel, by decide +kernel⟩

end Syntax
end AssemblyAtlas
