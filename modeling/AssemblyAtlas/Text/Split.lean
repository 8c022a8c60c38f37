/-!
# Cutting texts at a character

Texts are cut at the first, the last or every occurrence of a separating character.

* `cutFirst?` and `cutLast?` give the two sides of one occurrence;
* `pieces` gives the parts between all occurrences, and `join` puts parts together again.
-/

namespace AssemblyAtlas
namespace Text

/-- The sides of the first occurrence of a character. -/
def cutFirst? (separator : Char) : List Char → Option (List Char × List Char)
  | [] => none
  | c :: rest =>
      if c = separator then
        some ([], rest)
      else
        (cutFirst? separator rest).map fun sides => (c :: sides.1, sides.2)

/-- The sides of the last occurrence of a character. -/
def cutLast? (separator : Char) : List Char → Option (List Char × List Char)
  | [] => none
  | c :: rest =>
      match cutLast? separator rest with
      | some sides => some (c :: sides.1, sides.2)
      | none => if c = separator then some ([], rest) else none

/-- The parts of a text between the occurrences of a character; there is always at least one. -/
def pieces (separator : Char) : List Char → List (List Char)
  | [] => [[]]
  | c :: rest =>
      if c = separator then
        [] :: pieces separator rest
      else
        match pieces separator rest with
        | [] => [[c]]
        | part :: parts => (c :: part) :: parts

/-- The parts with a separating text between each two neighbours. -/
def join (separator : List Char) : List (List Char) → List Char
  | [] => []
  | [part] => part
  | part :: parts => part ++ separator ++ join separator parts

/-- The text up to the first occurrence of a character; an occurrence at the very start does not
count, and neither does any after it. -/
def before (stop : Char) : List Char → List Char
  | [] => []
  | c :: rest =>
      if c = stop then
        c :: rest
      else
        c :: rest.takeWhile (· != stop)

/-- The rest of a text after a leading part, if the text starts with it. -/
def afterLead? : List Char → List Char → Option (List Char)
  | [], text => some text
  | _ :: _, [] => none
  | lead :: leads, c :: rest =>
      if lead = c then
        afterLead? leads rest
      else
        none

/-- Replaces one character by another. -/
def replaceChar (old new : Char) (text : List Char) : List Char :=
  text.map fun c => if c = old then new else c

/-- A cut at the last occurrence loses only the separator, which the second side lacks. -/
theorem cutLast?_eq_some
    {separator : Char}
    {text left right : List Char}
    (cut : cutLast? separator text = some (left, right)) :
    text = left ++ separator :: right ∧ separator ∉ right := by
  induction text generalizing left right with
  | nil => simp [cutLast?] at cut
  | cons c rest ih =>
      rw [cutLast?] at cut
      split at cut
      · next sides found =>
          obtain ⟨rfl, rfl⟩ : c :: sides.1 = left ∧ sides.2 = right := by simpa using cut
          obtain ⟨whole, absent⟩ := ih found
          exact ⟨by simp [whole], absent⟩
      · next missing =>
          split at cut
          · next here =>
              obtain ⟨rfl, rfl⟩ : [] = left ∧ rest = right := by simpa using cut
              refine ⟨by simp [here], ?_⟩
              clear ih cut
              induction rest with
              | nil => simp
              | cons d later ih =>
                  rw [cutLast?] at missing
                  split at missing
                  · simp at missing
                  · next none_later =>
                      split at missing
                      · simp at missing
                      · next differs => simp [ih none_later, Ne.symm differs]
          · simp at cut

/-- A text has at least one part. -/
theorem pieces_ne_nil
    (separator : Char)
    (text : List Char) :
    pieces separator text ≠ [] := by
  cases text with
  | nil => simp [pieces]
  | cons c rest =>
      rw [pieces]
      split
      · simp
      · split <;> simp

/-- The parts of a text joined by the separator are the text. -/
theorem join_pieces
    (separator : Char)
    (text : List Char) :
    join [separator] (pieces separator text) = text := by
  induction text with
  | nil => rfl
  | cons c rest ih =>
      have some_part := pieces_ne_nil separator rest
      rw [pieces]
      cases parts : pieces separator rest with
      | nil => exact absurd parts some_part
      | cons part others =>
          split
          · next here => simp_all [join]
          · next differs => cases others <;> simp_all [join]

end Text
end AssemblyAtlas
