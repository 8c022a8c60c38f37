import AssemblyAtlas.Text.Shortest
import AssemblyAtlas.Text.Split
import Mathlib.Data.List.Basic

/-!
# Parts of longer texts

Text that is put behind a text continues its last part. So the place of what stands in a part is
the same in every longer text.

* `pieces_append` gives the parts of two texts, one behind the other, and `pieces_reverse` those of
  a text that is read backwards;
* `getElem?_pieces_append` finds a part of a text in a longer one;
* the texts of numbers have digits, signs and points only, so they never start a new line.
-/

namespace AssemblyAtlas
namespace Text

section Parts

variable {separator : Char}

/-- A separator starts a new part. -/
theorem pieces_separator
    (rest : List Char) :
    pieces separator (separator :: rest) = [] :: pieces separator rest := by
  rw [pieces, if_pos rfl]

/-- Another character stands in the first part. -/
theorem pieces_other
    {c : Char}
    (differs : c ≠ separator)
    {rest part : List Char}
    {parts : List (List Char)}
    (later : pieces separator rest = part :: parts) :
    pieces separator (c :: rest) = (c :: part) :: parts := by
  rw [pieces, if_neg differs, later]

/-- A text without the separator is one part. -/
theorem pieces_of_not_mem
    {text : List Char}
    (absent : separator ∉ text) :
    pieces separator text = [text] := by
  induction text with
  | nil => rfl
  | cons c rest ih =>
      rw [List.mem_cons, not_or] at absent
      exact pieces_other (Ne.symm absent.1) (ih absent.2)

/-- The last part of a text goes on in the first part of what stands behind it. -/
theorem pieces_append
    {text more last part : List Char}
    {earlier parts : List (List Char)}
    (ends : pieces separator text = earlier ++ [last])
    (starts : pieces separator more = part :: parts) :
    pieces separator (text ++ more) = earlier ++ (last ++ part) :: parts := by
  induction text generalizing earlier last with
  | nil =>
      obtain ⟨rfl, rfl⟩ : earlier = [] ∧ last = [] := by
        cases earlier with
        | nil => simpa [pieces] using ends
        | cons head tail => simp [pieces] at ends
      exact starts
  | cons c rest ih =>
      rw [List.cons_append]
      by_cases here : c = separator
      · subst here
        rw [pieces_separator] at ends ⊢
        cases earlier with
        | nil =>
            have none := (List.cons_eq_cons.1 ends).2
            exact absurd none (pieces_ne_nil c rest)
        | cons head tail =>
            obtain ⟨rfl, later⟩ := List.cons_eq_cons.1 ends
            rw [ih later]
            rfl
      · obtain ⟨first, others, split⟩ := List.exists_cons_of_ne_nil (pieces_ne_nil separator rest)
        rw [pieces_other here split] at ends
        cases earlier with
        | nil =>
            obtain ⟨rfl, rfl⟩ := List.cons_eq_cons.1 ends
            have later : pieces separator (rest ++ more) = [] ++ (first ++ part) :: parts :=
              ih split
            exact pieces_other here later
        | cons head tail =>
            obtain ⟨rfl, rfl⟩ := List.cons_eq_cons.1 ends
            have later : pieces separator (rest ++ more)
                = (first :: tail) ++ (last ++ part) :: parts := ih split
            exact pieces_other here later

/-- A separator between two texts keeps their parts apart. -/
theorem pieces_append_separator
    (text more : List Char) :
    pieces separator (text ++ separator :: more)
      = pieces separator text ++ pieces separator more := by
  obtain ⟨earlier, last, ends⟩ := List.eq_nil_or_concat' (pieces separator text)
    |>.resolve_left (pieces_ne_nil separator text)
  rw [pieces_append ends (pieces_separator more), ends, List.append_nil, List.append_assoc,
    List.singleton_append]

/-- The parts of a text that is read backwards are its parts, from the last to the first and each
read backwards. -/
theorem pieces_reverse
    (text : List Char) :
    pieces separator text.reverse = ((pieces separator text).map List.reverse).reverse := by
  induction text with
  | nil => rfl
  | cons c rest ih =>
      obtain ⟨part, parts, split⟩ := List.exists_cons_of_ne_nil (pieces_ne_nil separator rest)
      have ends : pieces separator rest.reverse
          = (parts.map List.reverse).reverse ++ [part.reverse] := by
        rw [ih, split, List.map_cons, List.reverse_cons]
      rw [List.reverse_cons]
      by_cases here : c = separator
      · subst here
        rw [pieces_append ends (pieces_separator []), pieces_separator, split]
        simp [pieces]
      · rw [pieces_append ends (pieces_other here rfl), pieces_other here split]
        simp

/-- A part of a text has characters of the text only, and no separator. -/
theorem of_mem_pieces
    {text part : List Char}
    (isPart : part ∈ pieces separator text)
    {c : Char}
    (inPart : c ∈ part) :
    c ∈ text ∧ c ≠ separator := by
  induction text generalizing part with
  | nil =>
      rw [List.mem_singleton.1 isPart] at inPart
      exact absurd inPart List.not_mem_nil
  | cons head rest ih =>
      by_cases here : head = separator
      · subst here
        rw [pieces_separator] at isPart
        rcases List.mem_cons.1 isPart with rfl | later
        · exact absurd inPart List.not_mem_nil
        · exact (ih later inPart).imp_left (List.mem_cons_of_mem _)
      · obtain ⟨first, others, split⟩ := List.exists_cons_of_ne_nil (pieces_ne_nil separator rest)
        rw [pieces_other here split] at isPart
        rcases List.mem_cons.1 isPart with rfl | later
        · rcases List.mem_cons.1 inPart with rfl | inFirst
          · exact ⟨List.mem_cons_self, here⟩
          · have known := ih (split ▸ List.mem_cons_self) inFirst
            exact known.imp_left (List.mem_cons_of_mem _)
        · have known := ih (split ▸ List.mem_cons_of_mem _ later) inPart
          exact known.imp_left (List.mem_cons_of_mem _)

/-- A text without the separator cannot be cut. -/
theorem cutLast?_of_not_mem
    {text : List Char}
    (absent : separator ∉ text) :
    cutLast? separator text = none := by
  induction text with
  | nil => rfl
  | cons c rest ih =>
      rw [List.mem_cons, not_or] at absent
      rw [cutLast?, ih absent.2]
      exact if_neg (Ne.symm absent.1)

/-- A text is cut where nothing behind is the separator. -/
theorem cutLast?_append
    (left : List Char)
    {right : List Char}
    (absent : separator ∉ right) :
    cutLast? separator (left ++ separator :: right) = some (left, right) := by
  induction left with
  | nil =>
      rw [List.nil_append, cutLast?, cutLast?_of_not_mem absent]
      exact if_pos rfl
  | cons c rest ih => rw [List.cons_append, cutLast?, ih]

/-- A part of a text is at the same index in a longer one, and only the last part may go on. -/
theorem getElem?_pieces_append
    {text line : List Char}
    {i : Nat}
    (found : (pieces separator text)[i]? = some line)
    (more : List Char) :
    ∃ rest, (pieces separator (text ++ more))[i]? = some (line ++ rest) := by
  obtain ⟨part, parts, starts⟩ := List.exists_cons_of_ne_nil (pieces_ne_nil separator more)
  obtain ⟨earlier, last, ends⟩ := List.eq_nil_or_concat' (pieces separator text)
    |>.resolve_left (pieces_ne_nil separator text)
  rw [pieces_append ends starts]
  rw [ends] at found
  rcases Nat.lt_trichotomy i earlier.length with less | equal | greater
  · rw [List.getElem?_append_left less] at found ⊢
    exact ⟨[], by rw [found, List.append_nil]⟩
  · subst equal
    obtain rfl : last = line := by simpa using found
    exact ⟨part, by simp⟩
  · have short : (earlier ++ [last]).length ≤ i := by simpa using Nat.succ_le_of_lt greater
    rw [List.getElem?_eq_none short] at found
    exact absurd found (by simp)

end Parts

/-! ## Texts of numbers -/

/-- A digit is no line feed. -/
theorem newline_not_mem_decimal (n : Nat) :
    '\n' ∉ decimal n := by
  intro newline
  have isDigit := Nat.isDigit_of_mem_toDigits (by decide) (by decide) newline
  exact absurd isDigit (by decide)

theorem newline_not_mem_hexFixed
    (width n : Nat) :
    '\n' ∉ hexFixed width n := by
  induction width with
  | zero => simp [hexFixed]
  | succ width ih =>
      have small : ∀ digit < 16, '\n' ≠ Nat.digitChar digit := by decide
      have digit := small (n / 16 ^ width % 16) (Nat.mod_lt _ (by decide))
      rw [hexFixed, List.mem_cons, not_or]
      exact ⟨digit, ih⟩

namespace Double

/-- The digits of a number are decimal ones. -/
theorem newline_not_mem_shortest
    (significand : Nat)
    (exponent : Int)
    (leastOfBinade : Bool) :
    '\n' ∉ (shortest significand exponent leastOfBinade).digits := by
  rw [shortest]
  split
  · decide
  · exact newline_not_mem_decimal _

/-- Positional notation adds zeros and a point. -/
theorem newline_not_mem_positional
    {number : Digits}
    (absent : '\n' ∉ number.digits) :
    '\n' ∉ positional number := by
  have in_front (count : Nat) : '\n' ∉ number.digits.take count :=
    fun newline => absent (List.mem_of_mem_take newline)
  have behind (count : Nat) : '\n' ∉ number.digits.drop count :=
    fun newline => absent (List.mem_of_mem_drop newline)
  rw [positional]
  split
  · simp [absent]
  · split
    · simp [absent]
    · simp [in_front, behind]

/-- Scientific notation adds a point, a sign and an exponent. -/
theorem newline_not_mem_scientific
    {number : Digits}
    (absent : '\n' ∉ number.digits) :
    '\n' ∉ scientific number := by
  have exponent := newline_not_mem_decimal (number.point - 1).natAbs
  have sign : '\n' ∉ if number.point - 1 < 0 then ['-'] else [] := by
    split <;> decide
  simp only [scientific, List.mem_append, List.mem_cons, not_or]
  refine ⟨⟨?_, by decide, sign⟩, exponent⟩
  split
  · exact absent
  · exact absent
  · next digits =>
      rw [digits] at absent
      simp_all

theorem newline_not_mem_finiteText
    (negative : Bool)
    (significand : Nat)
    (exponent : Int)
    (leastOfBinade : Bool) :
    '\n' ∉ finiteText negative significand exponent leastOfBinade := by
  have digits := newline_not_mem_shortest significand exponent leastOfBinade
  have sign : '\n' ∉ if negative then ['-'] else [] := by
    split <;> decide
  by_cases zero : significand = 0
  · rw [finiteText, if_pos zero]
    simp [sign]
  · rw [finiteText, if_neg zero]
    by_cases near : -3 ≤ (shortest significand exponent leastOfBinade).point
        ∧ (shortest significand exponent leastOfBinade).point ≤ 16
    · rw [if_pos near, List.mem_append, not_or]
      exact ⟨sign, newline_not_mem_positional digits⟩
    · rw [if_neg near, List.mem_append, not_or]
      exact ⟨sign, newline_not_mem_scientific digits⟩

end Double

end Text
end AssemblyAtlas
