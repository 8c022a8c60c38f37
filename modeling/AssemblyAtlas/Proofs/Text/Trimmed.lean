import AssemblyAtlas.Text.CharClass
import Mathlib.Data.List.Basic

/-!
# Texts without white space at their ends

Trimming leaves exactly the texts alone that have no white space at either end, and it always gives
such a text.
-/

namespace AssemblyAtlas
namespace Text

/-- The text does not start with white space. -/
def StartsBare (text : List Char) : Prop :=
  ∀ c ∈ text.head?, isBlank c = false

/-- The text does not end with white space. -/
def EndsBare (text : List Char) : Prop :=
  ∀ c ∈ text.getLast?, isBlank c = false

instance (text : List Char) : Decidable (StartsBare text) :=
  Option.decidableForallMem (o := text.head?)

instance (text : List Char) : Decidable (EndsBare text) :=
  Option.decidableForallMem (o := text.getLast?)

variable {text : List Char}

theorem StartsBare.reverse
    (bare : StartsBare text) :
    EndsBare text.reverse := by
  rw [EndsBare, List.getLast?_reverse]
  exact bare

theorem EndsBare.reverse
    (bare : EndsBare text) :
    StartsBare text.reverse := by
  rw [StartsBare, List.head?_reverse]
  exact bare

/-- What the text ends with is not empty and decides how it ends. -/
theorem endsBare_append_iff
    {ending : List Char}
    (some_char : ending ≠ [])
    (front : List Char) :
    EndsBare (front ++ ending) ↔ EndsBare ending := by
  rw [EndsBare, EndsBare, List.getLast?_append_of_ne_nil front some_char]

theorem startsBare_dropWhile (text : List Char) :
    StartsBare (text.dropWhile isBlank) := by
  intro c isFirst
  have stops := List.head?_dropWhile_not isBlank text
  rw [isFirst] at stops
  simpa using stops

theorem StartsBare.dropWhile
    (bare : StartsBare text) :
    text.dropWhile isBlank = text := by
  cases text with
  | nil => rfl
  | cons c rest => exact List.dropWhile_cons_of_neg (by simp [bare c rfl])

/-- A trimmed text does not end with white space. -/
theorem endsBare_trim (text : List Char) :
    EndsBare (trim text) :=
  (startsBare_dropWhile _).reverse

/-- A trimmed text does not start with white space. -/
theorem startsBare_trim (text : List Char) :
    StartsBare (trim text) := by
  intro c isFirst
  refine startsBare_dropWhile text c ?_
  -- Only characters at the end are lost, and the first one is still there.
  obtain ⟨blanks, whole⟩ : trim text <+: text.dropWhile isBlank := by
    rw [trim, trimEnd, ← List.reverse_suffix, List.reverse_reverse]
    exact List.dropWhile_suffix isBlank
  rw [← whole, List.head?_append, isFirst]
  rfl

theorem trim_eq_self
    (starts : StartsBare text)
    (ends : EndsBare text) :
    trim text = text := by
  rw [trim, starts.dropWhile, trimEnd, ends.reverse.dropWhile, List.reverse_reverse]

/-- A blank before a text is lost. -/
theorem trim_blank_cons
    {c : Char}
    (blank : isBlank c = true)
    (text : List Char) :
    trim (c :: text) = trim text := by
  rw [trim, List.dropWhile_cons_of_pos blank, trim]

/-- Trimming adds nothing. -/
theorem of_mem_trim
    {c : Char}
    (member : c ∈ trim text) :
    c ∈ text := by
  rw [trim, trimEnd, List.mem_reverse] at member
  have inside := (List.dropWhile_sublist isBlank).subset member
  exact (List.dropWhile_sublist isBlank).subset (List.mem_reverse.1 inside)

/-- A text without any white space is left alone. -/
theorem trim_of_forall
    (bare : ∀ c ∈ text, isBlank c = false) :
    trim text = text :=
  trim_eq_self (fun c isFirst => bare c (List.mem_of_mem_head? isFirst))
    (fun c isLast => bare c (List.mem_of_mem_getLast? isLast))

end Text
end AssemblyAtlas
