import AssemblyAtlas.Proofs.Text.Lines

/-!
# Texts that are joined from parts

What is put together can be taken apart again: parts that lack the separator are the parts of the
text that is joined from them, what stands behind a leading text is found behind it, and a character
that stands for another one is changed back where it had no place of its own. So the parts of a text
are what stands in it between two separators.
-/

namespace AssemblyAtlas
namespace Text

variable {separator : Char}

/-- What stands before the first part belongs to it. -/
theorem join_append_head
    (glue front part : List Char)
    (parts : List (List Char)) :
    join glue ((front ++ part) :: parts) = front ++ join glue (part :: parts) := by
  cases parts with
  | nil => rfl
  | cons next rest => simp only [join, List.append_assoc]

/-- Two rows of parts are joined one behind the other. -/
theorem join_append
    {glue : List Char}
    {left right : List (List Char)}
    (some_left : left ≠ [])
    (some_right : right ≠ []) :
    join glue (left ++ right) = join glue left ++ glue ++ join glue right := by
  induction left with
  | nil => exact absurd rfl some_left
  | cons part rest ih =>
      cases rest with
      | nil =>
          obtain ⟨next, others, rfl⟩ := List.exists_cons_of_ne_nil some_right
          rfl
      | cons next others =>
          have later := ih (List.cons_ne_nil next others)
          simp only [List.cons_append, join, List.append_assoc] at later ⊢
          rw [later]

/-- What stands in a joined text stands in a part or between two. -/
theorem of_mem_join
    {glue : List Char}
    {parts : List (List Char)}
    {c : Char}
    (member : c ∈ join glue parts) :
    c ∈ glue ∨ ∃ part ∈ parts, c ∈ part := by
  induction parts with
  | nil => cases member
  | cons part rest ih =>
      cases rest with
      | nil => exact Or.inr ⟨part, List.mem_cons_self, member⟩
      | cons next others =>
          rw [join, List.mem_append, List.mem_append] at member
          · rcases member with (first | between) | behind
            · exact Or.inr ⟨part, List.mem_cons_self, first⟩
            · exact Or.inl between
            · rcases ih behind with between | ⟨other, isOther, inside⟩
              · exact Or.inl between
              · exact Or.inr ⟨other, List.mem_cons_of_mem part isOther, inside⟩
          · exact List.cons_ne_nil next others

/-- What stands in a part stands in the joined text. -/
theorem mem_join
    {glue part : List Char}
    {parts : List (List Char)}
    {c : Char}
    (isPart : part ∈ parts)
    (member : c ∈ part) :
    c ∈ join glue parts := by
  induction parts with
  | nil => cases isPart
  | cons first rest ih =>
      cases rest with
      | nil => exact List.mem_singleton.1 isPart ▸ member
      | cons next others =>
          rw [join, List.mem_append, List.mem_append]
          · rcases List.mem_cons.1 isPart with rfl | later
            · exact Or.inl (Or.inl member)
            · exact Or.inr (ih later)
          · exact List.cons_ne_nil next others

/-- Parts without the separator are the parts of the text that is joined from them. -/
theorem pieces_join
    {parts : List (List Char)}
    (some_part : parts ≠ [])
    (absent : ∀ part ∈ parts, separator ∉ part) :
    pieces separator (join [separator] parts) = parts := by
  induction parts with
  | nil => exact absurd rfl some_part
  | cons part rest ih =>
      have first : separator ∉ part := absent part List.mem_cons_self
      cases rest with
      | nil => exact pieces_of_not_mem first
      | cons next others =>
          have later := ih (List.cons_ne_nil next others)
            fun other isOther => absent other (List.mem_cons_of_mem part isOther)
          have text : join [separator] (part :: next :: others)
              = part ++ separator :: join [separator] (next :: others) := by
            simp [join]
          rw [text, pieces_append_separator, pieces_of_not_mem first, later,
            List.singleton_append]

/-- Between separators at both ends, the parts of a text are what stands between two separators and
has none inside. -/
theorem mem_pieces_iff
    {text part : List Char} :
    part ∈ pieces separator text
      ↔ separator ∉ part
        ∧ separator :: (part ++ [separator]) <:+: separator :: (text ++ [separator]) := by
  have padded : pieces separator (separator :: (text ++ [separator]))
      = [] :: (pieces separator text ++ [[]]) := by
    rw [pieces_separator, pieces_append_separator]
    rfl
  constructor
  · intro isPart
    obtain ⟨earlier, later, split⟩ := List.append_of_mem isPart
    have joined := join_pieces separator (separator :: (text ++ [separator]))
    rw [padded, split, List.append_assoc, List.cons_append, ← List.cons_append,
      join_append (List.cons_ne_nil _ _) (List.cons_ne_nil _ _),
      ← List.singleton_append (x := part),
      join_append (List.cons_ne_nil _ _) (by simp)] at joined
    exact ⟨fun inside => (of_mem_pieces isPart inside).2 rfl, _, _, by simpa [join] using joined⟩
  · rintro ⟨absent, front, behind, whole⟩
    have cut : pieces separator front ++ part :: pieces separator behind
        = [] :: (pieces separator text ++ [[]]) := by
      rw [← padded, ← whole, List.append_assoc, List.cons_append, pieces_append_separator,
        List.append_assoc, List.singleton_append, pieces_append_separator,
        pieces_of_not_mem absent, List.singleton_append]
    -- The first and the last part of the padded text are those before and behind its ends.
    obtain ⟨first, others, isFront⟩ :=
      List.exists_cons_of_ne_nil (pieces_ne_nil separator front)
    obtain ⟨inner, last, isBehind⟩ := List.eq_nil_or_concat' (pieces separator behind)
      |>.resolve_left (pieces_ne_nil separator behind)
    rw [isFront, isBehind, List.cons_append, ← List.cons_append (a := part), ← List.append_assoc] at cut
    have inside := List.append_inj_left' (List.cons_eq_cons.1 cut).2 rfl
    rw [← inside]
    exact List.mem_append_right _ List.mem_cons_self

/-- A part with which a text does not begin stands behind a separator, and before one or at the
end. -/
theorem mem_pieces_iff_of_not_prefix
    {text part : List Char}
    (absent : separator ∉ part)
    (notFirst : ¬part <+: text) :
    part ∈ pieces separator text
      ↔ separator :: (part ++ [separator]) <:+: text ∨ separator :: part <:+ text := by
  have notFront : ¬separator :: (part ++ [separator]) <+: separator :: (text ++ [separator]) := by
    intro front
    have begins := (List.cons_prefix_cons.1 front).2
    rcases List.prefix_concat_iff.1 begins with same | inside
    · exact notFirst (List.append_inj_left' same rfl ▸ List.prefix_rfl)
    · exact notFirst ((List.prefix_append part [separator]).trans inside)
  have ending : separator :: (part ++ [separator]) <:+ text ++ [separator]
      ↔ separator :: part <:+ text := by
    rw [← List.cons_append, List.suffix_append_inj_of_length_eq rfl]
    exact and_iff_left rfl
  rw [mem_pieces_iff, and_iff_right absent, List.infix_cons_iff, or_iff_right notFront,
    List.infix_concat_iff, ending, or_comm]

/-- A text that ends in a character can only stand before others that lack it. -/
theorem infix_of_infix_append
    {c : Char}
    {right : List Char}
    (pattern left : List Char)
    (absent : c ∉ right) :
    pattern ++ [c] <:+: left ++ right ↔ pattern ++ [c] <:+: left := by
  refine ⟨fun inside => ?_, fun inside => inside.trans (List.prefix_append left right).isInfix⟩
  rcases List.infix_append_iff.1 inside with inLeft | inRight | ⟨front, rest, split, isSuffix, isPrefix⟩
  · exact inLeft
  · exact absurd (inRight.subset (by simp)) absent
  · rcases List.eq_nil_or_concat' rest with rfl | ⟨start, last, rfl⟩
    · rw [split, List.append_nil]
      exact isSuffix.isInfix
    · rw [← List.append_assoc] at split
      obtain rfl : c = last := by simpa using (List.append_inj' split rfl).2
      exact absurd (isPrefix.subset (by simp)) absent

/-- A text that cannot be cut has no separator. -/
theorem not_mem_of_cutLast?
    {text : List Char}
    (uncut : cutLast? separator text = none) :
    separator ∉ text := by
  induction text with
  | nil => exact List.not_mem_nil
  | cons c rest ih =>
      rw [cutLast?] at uncut
      split at uncut
      · exact absurd uncut (by simp)
      · next later =>
          split at uncut
          · exact absurd uncut (by simp)
          · next differs =>
              rw [List.mem_cons, not_or]
              exact ⟨Ne.symm differs, ih later⟩

/-- Where a character is replaced, it does not occur any more. -/
theorem not_mem_replaceChar
    {old new : Char}
    (differ : old ≠ new)
    (text : List Char) :
    old ∉ replaceChar old new text := by
  intro inside
  obtain ⟨c, -, same⟩ := List.mem_map.1 inside
  split at same
  · exact differ same.symm
  · next kept => exact kept same

/-- A replacement is undone where the new character did not occur before. -/
theorem replaceChar_replaceChar
    {old new : Char}
    {text : List Char}
    (absent : new ∉ text) :
    replaceChar new old (replaceChar old new text) = text := by
  rw [replaceChar, replaceChar, List.map_map]
  refine (List.map_congr_left fun c isChar => ?_).trans (List.map_id text)
  have differs : c ≠ new := fun same => absent (same ▸ isChar)
  by_cases here : c = old
  · simp [here]
  · simp [here, differs]

/-- What stands behind a label is found again. -/
theorem afterLead?_append (lead rest : List Char) :
    afterLead? lead (lead ++ rest) = some rest := by
  induction lead with
  | nil => rfl
  | cons c lead ih => simpa [afterLead?] using ih

/-- What is found stands behind the label. -/
theorem eq_of_afterLead?
    {lead text rest : List Char}
    (found : afterLead? lead text = some rest) :
    text = lead ++ rest := by
  induction lead generalizing text with
  | nil => simpa [afterLead?] using found
  | cons c lead ih =>
      cases text with
      | nil => simp [afterLead?] at found
      | cons d others =>
          rw [afterLead?] at found
          split at found
          · next same => rw [same, ih found, List.cons_append]
          · cases found

end Text
end AssemblyAtlas
