import AssemblyAtlas.Text.CharClass
import AssemblyAtlas.Text.Lowercase

/-!
# Comparing texts without regard to case

Two texts are the same but for the case of ASCII letters if they have the same folded text, so this
is an equivalence. It is finer than the equality of lowercase forms: a folded text has the lowercase
form of the text itself, since no rule for lowercase tells the two cases of an ASCII letter apart.

* `eq_toLower` is how a fact about all characters follows from the capital ASCII letters;
* `lowercase_eq_of_sameIgnoringCase` compares the two relations;
* `lowercase_append_slash` says that no rule for lowercase looks behind a slash.
-/

namespace AssemblyAtlas
namespace Text

theorem sameIgnoringCase_iff
    {left right : String} :
    sameIgnoringCase left right = true ↔ foldCase left = foldCase right := by
  rw [sameIgnoringCase, beq_iff_eq]

theorem sameIgnoringCase_refl
    (text : String) :
    sameIgnoringCase text text = true :=
  sameIgnoringCase_iff.2 rfl

theorem sameIgnoringCase_symm
    {left right : String}
    (h : sameIgnoringCase left right = true) :
    sameIgnoringCase right left = true :=
  sameIgnoringCase_iff.2 (sameIgnoringCase_iff.1 h).symm

theorem sameIgnoringCase_trans
    {left middle right : String}
    (hleft : sameIgnoringCase left middle = true)
    (hright : sameIgnoringCase middle right = true) :
    sameIgnoringCase left right = true :=
  sameIgnoringCase_iff.2
    ((sameIgnoringCase_iff.1 hleft).trans (sameIgnoringCase_iff.1 hright))

/-! ## Lowercase forms -/

/-- What is the same for a capital ASCII letter and its small form is the same for any character and
its small form. -/
theorem eq_toLower
    {α : Type}
    (value : Char → α)
    (capitals : ∀ code < 91, 65 ≤ code → value (Char.ofNat code).toLower = value (Char.ofNat code))
    (c : Char) :
    value c.toLower = value c := by
  by_cases capital : 65 ≤ c.toNat ∧ c.toNat < 91
  · have same := capitals c.toNat capital.2 capital.1
    rwa [Char.ofNat_toNat] at same
  · have small : c.toLower = c := by
      refine dif_neg ?_
      rintro ⟨low, high⟩
      have above : 65 ≤ c.toNat := UInt32.le_iff_toNat_le.1 low
      have below : c.toNat ≤ 90 := UInt32.le_iff_toNat_le.1 high
      omega
    rw [small]

theorem lowercaseChar_toLower (c : Char) :
    lowercaseChar c.toLower = lowercaseChar c :=
  eq_toLower lowercaseChar (by decide) c

theorem contains_cased_toLower (c : Char) :
    casedRanges.contains c.toLower.toNat = casedRanges.contains c.toNat :=
  eq_toLower (fun c => casedRanges.contains c.toNat) (by decide) c

theorem contains_caseIgnorable_toLower (c : Char) :
    caseIgnorableRanges.contains c.toLower.toNat = caseIgnorableRanges.contains c.toNat :=
  eq_toLower (fun c => caseIgnorableRanges.contains c.toNat) (by decide) c

theorem isSigma_toLower (c : Char) :
    decide (c.toLower.toNat = 0x3a3) = decide (c.toNat = 0x3a3) :=
  eq_toLower (fun c => decide (c.toNat = 0x3a3)) (by decide) c

theorem nextIsCased_toLower (chars : List Char) :
    nextIsCased (chars.map Char.toLower) = nextIsCased chars := by
  induction chars with
  | nil => rfl
  | cons c rest ih =>
      have same := contains_caseIgnorable_toLower c
      by_cases ignorable : caseIgnorableRanges.contains c.toNat = true
      · simp only [nextIsCased, List.map_cons, List.dropWhile_cons, same, ignorable,
          ↓reduceIte]
        exact ih
      · simp only [nextIsCased, List.map_cons, List.dropWhile_cons, same, ignorable,
          Bool.false_eq_true, ↓reduceIte]
        exact contains_cased_toLower c

theorem lowercaseAfter_toLower
    (before text : List Char) :
    lowercaseAfter (before.map Char.toLower) (text.map Char.toLower)
      = lowercaseAfter before text := by
  induction text generalizing before with
  | nil => rfl
  | cons c rest ih =>
      have later := ih (c :: before)
      have sigma : c.toLower.toNat = 0x3a3 ↔ c.toNat = 0x3a3 :=
        decide_eq_decide.1 (isSigma_toLower c)
      rw [List.map_cons] at later
      rw [List.map_cons, lowercaseAfter, lowercaseAfter, later, nextIsCased_toLower,
        nextIsCased_toLower, lowercaseChar_toLower]
      simp only [sigma]

/-- Texts that differ in the case of ASCII letters only have the same lowercase form. -/
theorem lowercase_eq_of_sameIgnoringCase
    {left right : String}
    (same : sameIgnoringCase left right = true) :
    lowercase left = lowercase right := by
  have folded := sameIgnoringCase_iff.1 same
  have small (text : String) :
      lowercase text = String.ofList (lowercaseAfter [] (foldCase text)) := by
    rw [lowercase, foldCase, ← lowercaseAfter_toLower [] text.toList]
    rfl
  rw [small, small, folded]

/-- A slash is no neighbour with a case, and hides those behind it. -/
theorem nextIsCased_append_slash
    (front behind : List Char) :
    nextIsCased (front ++ '/' :: behind) = nextIsCased front := by
  induction front with
  | nil =>
      have slash : caseIgnorableRanges.contains '/'.toNat = false
          ∧ casedRanges.contains '/'.toNat = false := by
        decide +kernel
      rw [nextIsCased, List.nil_append, List.dropWhile_cons_of_neg (by rw [slash.1]; decide)]
      exact slash.2
  | cons c rest ih =>
      by_cases ignorable : caseIgnorableRanges.contains c.toNat = true
      · simp only [nextIsCased, List.cons_append, List.dropWhile_cons, ignorable, ↓reduceIte]
        exact ih
      · simp only [nextIsCased, List.cons_append, List.dropWhile_cons, ignorable,
          Bool.false_eq_true, ↓reduceIte]

/-- Only at a sigma does the context count. -/
theorem lowercaseAfter_cons
    {c : Char}
    (notSigma : c.toNat ≠ 0x3a3)
    (before rest : List Char) :
    lowercaseAfter before (c :: rest) = lowercaseChar c ++ lowercaseAfter (c :: before) rest := by
  simp only [lowercaseAfter, if_neg notSigma]

theorem lowercaseAfter_append_slash
    (front behind text : List Char) :
    lowercaseAfter (front ++ '/' :: behind) text = lowercaseAfter front text := by
  induction text generalizing front with
  | nil => rfl
  | cons c rest ih =>
      have later := ih (c :: front)
      rw [List.cons_append] at later
      rw [lowercaseAfter, lowercaseAfter, later, nextIsCased_append_slash]

/-- The texts on the two sides of a slash have lowercase forms of their own. -/
theorem lowercase_append_slash
    (left right : String) :
    lowercase (left ++ "/" ++ right) = lowercase left ++ "/" ++ lowercase right := by
  have slash : lowercaseChar '/' = ['/'] := by decide +kernel
  have apart (before : List Char) (text : List Char) :
      lowercaseAfter before (text ++ '/' :: right.toList)
        = lowercaseAfter before text ++ '/' :: lowercaseAfter [] right.toList := by
    induction text generalizing before with
    | nil =>
        have hidden := lowercaseAfter_append_slash [] before right.toList
        rw [List.nil_append] at hidden
        rw [List.nil_append, lowercaseAfter_cons (by decide), slash, hidden]
        rfl
    | cons c rest ih =>
        rw [List.cons_append, lowercaseAfter, lowercaseAfter, ih, nextIsCased_append_slash,
          List.append_assoc]
  have chars : (left ++ "/" ++ right).toList = left.toList ++ '/' :: right.toList := by
    simp
  rw [lowercase, chars, apart, lowercase, lowercase, ← String.toList_inj]
  simp

/-- A small letter at the end of a text is at the end of its lowercase form. -/
theorem getLast?_lowercase
    {text : String}
    {c : Char}
    (last : text.toList.getLast? = some c)
    (small : lowercaseChar c = [c])
    (notSigma : c.toNat ≠ 0x3a3) :
    (lowercase text).toList.getLast? = some c := by
  have ends (before front : List Char) :
      ∃ start, lowercaseAfter before (front ++ [c]) = start ++ [c] := by
    induction front generalizing before with
    | nil =>
        refine ⟨[], ?_⟩
        rw [List.nil_append, lowercaseAfter_cons notSigma, small]
        rfl
    | cons first rest ih =>
        obtain ⟨start, split⟩ := ih (first :: before)
        rw [List.cons_append, lowercaseAfter, split]
        exact ⟨_, (List.append_assoc _ start [c]).symm⟩
  obtain ⟨front, split⟩ := List.getLast?_eq_some_iff.1 last
  obtain ⟨start, chars⟩ := ends [] front
  rw [lowercase, split, chars, String.toList_ofList, List.getLast?_concat]

/-- A text whose characters have no other lowercase form is its own lowercase form. -/
theorem lowercase_eq_self
    {text : String}
    (small : ∀ c ∈ text.toList, lowercaseChar c = [c] ∧ c.toNat ≠ 0x3a3) :
    lowercase text = text := by
  have same (before : List Char) (chars : List Char)
      (small : ∀ c ∈ chars, lowercaseChar c = [c] ∧ c.toNat ≠ 0x3a3) :
      lowercaseAfter before chars = chars := by
    induction chars generalizing before with
    | nil => rfl
    | cons c rest ih =>
        obtain ⟨own, notSigma⟩ := small c List.mem_cons_self
        rw [lowercaseAfter_cons notSigma, own, ih _ fun other isOther =>
          small other (List.mem_cons_of_mem _ isOther)]
        rfl
  rw [lowercase, same [] text.toList small, String.ofList_toList]

end Text
end AssemblyAtlas
