/-!
# Sets of code points

A Unicode property is stored as the increasing list of its maximal runs of code points.

* `CodeRanges.contains` decides membership and stops at the first run above the code point;
* `CodeRanges.contains_iff` says that on increasing runs this is membership in one of them.
-/

namespace AssemblyAtlas
namespace Text

/-- Runs of code points, each given by its first and its last member. -/
abbrev CodeRanges :=
  List (Nat × Nat)

namespace CodeRanges

/-- Membership of a code point; the runs have to be increasing. -/
def contains : CodeRanges → Nat → Bool
  | [], _ => false
  | (first, last) :: rest, code =>
      if code < first then
        false
      else if code ≤ last then
        true
      else
        contains rest code

/-- No run is empty, and each starts above the runs before it. -/
def Increasing : CodeRanges → Prop
  | [] => True
  | (first, last) :: rest =>
      first ≤ last ∧ (∀ range ∈ rest, last < range.1) ∧ Increasing rest

/-- On increasing runs, `contains` finds exactly the members of the runs. -/
theorem contains_iff
    {ranges : CodeRanges}
    (increasing : Increasing ranges)
    (code : Nat) :
    ranges.contains code = true
      ↔
    ∃ range ∈ ranges, range.1 ≤ code ∧ code ≤ range.2 := by
  induction ranges with
  | nil => simp [contains]
  | cons head rest ih =>
      obtain ⟨first, last⟩ := head
      obtain ⟨order, above, tail⟩ := increasing
      have later := ih tail
      by_cases low : code < first
      · simp only [contains, low, ↓reduceIte, Bool.false_eq_true, List.mem_cons, false_iff,
          not_exists, not_and]
        rintro range (rfl | member)
        · simp only
          omega
        · have gap := above range member
          omega
      · by_cases inside : code ≤ last
        · simp only [contains, low, inside, ↓reduceIte, true_iff]
          exact ⟨(first, last), by simp, by simp only; omega, inside⟩
        · simp only [contains, low, inside, ↓reduceIte, later, List.mem_cons, exists_eq_or_imp,
            and_false, false_or]

end CodeRanges

end Text
end AssemblyAtlas
