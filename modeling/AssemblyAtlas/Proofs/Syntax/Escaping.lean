import AssemblyAtlas.Proofs.Syntax.Rewriting
import AssemblyAtlas.Proofs.Text.Joined

/-!
# Names that become identifiers

The transform that escapes names makes an identifier of each name that the printed file declares or
refers to, once, and part by part where the name of a named type is dotted. It leaves the rest of
the source file alone. A second time it would not leave the names alone, as an escaped keyword does
not stand for itself.
-/

namespace AssemblyAtlas
namespace Syntax

open Text

/-! ## Identifiers have no dot -/

/-- What a name is put together from may stand in an identifier. -/
theorem isIdentifierChar_of_mem_identifierChars
    {name : List Char}
    {c : Char}
    (member : c ∈ identifierChars name) :
    isIdentifierChar c := by
  have underscore : isIdentifierChar '_' := by decide +kernel
  have replaced : ∀ d ∈ name.map (fun c => if isIdentifierChar c then c else '_'),
      isIdentifierChar d := by
    intro d isReplaced
    obtain ⟨original, -, rfl⟩ := List.mem_map.1 isReplaced
    split
    · assumption
    · exact underscore
  rw [identifierChars] at member
  split at member
  · rw [List.mem_singleton.1 member]
    exact underscore
  · split at member
    · rcases List.mem_cons.1 member with rfl | behind
      · exact underscore
      · exact replaced c behind
    · exact replaced c member

/-- An identifier is one part of a dotted name. -/
theorem dot_not_mem_identifier (name : String) :
    '.' ∉ (identifier name).toList := by
  have plain : '.' ∉ identifierChars name.toList := by
    intro inside
    exact absurd (isIdentifierChar_of_mem_identifierChars inside) (by decide +kernel)
  rw [identifier]
  split
  · simpa using plain
  · simpa using plain

/-! ## The escaped tree -/

/-- Each name becomes the identifier that stands for it, and the name of a named type the dotted
name of the identifiers that stand for its parts. Attributes stay as they are. -/
def escaping : Rewriting where
  identifier old new := new = identifier old
  typeName old new :=
    pieces '.' new.toList
      = (pieces '.' old.toList).map fun part => (identifier (String.ofList part)).toList
  marks old new := new = old

/-- The parts of an escaped dotted name are the escaped parts. -/
theorem pieces_dottedIdentifier (name : String) :
    pieces '.' (dottedIdentifier name).toList
      = (pieces '.' name.toList).map fun part => (identifier (String.ofList part)).toList := by
  rw [dottedIdentifier, String.toList_ofList]
  apply pieces_join
  · simpa using pieces_ne_nil '.' name.toList
  · intro part isPart
    obtain ⟨original, -, rfl⟩ := List.mem_map.1 isPart
    exact dot_not_mem_identifier _

theorem escaping_madeBy_escapeEdit : escaping.MadeBy escapeEdit where
  identifier _ _ := Iff.rfl
  typeName old new := by
    constructor
    · intro sameParts
      apply String.toList_injective
      calc new.toList
          = join ['.'] (pieces '.' new.toList) := (join_pieces '.' _).symm
        _ = join ['.'] (pieces '.' (dottedIdentifier old).toList) := by
          rw [sameParts, pieces_dottedIdentifier]
        _ = (dottedIdentifier old).toList := join_pieces '.' _
    · rintro rfl
      exact pieces_dottedIdentifier old
  marks _ _ := Iff.rfl

/-- The transform makes the one tree in which each name has become an identifier once and all else
is as before. -/
theorem SourceUnit.rewritesTo_escaping_iff (old new : SourceUnit) :
    old.RewritesTo escaping new ↔ new = Transform.escape.run old :=
  escaping_madeBy_escapeEdit.isGraph_unit old new

-- To escape a name twice is to change it further.
example : identifier (identifier "class") = "_class" := by decide +kernel

end Syntax
end AssemblyAtlas
