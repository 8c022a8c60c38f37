import AssemblyAtlas.Assembly.Definition

/-!
# Tables of type definitions

A type table holds type definitions by their tokens, in the order of the tokens.

* `TypeTable.find?` and `TypeTable.insert` read and extend a table;
* the order of the entries is part of the type, so no token has two definitions.
-/

namespace AssemblyAtlas
namespace Assembly

/-- Type definitions in the order of their tokens. Each is found by its own token. That the
definitions of a module are keyed so is documented of modules; here it holds by the form of the
type. -/
structure TypeTable where
  entries : List TypeDefinition
  increasing : entries.Pairwise (·.token.value < ·.token.value)

namespace TypeTable

/-- The table without entries. -/
def empty : TypeTable :=
  ⟨[], List.Pairwise.nil⟩

/-- The definition with a token. -/
def find? (table : TypeTable) (token : Token) : Option TypeDefinition :=
  table.entries.find? (·.token = token)

/-- The number of definitions. -/
def size (table : TypeTable) : Nat :=
  table.entries.length

/-- Puts a definition into its place among increasing entries, over one with the same token. -/
def place (type : TypeDefinition) : List TypeDefinition → List TypeDefinition
  | [] => [type]
  | entry :: rest =>
      if type.token.value < entry.token.value then
        type :: entry :: rest
      else if type.token.value = entry.token.value then
        type :: rest
      else
        entry :: place type rest

/-- Placing a definition adds nothing else. -/
theorem mem_place
    {type entry : TypeDefinition}
    {entries : List TypeDefinition}
    (member : entry ∈ place type entries) :
    entry = type ∨ entry ∈ entries := by
  induction entries with
  | nil => simpa [place] using member
  | cons head rest ih =>
      rw [place] at member
      split at member
      · simpa using member
      · split at member
        · rcases List.mem_cons.1 member with same | later
          · exact Or.inl same
          · exact Or.inr (List.mem_cons_of_mem head later)
        · rcases List.mem_cons.1 member with same | later
          · exact Or.inr (by simp [same])
          · rcases ih later with same | inside
            · exact Or.inl same
            · exact Or.inr (List.mem_cons_of_mem head inside)

/-- Placing a definition keeps the entries increasing. -/
theorem increasing_place
    (type : TypeDefinition)
    {entries : List TypeDefinition}
    (increasing : entries.Pairwise (·.token.value < ·.token.value)) :
    (place type entries).Pairwise (·.token.value < ·.token.value) := by
  induction entries with
  | nil => simp [place]
  | cons head rest ih =>
      have above : ∀ entry ∈ rest, head.token.value < entry.token.value :=
        fun _ member => List.rel_of_pairwise_cons increasing member
      have later := List.Pairwise.of_cons increasing
      rw [place]
      split
      · next low =>
          refine List.Pairwise.cons ?_ increasing
          intro entry member
          rcases List.mem_cons.1 member with same | inside
          · simpa [same] using low
          · exact UInt32.lt_trans low (above entry inside)
      · split
        · next same =>
            refine List.Pairwise.cons ?_ later
            intro entry member
            rw [same]
            exact above entry member
        · next notBelow notSame =>
            refine List.Pairwise.cons ?_ (ih later)
            intro entry member
            rcases mem_place member with same | inside
            · rw [same]
              exact UInt32.lt_of_le_of_ne (UInt32.not_lt.1 notBelow) (Ne.symm notSame)
            · exact above entry inside

/-- Adds a definition, over one with the same token. -/
def insert (table : TypeTable) (type : TypeDefinition) : TypeTable :=
  ⟨place type table.entries, increasing_place type table.increasing⟩

/-- The table of the given definitions; of two with one token the later one stays. -/
def ofList (types : List TypeDefinition) : TypeTable :=
  types.foldl insert empty

end TypeTable

end Assembly
end AssemblyAtlas
