import AssemblyAtlas.Assembly.Token
import Mathlib.Data.List.Nodup
import Mathlib.Data.List.Perm.Basic

/-!
# Rows that are handed out

Tokens tell the rows of a table apart as long as these fit. Rows that are handed out in turn, to
whichever element of a list asks for one, are all rows up to the next.

* `Token.ofRow_inj` and `Token.isTypeDefinition_iff` are about single tokens;
* `Appends` is what one element gets, and `HandedOut` what all of them have got.
-/

namespace AssemblyAtlas
namespace Assembly

/-! ## Tokens of rows -/

namespace Token

theorem toNat_ofRow
    (table : Table)
    (row : Nat) :
    (ofRow table row).value.toNat = table.number * rowLimit + row % rowLimit := by
  have small : table.number ≤ 0x17 := by
    cases table <;> decide
  have below : row % rowLimit < rowLimit := Nat.mod_lt row (by decide)
  have fits : table.number * rowLimit + row % rowLimit < 2 ^ 32 := by
    simp only [rowLimit] at below ⊢
    omega
  exact UInt32.toNat_ofNat_of_lt' fits

/-- Tokens tell the rows of a table apart that fit into them. -/
theorem ofRow_inj
    {table : Table}
    {left right : Nat}
    (left_fits : left < rowLimit)
    (right_fits : right < rowLimit)
    (same : ofRow table left = ofRow table right) :
    left = right := by
  have values := congrArg (·.value.toNat) same
  simp only [toNat_ofRow, Nat.mod_eq_of_lt left_fits, Nat.mod_eq_of_lt right_fits] at values
  omega

/-- The tokens of type definitions are those of the rows from one on. -/
theorem isTypeDefinition_iff
    {token : Token} :
    token.isTypeDefinition = true
      ↔ token.row ≠ 0 ∧ token = ofRow .typeDefinition token.row := by
  simp only [isTypeDefinition, isIn, isNil, Bool.and_eq_true, beq_iff_eq, Bool.not_eq_true',
    beq_eq_false_iff_ne]
  rw [and_comm]
  refine and_congr_right fun _ => ?_
  have split : token.table * rowLimit + token.row = token.value.toNat := by
    rw [Nat.mul_comm]
    exact Nat.div_add_mod _ _
  have below : token.row < rowLimit := Nat.mod_lt _ (by decide)
  constructor
  · intro table
    have value : token.value = (ofRow .typeDefinition token.row).value := by
      rw [← UInt32.toNat_inj, toNat_ofRow, Nat.mod_eq_of_lt below, ← split, table]
    cases token
    exact congrArg Token.mk value
  · intro whole
    have value := congrArg (·.value.toNat) whole
    simp only [toNat_ofRow, Nat.mod_eq_of_lt below] at value
    simp only [rowLimit] at split value below ⊢
    omega

/-- A token of a row is in the table of the row. -/
@[simp] theorem isIn_ofRow
    (table known : Table)
    (row : Nat) :
    (ofRow table row).isIn known = decide (table = known) := by
  have below : row % rowLimit < rowLimit := Nat.mod_lt row (by decide)
  rw [isIn, Token.table, toNat_ofRow, Nat.mul_comm, Nat.mul_add_div (by decide),
    Nat.div_eq_of_lt below, Nat.add_zero]
  cases table <;> cases known <;> rfl

end Token

/-! ## Elements that change -/

/-- A list around an element, and what a new one in its place makes of it. -/
theorem exists_set_eq
    {α : Type}
    {elements : List α}
    {place : Nat}
    {old : α}
    (known : elements[place]? = some old) :
    ∃ front back, elements = front ++ old :: back
      ∧ ∀ new, elements.set place new = front ++ new :: back := by
  obtain ⟨inside, rfl⟩ := List.getElem?_eq_some_iff.1 known
  refine ⟨elements.take place, elements.drop (place + 1), ?_, fun new => ?_⟩
  · rw [List.getElem_cons_drop, List.take_append_drop]
  · exact List.set_eq_take_cons_drop new inside

/-- A new element that agrees with the old one in a part changes nothing there. -/
theorem map_set_eq
    {α β : Type}
    {elements : List α}
    {place : Nat}
    {old new : α}
    {part : α → β}
    (known : elements[place]? = some old)
    (same : part new = part old) :
    (elements.set place new).map part = elements.map part := by
  obtain ⟨front, back, rfl, changed⟩ := exists_set_eq known
  simp only [changed, List.map_append, List.map_cons, same]

/-! ## Rows that are handed out in turn -/

/-- The tokens of some rows of a table, one after the other. -/
def tokensFrom (table : Table) (first count : Nat) : List Token :=
  (List.range' first count).map (Token.ofRow table)

/-- The later tokens are the earlier ones and those of the rows from the first to the next. -/
def Appends (table : Table) (first next : Nat) (before after : List Token) : Prop :=
  ∃ count, next = first + count ∧ after = before ++ tokensFrom table first count

namespace Appends

variable {table : Table} {first middle next : Nat} {before between after : List Token}

theorem refl
    (table : Table)
    (first : Nat)
    (tokens : List Token) :
    Appends table first first tokens tokens :=
  ⟨0, rfl, (List.append_nil tokens).symm⟩

/-- One more token is that of the next row. -/
theorem one
    (table : Table)
    (first : Nat)
    (tokens : List Token) :
    Appends table first (first + 1) tokens (tokens ++ [.ofRow table first]) :=
  ⟨1, rfl, rfl⟩

theorem trans
    (earlier : Appends table first middle before between)
    (later : Appends table middle next between after) :
    Appends table first next before after := by
  obtain ⟨count, rfl, rfl⟩ := earlier
  obtain ⟨more, rfl, rfl⟩ := later
  refine ⟨count + more, by omega, ?_⟩
  rw [tokensFrom, tokensFrom, tokensFrom, List.append_assoc, ← List.map_append,
    List.range'_append_1]

/-- No token is lost. -/
theorem subset
    (appends : Appends table first next before after)
    {token : Token}
    (member : token ∈ before) :
    token ∈ after := by
  obtain ⟨count, -, rfl⟩ := appends
  exact List.mem_append_left _ member

end Appends

/-- The tokens are those of all rows up to the next one, in some order. -/
def HandedOut (table : Table) (next : Nat) (tokens : List Token) : Prop :=
  ∃ all, Appends table 1 next [] all ∧ tokens.Perm all

namespace HandedOut

variable {table : Table} {next later : Nat}

/-- Tokens are different if their rows fit. -/
theorem nodup
    {tokens : List Token}
    (handedOut : HandedOut table next tokens)
    (fit : next ≤ Token.rowLimit) :
    tokens.Nodup := by
  obtain ⟨_, ⟨count, rfl, rfl⟩, perm⟩ := handedOut
  rw [perm.nodup_iff, List.nil_append, tokensFrom]
  refine List.Nodup.map_on ?_ List.nodup_range'
  intro left isLeft right isRight same
  have left_fits := (List.mem_range'_1.1 isLeft).2
  have right_fits := (List.mem_range'_1.1 isRight).2
  exact Token.ofRow_inj (by omega) (by omega) same

/-- Each token is that of a row. -/
theorem exists_row
    {tokens : List Token}
    (handedOut : HandedOut table next tokens)
    {token : Token}
    (member : token ∈ tokens) :
    ∃ row, token = .ofRow table row := by
  obtain ⟨_, ⟨count, rfl, rfl⟩, perm⟩ := handedOut
  obtain ⟨row, -, rfl⟩ := List.mem_map.1 (perm.mem_iff.1 member)
  exact ⟨row, rfl⟩

/-- One of several lists gets the tokens of further rows. -/
theorem set
    {α : Type}
    {tokens : α → List Token}
    {elements : List α}
    {place : Nat}
    {old new : α}
    (handedOut : HandedOut table next (elements.flatMap tokens))
    (known : elements[place]? = some old)
    (appends : Appends table next later (tokens old) (tokens new)) :
    HandedOut table later ((elements.set place new).flatMap tokens) := by
  obtain ⟨all, from_one, perm⟩ := handedOut
  obtain ⟨count, rfl, more⟩ := appends
  refine ⟨all ++ tokensFrom table next count, from_one.trans ⟨count, rfl, rfl⟩, ?_⟩
  obtain ⟨front, back, rfl, changed⟩ := exists_set_eq known
  rw [changed, List.flatMap_append, List.flatMap_cons, more]
  rw [List.flatMap_append, List.flatMap_cons] at perm
  refine List.Perm.trans ?_ (perm.append_right _)
  simp only [List.append_assoc]
  exact (List.perm_append_comm.append_left _).append_left _

end HandedOut

end Assembly
end AssemblyAtlas
