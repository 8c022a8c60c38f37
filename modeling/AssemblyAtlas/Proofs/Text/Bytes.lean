import AssemblyAtlas.Text.CharClass
import AssemblyAtlas.Text.Split

/-!
# Bytes of texts

The bytes that a text takes in UTF-8 are those of its characters together, in whatever order they
come. Small and capital ASCII letters take one byte each.
-/

namespace AssemblyAtlas
namespace Text

theorem foldl_utf8Size
    (text : List Char)
    (total : Nat) :
    text.foldl (fun total c => total + c.utf8Size) total = total + utf8Length text := by
  induction text generalizing total with
  | nil => rfl
  | cons c rest ih => rw [utf8Length, List.foldl_cons, List.foldl_cons, ih, ih, Nat.zero_add,
      Nat.add_assoc]

@[simp] theorem utf8Length_nil :
    utf8Length [] = 0 := rfl

@[simp] theorem utf8Length_cons
    (c : Char)
    (rest : List Char) :
    utf8Length (c :: rest) = c.utf8Size + utf8Length rest := by
  rw [utf8Length, List.foldl_cons, foldl_utf8Size, Nat.zero_add]

@[simp] theorem utf8Length_append
    (left right : List Char) :
    utf8Length (left ++ right) = utf8Length left + utf8Length right := by
  rw [utf8Length, List.foldl_append, foldl_utf8Size]
  rfl

@[simp] theorem utf8Length_reverse (text : List Char) :
    utf8Length text.reverse = utf8Length text := by
  induction text with
  | nil => rfl
  | cons c rest ih =>
      rw [List.reverse_cons, utf8Length_append, ih, utf8Length_cons, utf8Length_cons,
        utf8Length_nil, Nat.add_zero, Nat.add_comm]

/-- Characters of the same size can be put in the place of others. -/
theorem utf8Length_map
    {change : Char → Char}
    (same : ∀ c, (change c).utf8Size = c.utf8Size)
    (text : List Char) :
    utf8Length (text.map change) = utf8Length text := by
  induction text with
  | nil => rfl
  | cons c rest ih => rw [List.map_cons, utf8Length_cons, utf8Length_cons, same, ih]

/-- A text of single bytes has as many as characters. -/
theorem utf8Length_eq_length
    {text : List Char}
    (single : ∀ c ∈ text, c.utf8Size = 1) :
    utf8Length text = text.length := by
  induction text with
  | nil => rfl
  | cons c rest ih =>
      rw [utf8Length_cons, single c List.mem_cons_self,
        ih fun d isIn => single d (List.mem_cons_of_mem c isIn), List.length_cons, Nat.add_comm]

/-- The bytes of a string are those of its characters. -/
theorem utf8ByteSize_ofList (text : List Char) :
    (String.ofList text).utf8ByteSize = utf8Length text := by
  induction text with
  | nil => rfl
  | cons c rest ih =>
      rw [String.ofList_cons, String.utf8ByteSize_append, String.utf8ByteSize_singleton, ih,
        utf8Length_cons]

end Text
end AssemblyAtlas
