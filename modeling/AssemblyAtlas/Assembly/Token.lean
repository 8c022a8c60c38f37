import AssemblyAtlas.Text.Numeral

/-!
# Metadata tokens

A token is a 32-bit reference into the tables of a module: the high byte selects the table, the
low 24 bits the row, counted from one. Row zero stands for no row.
-/

namespace AssemblyAtlas
namespace Assembly

open Text

/-- A reference to a row of a metadata table. -/
structure Token where
  value : UInt32
deriving DecidableEq

/-- The tables whose rows this library refers to. -/
inductive Table where
  | typeDefinition
  | field
  | method
  | event
  | property
deriving DecidableEq

/-- The number of a table in the high byte of its tokens. -/
def Table.number : Table → Nat
  | typeDefinition => 0x02
  | field => 0x04
  | method => 0x06
  | event => 0x14
  | property => 0x17

namespace Token

/-- Rows beyond this number do not fit into a token. -/
def rowLimit : Nat :=
  0x1000000

/-- The token of a row of a table; only the low 24 bits of the row count. -/
def ofParts (table row : Nat) : Token :=
  ⟨UInt32.ofNat (table * rowLimit + row % rowLimit)⟩

/-- The token of a row of one of the known tables. -/
def ofRow (table : Table) (row : Nat) : Token :=
  ofParts table.number row

/-- The number of the table that the token refers to. -/
def table (token : Token) : Nat :=
  token.value.toNat / rowLimit

/-- The row that the token refers to. -/
def row (token : Token) : Nat :=
  token.value.toNat % rowLimit

/-- The token refers to no row. -/
def isNil (token : Token) : Bool :=
  token.row == 0

/-- The token refers to a row of the known table. -/
def isIn (token : Token) (known : Table) : Bool :=
  token.table == known.number

/-- The token refers to a type definition. -/
def isTypeDefinition (token : Token) : Bool :=
  token.isIn .typeDefinition && !token.isNil

/-- The token in hexadecimal. -/
def display (token : Token) : String :=
  String.ofList ("0x".toList ++ hexFixed 8 token.value.toNat)

/-- The token with its two parts spelled out. -/
def describe (token : Token) : String :=
  "Token(" ++ token.display ++ ", table: 0x" ++ String.ofList (hexFixed 2 token.table)
    ++ ", row: " ++ String.ofList (decimal token.row) ++ ")"

/-- Tokens are ordered by their values. -/
instance : LT Token :=
  ⟨fun left right => left.value < right.value⟩

instance : LE Token :=
  ⟨fun left right => left.value ≤ right.value⟩

instance : DecidableLT Token :=
  fun left right => inferInstanceAs (Decidable (left.value < right.value))

instance : DecidableLE Token :=
  fun left right => inferInstanceAs (Decidable (left.value ≤ right.value))

end Token

end Assembly
end AssemblyAtlas
