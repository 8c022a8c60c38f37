import AssemblyAtlas.Text.Numeral

/-!
# Logs

The lines in which a resolver tells what it tries.

* `Traced` is a value with the lines that were written for it;
* `Log` collects lines.
-/

namespace AssemblyAtlas
namespace Reference

open Text

/-- The line of a warning. -/
def warning (text : String) : String :=
  "WARN: " ++ text

/-- A value with the lines that were written for it. -/
structure Traced (α : Type) where
  value : α
  lines : List String

namespace Traced

/-- Goes on from a value, and keeps the lines written before. -/
def andThen {α β : Type} (first : Traced α) (next : α → Traced β) : Traced β :=
  let second := next first.value
  ⟨second.value, first.lines ++ second.lines⟩

/-- Writes lines before those of a value. -/
def after {α : Type} (lines : List String) (traced : Traced α) : Traced α :=
  ⟨traced.value, lines ++ traced.lines⟩

end Traced

/-- Lines in the order in which they were written. -/
structure Log where
  lines : List String
deriving DecidableEq

namespace Log

/-- No line. -/
def empty : Log :=
  ⟨[]⟩

/-- Writes further lines. -/
def append (log : Log) (lines : List String) : Log :=
  ⟨log.lines ++ lines⟩

/-- All lines, each with its end. -/
def text (log : Log) : String :=
  String.join (log.lines.map (· ++ "\n"))

/-- The line that describes a log. -/
def describe (log : Log) : String :=
  "ResolverLog \x7b lines: " ++ String.ofList (decimal log.lines.length) ++ " \x7d"

end Log

end Reference
end AssemblyAtlas
