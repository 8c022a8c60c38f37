import AssemblyAtlas.Assembly.Attribute
import AssemblyAtlas.Text.CharClass
import AssemblyAtlas.Text.Shortest
import AssemblyAtlas.Text.Split

/-!
# Literals

Constant values as C# writes them.

* `escapeChar` writes a character of a literal, and `quoted` a whole text between quotes;
* `literal` writes any constant.
-/

namespace AssemblyAtlas
namespace Syntax

open Assembly
open Text

/-- A character inside quotes. The backslash, the quote and the control characters are escaped. -/
def escapeChar (quote c : Char) : List Char :=
  if c = '\\' then
    ['\\', '\\']
  else if c = '\n' then
    ['\\', 'n']
  else if c = '\r' then
    ['\\', 'r']
  else if c = '\t' then
    ['\\', 't']
  else if c = '\x00' then
    ['\\', '0']
  else if c = quote then
    ['\\', c]
  else if isControl c then
    '\\' :: 'u' :: hexFixed 4 c.toNat
  else
    [c]

/-- Characters between quotes. -/
def quoted (quote : Char) (text : List Char) : List Char :=
  quote :: text.flatMap (escapeChar quote) ++ [quote]

/-- The text of an integer. -/
def integerText (value : Int) : List Char :=
  if value < 0 then
    '-' :: decimal value.natAbs
  else
    decimal value.natAbs

/-- The text of a number in double precision. -/
def floatText (bits : UInt64) : List Char :=
  match Double.ofBits bits with
  | .notANumber => "double.NaN".toList
  | .infinite false => "double.PositiveInfinity".toList
  | .infinite true => "double.NegativeInfinity".toList
  | .finite negative significand exponent leastOfBinade =>
      Double.finiteText negative significand exponent leastOfBinade

/-- What stands before the elements of an array. -/
def arrayStart : List Char :=
  "new[] \x7b ".toList

/-- What stands after the elements of an array. -/
def arrayEnd : List Char :=
  " \x7d".toList

mutual

/-- The text of a constant. A type has no literal of its own. -/
def literal : Constant → List Char
  | .bool value => if value then "true".toList else "false".toList
  | .char value => quoted '\'' [value]
  | .int value => integerText value
  | .natural value => decimal value
  | .float bits => floatText bits
  | .string value => quoted '"' value.toList
  | .null => "null".toList
  | .type _ => "null".toList
  | .array elements => arrayStart ++ join ", ".toList (literals elements) ++ arrayEnd

/-- The texts of constants. -/
def literals : List Constant → List (List Char)
  | [] => []
  | value :: rest => literal value :: literals rest

end

end Syntax
end AssemblyAtlas
