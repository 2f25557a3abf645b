import Cosmac.Text.Printable
import Cosmac.Text.Hex

/-!
# Quoted text

A text in quotes, as messages show a text that was found where something else was expected. The
quotes are single, or double if the text holds a single quote and no double one. The quote, the
backslash and what cannot be printed are escaped, the latter by the shortest of three numeric forms
unless it has a letter of its own.
-/

namespace Cosmac.Text

/-- The quote that needs the fewest escapes, a single one if in doubt. -/
def quoteFor (t : Text) : Char :=
  if t.any (· == CodePoint.ofChar '\'') && !t.any (· == CodePoint.ofChar '"') then '"' else '\''

/-- The numeric escape of a code point. -/
def numericEscape (n : Nat) : String :=
  if n < 0x100 then "\\x" ++ Hex.lower 2 n
  else if n < 0x10000 then "\\u" ++ Hex.lower 4 n
  else "\\U" ++ Hex.lower 8 n

/-- A code point between quotes. -/
def escape (quote : Char) (p : CodePoint) : Text :=
  if p = CodePoint.ofChar quote ∨ p = CodePoint.ofChar '\\' then [CodePoint.ofChar '\\', p]
  else if p = CodePoint.ofChar '\t' then "\\t"
  else if p = CodePoint.ofChar '\n' then "\\n"
  else if p = CodePoint.ofChar '\r' then "\\r"
  else if isPrintable p then [p]
  else numericEscape p.val

/-- The text between quotes. -/
def quoted (t : Text) : Text :=
  let quote := quoteFor t
  CodePoint.ofChar quote :: t.flatMap (escape quote) ++ [CodePoint.ofChar quote]

end Cosmac.Text
