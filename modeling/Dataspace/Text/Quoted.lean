import Dataspace.Text.Charset
import Dataspace.Text.Printable

/-!
# Quoted texts

A text as it stands inside a message: in single quotes, or in double quotes if it holds a single
quote and no double one. The enclosing quote and the backslash are escaped by a backslash, line
feed, carriage return and tab by their letters, every other character without a visible form by
its number.
-/

namespace Dataspace.Text

/-- The quote that encloses a text. -/
def enclosingQuote (s : List Char) : Char :=
  if s.contains '\'' && !s.contains '"' then '"' else '\''

/-- One character inside quotes of the given kind. -/
def quotedChar (quote c : Char) : List Char :=
  if c = quote || c = '\\' then ['\\', c]
  else if c = '\n' then ['\\', 'n']
  else if c = '\r' then ['\\', 'r']
  else if c = '\t' then ['\\', 't']
  else if isPrintable c then [c]
  else numericEscape c.toNat

def quoted (s : String) : String :=
  let quote := enclosingQuote s.toList
  String.ofList (quote :: s.toList.flatMap (quotedChar quote) ++ [quote])

end Dataspace.Text
