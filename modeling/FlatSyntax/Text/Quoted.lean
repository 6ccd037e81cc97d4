import FlatSyntax.Text.Hex
import FlatSyntax.Text.Printable

/-!
The quoted form in which messages and listings show a text. It is a single line of printable
characters between two quotes: the quote in use, the backslash and every character without a printed
form are escaped, all other characters stand for themselves.
-/

namespace FlatSyntax.Text

/-- The quote that encloses a text: the single one, unless the text holds a single quote and no
double one. -/
def enclosingQuote (text : List Char) : Char :=
  if text.contains '\'' && !text.contains '"' then '"' else '\''

/-- One character between quotes. An escape by number has the least of the widths two, four and
eight that the code point fits in. -/
def quotedChar (quote c : Char) : List Char :=
  if c == quote || c == '\\' then ['\\', c]
  else if c == '\n' then ['\\', 'n']
  else if c == '\r' then ['\\', 'r']
  else if c == '\t' then ['\\', 't']
  else if isPrintable c then [c]
  else if c.toNat < 0x100 then '\\' :: 'x' :: Hex.fixed 2 c.toNat
  else if c.toNat < 0x10000 then '\\' :: 'u' :: Hex.fixed 4 c.toNat
  else '\\' :: 'U' :: Hex.fixed 8 c.toNat

/-- The quoted form of a text as characters. -/
def quotedChars (text : List Char) : List Char :=
  let quote := enclosingQuote text
  quote :: text.flatMap (quotedChar quote) ++ [quote]

def quoted (text : String) : String :=
  String.ofList (quotedChars text.toList)

end FlatSyntax.Text
