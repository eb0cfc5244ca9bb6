import RouteDocs.Text.Hex
import RouteDocs.Text.Printable

/-!
# `RouteDocs.Text.Quoted`: text as messages quote it

A message quotes the text it complains about. The quotation prefers single quotes,
takes double quotes for a text that holds a single quote and no double one, and
escapes the backslash, the quote itself, line feed, carriage return and tab. A
character that is not printable becomes a hexadecimal escape of two, four or eight
digits, the shortest that holds its code point.
-/

set_option autoImplicit false

namespace RouteDocs.Text

/-- The quote that `quote` puts around `s`. -/
def quoteMark (s : Text) : CodePoint :=
  if s.contains '\'' && !s.contains '"' then '"' else '\''

/-- One character inside the quotes `mark`. -/
def quoteChar (mark c : CodePoint) : Text :=
  if c = mark || c = '\\' then ['\\', c]
  else if c = '\n' then ['\\', 'n']
  else if c = '\r' then ['\\', 'r']
  else if c = '\t' then ['\\', 't']
  else if isPrintable c then [c]
  else if c.toNat < 0x100 then '\\' :: 'x' :: toHex 2 c.toNat
  else if c.toNat < 0x10000 then '\\' :: 'u' :: toHex 4 c.toNat
  else '\\' :: 'U' :: toHex 8 c.toNat

/-- The text between quotes. -/
def quote (s : Text) : Text :=
  let mark := quoteMark s
  mark :: s.flatMap (quoteChar mark) ++ [mark]

/-- One byte inside the quotes `mark`. -/
def quoteByte (mark : CodePoint) (b : UInt8) : Text :=
  let c := CodePoint.ofNat b.toNat
  if b < 128 then
    if c = mark || c = '\\' || c = '\n' || c = '\r' || c = '\t' || isPrintable c
    then quoteChar mark c
    else '\\' :: 'x' :: toHex 2 b.toNat
  else '\\' :: 'x' :: toHex 2 b.toNat

/-- Bytes between quotes, marked by a `b` in front. -/
def quoteBytes (bytes : List UInt8) : Text :=
  let mark := quoteMark (bytes.map fun b => CodePoint.ofNat b.toNat)
  [CodePoint.char 'b', mark] ++ bytes.flatMap (quoteByte mark) ++ [mark]

end RouteDocs.Text
