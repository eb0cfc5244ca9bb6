import RouteDocs.Text.Hex

/-!
# `RouteDocs.Text.Percent`: form encoding

A query string writes its names and values in the form encoding: ASCII letters,
digits and `_.-~` as they are, a space as `+`, and every other byte of the UTF-8 form
as a percent sign with two upper-case hexadecimal digits.
-/

set_option autoImplicit false

namespace RouteDocs.Text

/-- Whether a byte stands for itself in the form encoding. -/
def isUnreserved (b : UInt8) : Bool :=
  let c := CodePoint.ofNat b.toNat
  c.isAlphanum || c = '_' || c = '.' || c = '-' || c = '~'

/-- One byte in the form encoding. -/
def percentByte (b : UInt8) : Text :=
  if isUnreserved b then [CodePoint.ofNat b.toNat]
  else if b = 32 then ['+']
  else '%' :: (toHex 2 b.toNat).map CodePoint.toUpper

/-- A text in the form encoding of its UTF-8 bytes, if it has such a form. -/
def formEncode? (s : Text) : Option Text := s.utf8?.map (·.flatMap percentByte)

/-- Name and value pairs as a query string. -/
def queryString? (pairs : List (Text × Text)) : Option Text := do
  let parts ← pairs.mapM fun p => return (← formEncode? p.1) ++ "=" ++ (← formEncode? p.2)
  return ("&" : Text).intercalate parts

end RouteDocs.Text
