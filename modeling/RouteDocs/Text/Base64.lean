import RouteDocs.Text.Basic

/-!
# `RouteDocs.Text.Base64`: bytes in base 64

Bytes may be written in base 64 across several lines. Characters outside of the alphabet
are passed over. Two padding signs after two characters of a group of four, or one after
three, end the text; a group that is left open otherwise is an error.
-/

set_option autoImplicit false

namespace RouteDocs.Text

/-- The value of a character of the alphabet. -/
def base64Value? (c : CodePoint) : Option Nat :=
  if c.isUpper then some (c.toNat - 65)
  else if c.isLower then some (c.toNat - 71)
  else if c.isDigit then some (c.toNat + 4)
  else if c = '+' then some 62
  else if c = '/' then some 63
  else none

/-- Reads on with `count` characters of a group read, `left` being the bits of the last that
no byte took yet, and `pads` padding signs seen since. -/
def ofBase64.go : (count left pads : Nat) → Text → Option (List UInt8)
  | count, _, _, [] => if count = 0 then some [] else none
  | count, left, pads, c :: rest =>
    if c = '=' then
      if 2 ≤ count && 4 ≤ count + (pads + 1) then some []
      else ofBase64.go count left (if 2 ≤ count then pads + 1 else pads) rest
    else
      match base64Value? c with
      | none => ofBase64.go count left pads rest
      | some v =>
        if count = 0 then ofBase64.go 1 v 0 rest
        else if count = 1 then
          (ofBase64.go 2 (v % 16) 0 rest).map (UInt8.ofNat (left * 4 + v / 16) :: ·)
        else if count = 2 then
          (ofBase64.go 3 (v % 4) 0 rest).map (UInt8.ofNat (left * 16 + v / 4) :: ·)
        else (ofBase64.go 0 0 0 rest).map (UInt8.ofNat (left * 64 + v) :: ·)

/-- The bytes that a text in base 64 spells. -/
def ofBase64? (s : Text) : Option (List UInt8) := ofBase64.go 0 0 0 s

end RouteDocs.Text
