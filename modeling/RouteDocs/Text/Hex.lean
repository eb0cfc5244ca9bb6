import RouteDocs.Text.Basic

/-!
# `RouteDocs.Text.Hex`: hexadecimal digits

Escapes and digests write numbers in base sixteen, with a fixed number of places.
-/

set_option autoImplicit false

namespace RouteDocs.Text

/-- The lower-case digit of a number below sixteen. -/
def hexDigit (n : Nat) : CodePoint :=
  if n < 10 then CodePoint.ofNat (48 + n) else CodePoint.ofNat (87 + n)

/-- The low `places` hexadecimal digits of `n`, most significant first. -/
def toHex : (places n : Nat) → Text
  | 0, _ => []
  | places + 1, n => toHex places (n / 16) ++ [hexDigit (n % 16)]

/-- The value of a hexadecimal digit of either case. -/
def hexValue? (c : CodePoint) : Option Nat :=
  let n := c.toNat
  if 48 ≤ n && n ≤ 57 then some (n - 48)
  else if 97 ≤ n && n ≤ 102 then some (n - 87)
  else if 65 ≤ n && n ≤ 70 then some (n - 55)
  else none

/-- The number that hexadecimal digits denote, if all are such digits. -/
def ofHex? (s : Text) : Option Nat :=
  (s.mapM hexValue?).map (·.foldl (fun n d => 16 * n + d) 0)

end RouteDocs.Text
