import RouteDocs.Text.Basic

/-!
# `RouteDocs.Text.Units`: UTF-16 code units

An escape with four hexadecimal digits names a UTF-16 code unit. A character beyond the
basic plane takes two of them, a high and a low surrogate. `units16` takes a code point
apart into its units and `joined` puts a pair together again. A surrogate without its
partner is a unit of its own.
-/

set_option autoImplicit false

namespace RouteDocs.Text

/-- Whether `n` is the first half of a surrogate pair. -/
def isHighSurrogate (n : Nat) : Bool := 0xd800 ≤ n && n ≤ 0xdbff

/-- Whether `n` is the second half of a surrogate pair. -/
def isLowSurrogate (n : Nat) : Bool := 0xdc00 ≤ n && n ≤ 0xdfff

/-- The code units of a code point. -/
def units16 (c : CodePoint) : List Nat :=
  if c.toNat < 0x10000 then [c.toNat]
  else [0xd800 + (c.toNat - 0x10000) / 0x400, 0xdc00 + (c.toNat - 0x10000) % 0x400]

/-- The code point of a surrogate pair. -/
def joined (high low : Nat) : CodePoint :=
  CodePoint.ofNat (0x10000 + (high - 0xd800) * 0x400 + (low - 0xdc00))

end RouteDocs.Text
