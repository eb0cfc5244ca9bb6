import RouteDocs.Number.Shortest
import RouteDocs.Text.Basic

/-!
# `RouteDocs.Number.Notation`: numbers as text

Whole numbers are written in decimal, and one of more than 4300 digits is not shown at
all. A double is written positionally, with at least
one digit after the point, while its decimal exponent is from -4 to 15; outside of that
range the first digit stands before the point and an exponent of at least two digits
with its sign follows. The sign of zero shows.

The words for the infinities and for "not a number" differ between outputs, so a
`Words` record carries them.
-/

set_option autoImplicit false

namespace RouteDocs.Number

/-- The decimal digits of a natural number. -/
def natText (n : Nat) : Text := (Nat.toDigits 10 n).map .char

/-- A whole number in decimal. -/
def intText (i : Int) : Text :=
  if i < 0 then "-" ++ natText i.natAbs else natText i.natAbs

/-- The most digits of a whole number that is read or shown. -/
def maxDigits : Nat := 4300

/-- A whole number in decimal, unless it has more than `maxDigits` digits. -/
def intText? (i : Int) : Option Text :=
  if i.natAbs < Nat.pow 10 maxDigits then some (intText i) else none

/-- A run of zeros. -/
def zeros (count : Nat) : Text := List.replicate count '0'

/-- A natural number with zeros in front up to `width` digits. -/
def padded (width n : Nat) : Text :=
  let ds := natText n
  zeros (width - ds.length) ++ ds

/-- How the numbers that have no digits are spelled. -/
structure Words where
  /-- Infinity, without its sign. -/
  infinity : Text
  /-- Not a number. -/
  nan : Text
deriving DecidableEq, Repr

/-- The spelling in messages and wherever a number is shown as text. -/
def plainWords : Words := ⟨"inf", "nan"⟩

/-- The digits of a positive decimal number, placed by the rules of this module. -/
def decimalText (d : Binary64.Decimal) : Text :=
  let ds := natText d.digits
  let exponent : Int := d.exponent + ds.length - 1
  if exponent < -4 || 16 ≤ exponent then
    let fraction : Text := if ds.length ≤ 1 then [] else "." ++ ds.drop 1
    let mark : Text := if exponent < 0 then "e-" else "e+"
    ds.take 1 ++ fraction ++ mark ++ padded 2 exponent.natAbs
  else if exponent < 0 then
    "0." ++ zeros (-exponent - 1).toNat ++ ds
  else
    let whole := exponent.toNat + 1
    if ds.length ≤ whole then ds ++ zeros (whole - ds.length) ++ ".0"
    else ds.take whole ++ "." ++ ds.drop whole

/-- A double as text. -/
def floatText (words : Words) (x : Binary64) : Text :=
  if x.isNaN then words.nan
  else
    let magnitude : Text :=
      if x.isInfinite then words.infinity
      else if x.isZero then "0.0"
      else decimalText (Binary64.shortest x.rank)
    if x.negative then "-" ++ magnitude else magnitude

end RouteDocs.Number
