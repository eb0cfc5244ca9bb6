/-!
# `RouteDocs.Number.Rounding`: a quotient rounded to a whole number

The one rounding rule of the library: to the nearest whole number, a tie to the even
neighbour. Binary floating point and fixed decimal places both rest on it.
-/

set_option autoImplicit false

namespace RouteDocs.Number

/-- `num / den` rounded to the nearest whole number, ties to even. `den` is positive. -/
def roundDiv (num den : Nat) : Nat :=
  let q := num / den
  let twice := 2 * (num % den)
  if twice < den then q
  else if den < twice then q + 1
  else q + q % 2

/-- The exponent of the largest power of two that is at most `num / den`, both
positive. -/
def floorLog2Ratio (num den : Nat) : Int :=
  let guess : Int := (num.log2 : Int) - den.log2
  let fits : Bool :=
    if 0 ≤ guess then den * Nat.pow 2 guess.toNat ≤ num else den ≤ num * Nat.pow 2 (-guess).toNat
  if fits then guess else guess - 1

end RouteDocs.Number
