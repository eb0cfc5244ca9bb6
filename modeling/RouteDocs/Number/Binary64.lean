import RouteDocs.Number.Rounding

/-!
# `RouteDocs.Number.Binary64`: double-precision numbers, exactly

Examples may be fractions, and their text shows every bit of them. A number is kept as
its sign and the rank of its magnitude: zero has rank 0, the least positive double
rank 1, and so on upwards to infinity. With this choice the order of magnitudes is the
order of ranks, and equal pairs are equal numbers.

Every rank above infinity is "not a number". Two of those are the same only if they come
from one place, and the distance from infinity tells where from.

All arithmetic is exact on ratios of natural numbers and rounded once, to the nearest
double with ties to even.
-/

set_option autoImplicit false

namespace RouteDocs

/-- A double-precision number: its sign, and the rank of its magnitude among the
non-negative doubles in increasing order. -/
structure Binary64 where
  /-- Whether the sign is a minus. Zero has a sign too. -/
  negative : Bool
  /-- How many non-negative doubles are smaller in magnitude. -/
  rank : Nat
deriving DecidableEq, Repr

namespace Binary64

open Number

/-- The number of doubles with one exponent: two to the width of the fraction. -/
def binade : Nat := Nat.pow 2 52

/-- The rank of infinity, above every finite magnitude. -/
def infinityRank : Nat := 2047 * binade

/-- Zero with a plus sign. -/
def zero : Binary64 := ⟨false, 0⟩

/-- Infinity with the given sign. -/
def infinity (negative : Bool) : Binary64 := ⟨negative, infinityRank⟩

/-- The number that is none, as it comes from `place`. -/
def nanOf (place : Nat) : Binary64 := ⟨false, infinityRank + 1 + place⟩

/-- The number that is none, from no place in particular. -/
def nan : Binary64 := nanOf 0

/-- Whether `x` is not a number. -/
def isNaN (x : Binary64) : Bool := infinityRank < x.rank

/-- Whether `x` is one of the two infinities. -/
def isInfinite (x : Binary64) : Bool := x.rank == infinityRank

/-- Whether `x` is a number other than an infinity. -/
def isFinite (x : Binary64) : Bool := x.rank < infinityRank

/-- Whether `x` is zero of either sign. -/
def isZero (x : Binary64) : Bool := x.rank == 0

/-- The whole number that `2 ^ exponent` is multiplied by to give a finite magnitude. -/
def significand (rank : Nat) : Nat :=
  if rank < binade then rank else rank % binade + binade

/-- The power of two that goes with `significand`. -/
def exponent (rank : Nat) : Int :=
  if rank < binade then -1074 else (rank / binade : Nat) - 1075

/-- A finite magnitude as numerator and denominator. -/
def ratio (rank : Nat) : Nat × Nat :=
  let e := exponent rank
  if 0 ≤ e then (significand rank * Nat.pow 2 e.toNat, 1)
  else (significand rank, Nat.pow 2 (-e).toNat)

/-- The rank of the double nearest to `num / den`, ties to even. `den` is positive.
A ratio halfway past the largest finite double or further has the rank of infinity. -/
def nearestRank (num den : Nat) : Nat :=
  if num = 0 then 0
  else
    -- Below the normal range the spacing stays that of the least double.
    let e := max (floorLog2Ratio num den - 52) (-1074)
    let q :=
      if 0 ≤ e then roundDiv num (den * Nat.pow 2 e.toNat)
      else roundDiv (num * Nat.pow 2 (-e).toNat) den
    -- A rounding up to the next power of two carries into the next binade by itself.
    min ((e + 1074).toNat * binade + q) infinityRank

/-- The double nearest to a ratio of the given sign. -/
def ofRatio (negative : Bool) (num den : Nat) : Binary64 := ⟨negative, nearestRank num den⟩

/-- The double nearest to a whole number. -/
def ofInt (i : Int) : Binary64 := ofRatio (i < 0) i.natAbs 1

/-- The whole number that `x` is, if it is one. -/
def toInt? (x : Binary64) : Option Int :=
  if x.isFinite then
    let (num, den) := ratio x.rank
    if num % den = 0 then
      some (if x.negative then -((num / den : Nat) : Int) else ((num / den : Nat) : Int))
    else none
  else none

/-- Multiplication, rounded once. Infinity times zero is not a number. -/
def mul (x y : Binary64) : Binary64 :=
  let negative := x.negative != y.negative
  if x.isNaN || y.isNaN then nan
  else if x.isInfinite || y.isInfinite then
    if x.isZero || y.isZero then nan else infinity negative
  else
    let (a, b) := ratio x.rank
    let (c, d) := ratio y.rank
    ofRatio negative (a * c) (b * d)

/-- Addition, rounded once. Opposite infinities have no sum, and a sum that is exactly
zero is negative only when both terms are. -/
def add (x y : Binary64) : Binary64 :=
  if x.isNaN || y.isNaN then nan
  else if x.isInfinite then
    if y.isInfinite && x.negative != y.negative then nan else x
  else if y.isInfinite then y
  else
    let (a, b) := ratio x.rank
    let (c, d) := ratio y.rank
    let term := fun (negative : Bool) (n : Nat) => if negative then -(n : Int) else (n : Int)
    let sum := term x.negative (a * d) + term y.negative (c * b)
    if sum = 0 then ⟨x.negative && y.negative, 0⟩
    else ofRatio (sum < 0) sum.natAbs (b * d)

/-- The number with the opposite sign. -/
def neg (x : Binary64) : Binary64 := ⟨!x.negative, x.rank⟩

/-- Whether `x` is less than `y`. Nothing is less than, or greater than, a number that is
none, and the two zeros are equal. -/
def lt (x y : Binary64) : Bool :=
  if x.isNaN || y.isNaN then false
  else if x.isZero && y.isZero then false
  else match x.negative, y.negative with
    | false, false => x.rank < y.rank
    | true, true => y.rank < x.rank
    | true, false => true
    | false, true => false

/-- The double nearest to `x` rounded to `places` decimal places. The decimal rounding
is on the exact value, ties to even. -/
def roundPlaces (places : Nat) (x : Binary64) : Binary64 :=
  if x.isFinite then
    let (num, den) := ratio x.rank
    ofRatio x.negative (roundDiv (num * Nat.pow 10 places) den) (Nat.pow 10 places)
  else x

end Binary64

end RouteDocs
