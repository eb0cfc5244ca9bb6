import RouteDocs.Number.Binary64

/-!
# `RouteDocs.Number.Shortest`: the fewest digits that read back

A double is written with as few significant digits as still denote it: the first count
of digits on whose decimal grid one of the value's two neighbours rounds back to the
double. Of two such neighbours the nearer is taken, and the one with the even last
digit when they are equally near.
-/

set_option autoImplicit false

namespace RouteDocs.Binary64

/-- A positive decimal number: `digits * 10 ^ exponent`. -/
structure Decimal where
  /-- The significant digits, as a number. -/
  digits : Nat
  /-- The power of ten they are multiplied by. -/
  exponent : Int
deriving DecidableEq, Repr

/-- A decimal number as numerator and denominator. -/
def Decimal.ratio (d : Decimal) : Nat × Nat :=
  if 0 ≤ d.exponent then (d.digits * Nat.pow 10 d.exponent.toNat, 1)
  else (d.digits, Nat.pow 10 (-d.exponent).toNat)

/-- Whether `d` rounds to the double of the given rank. -/
def Decimal.readsBackAs (rank : Nat) (d : Decimal) : Bool :=
  nearestRank d.ratio.1 d.ratio.2 == rank

/-- The decimal number without zeros at the end of its digits, for digits below
`10 ^ fuel`. -/
def Decimal.trimZeros : (fuel : Nat) → Decimal → Decimal
  | 0, d => d
  | fuel + 1, d =>
    if d.digits % 10 = 0 && d.digits != 0 then trimZeros fuel ⟨d.digits / 10, d.exponent + 1⟩ else d

/-- How many decimal digits the whole number `n` has, for `n` below `10 ^ fuel`. -/
def decimalWidth : (fuel n : Nat) → Nat
  | 0, _ => 0
  | fuel + 1, n => if n = 0 then 0 else decimalWidth fuel (n / 10) + 1

/-- The exponent `p` with `10 ^ p ≤ num / den < 10 ^ (p + 1)`, both positive. -/
def floorLog10Ratio (num den : Nat) : Int :=
  if den ≤ num then ((decimalWidth (num.log2 + 1) (num / den) : Nat) : Int) - 1
  else
    -- One over the ratio, rounded up, has the digit count that places the first digit.
    let inverse := (den + num - 1) / num
    let width := decimalWidth (den.log2 + 2) (inverse - 1)
    0 - (width : Int)

/-- The value's neighbours on the grid of `count` significant digits that read back as
the double, the better one first in line. -/
def candidate? (rank count : Nat) (num den : Nat) (top : Int) : Option Decimal :=
  let exponent := top + 1 - count
  let (gridNum, gridDen) :=
    if 0 ≤ exponent then (num, den * Nat.pow 10 exponent.toNat)
    else (num * Nat.pow 10 (-exponent).toNat, den)
  let below := gridNum / gridDen
  let twice := 2 * (gridNum % gridDen)
  let nearerBelow : Bool := twice < gridDen || (twice == gridDen && below % 2 == 0)
  let low : Decimal := ⟨below, exponent⟩
  let high : Decimal := ⟨below + 1, exponent⟩
  let (first, second) := if nearerBelow then (low, high) else (high, low)
  if first.readsBackAs rank then some first
  else if second.readsBackAs rank then some second
  else none

/-- Tries `count`, `count + 1`, … digits, `fuel` counts in all. -/
def shortest.go (rank num den : Nat) (top : Int) : (fuel count : Nat) → Decimal
  | 0, _ => ⟨0, 0⟩
  | fuel + 1, count =>
    match candidate? rank count num den top with
    | some d => d.trimZeros 20
    | none => shortest.go rank num den top fuel (count + 1)

/-- The shortest decimal that denotes a finite positive double, its digits without
zeros at the end. Seventeen digits always suffice. -/
def shortest (rank : Nat) : Decimal :=
  let (num, den) := ratio rank
  shortest.go rank num den (floorLog10Ratio num den) 17 1

end RouteDocs.Binary64
