import RouteDocs.Number.Notation
import RouteDocs.Text.Digit

/-!
# `RouteDocs.Number.Reading`: text as numbers

An example is cast to a number by these rules. Digits may be of any decimal script, and
single underscores may stand between digits. A whole number has an optional sign and at
most 4300 digits. A fraction may have a point and an exponent, or be one of the words
for infinity and "not a number" in any case.
-/

set_option autoImplicit false

namespace RouteDocs.Number

open Text

/-- Splits an optional sign off; the flag is true for a minus. -/
def takeSign : Text → Bool × Text
  | .char '-' :: cs => (true, cs)
  | .char '+' :: cs => (false, cs)
  | cs => (false, cs)

/-- The text with its underscores dropped, if each stands between two decimal digits.
`afterDigit` tells whether a digit was read last. -/
def dropUnderscores? : (afterDigit : Bool) → Text → Option Text
  | _, [] => some []
  | afterDigit, .char '_' :: cs =>
    match cs with
    | [] => none
    | c :: _ => if afterDigit && isDecimal c then dropUnderscores? false cs else none
  | _, c :: cs => (dropUnderscores? (isDecimal c) cs).map (c :: ·)

/-- The digits of a run of decimals of any script, and the text after it. -/
def spanDecimals : Text → List Nat × Text
  | [] => ([], [])
  | c :: cs =>
    match decimalValue? c with
    | none => ([], c :: cs)
    | some d => let (ds, rest) := spanDecimals cs; (d :: ds, rest)

/-- Reads a whole number. -/
def readInt? (s : Text) : Option Int := do
  let (negative, body) := takeSign s
  let plain ← dropUnderscores? false body
  let digits ← decimals? plain
  if digits.isEmpty || maxDigits < digits.length then none
  else
    let n := ofDecimals digits
    some (if negative then -(n : Int) else n)

/-- The double nearest to `digits * 10 ^ exponent`. Far outside of the range of doubles
the power is not computed. -/
def scaled (negative : Bool) (digits : List Nat) (exponent : Int) : Binary64 :=
  let significant := digits.dropWhile (· = 0)
  let n := ofDecimals significant
  -- The value lies between `10 ^ (top - 1)` and `10 ^ top`.
  let top := exponent + significant.length
  if n = 0 || top < -400 then ⟨negative, 0⟩
  else if 400 < top then Binary64.infinity negative
  else if 0 ≤ exponent then Binary64.ofRatio negative (n * Nat.pow 10 exponent.toNat) 1
  else Binary64.ofRatio negative n (Nat.pow 10 (-exponent).toNat)

/-- Reads an exponent part up to the end of the text. No exponent is zero. -/
def readExponent? : Text → Option Int
  | [] => some 0
  | c :: cs =>
    if c = 'e' || c = 'E' then
      let (negative, body) := takeSign cs
      match decimals? body with
      | none => none
      | some [] => none
      | some ds => some (if negative then -(ofDecimals ds : Int) else ofDecimals ds)
    else none

/-- Reads a fraction, an infinity or "not a number". -/
def readFloat? (s : Text) : Option Binary64 := do
  let plain ← dropUnderscores? false s
  let (negative, body) := takeSign plain
  let word := body.map CodePoint.toLower
  if word = ("inf" : Text) || word = ("infinity" : Text) then some (Binary64.infinity negative)
  else if word = ("nan" : Text) then some Binary64.nan
  else
    let (whole, rest) := spanDecimals body
    let (fraction, rest) := match rest with
      | .char '.' :: cs => spanDecimals cs
      | cs => ([], cs)
    if whole.isEmpty && fraction.isEmpty then none
    else
      let exponent ← readExponent? rest
      some (scaled negative (whole ++ fraction) (exponent - fraction.length))

end RouteDocs.Number
