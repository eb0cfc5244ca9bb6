import RouteDocs.Text.Base64
import RouteDocs.Text.LetterCase
import RouteDocs.Value.Basic
import RouteDocs.Yaml.Kind
import RouteDocs.Yaml.Token

/-!
# `RouteDocs.Yaml.ScalarValue`: the values of scalars

A scalar's text is read as a value of its kind. The kind may come from a tag, so a text
need not have the form of its kind, and what goes wrong then depends on the kind: a number
that is none, a truth value that is not in the list, a date without its numbers.
-/

set_option autoImplicit false

namespace RouteDocs.Yaml

open Text Number

/-- The value of a digit of any decimal script, or of a letter that counts on from nine. -/
def digitValue? (c : CodePoint) : Option Nat :=
  match decimalValue? c with
  | some d => some d
  | none => if c.isAlpha then some (c.toLower.toNat - 87) else none

/-- Reads a whole number in a base, with blanks around it, a sign and the base's own marker
in front. -/
def wholeInBase? (base : Nat) (s : Text) : Option Int := do
  let (negative, body) := takeSign (trim s)
  let marker : CodePoint := if base = 2 then 'b' else if base = 8 then 'o' else 'x'
  let digits := match body with
    | .char '0' :: m :: rest => if base ≠ 10 && m.toLower = marker then rest else body
    | _ => body
  let values ← digits.mapM digitValue?
  if values.isEmpty || values.any (base ≤ ·) || (base = 10 && maxDigits < values.length) then none
  else
    let n : Nat := values.foldl (fun n d => base * n + d) 0
    some (if negative then -(n : Int) else n)

/-- A whole number, or a fault if the text is none. -/
def wholeOr (base : Nat) (s : Text) : Except Failure Int :=
  match wholeInBase? base s with
  | some i => .ok i
  | none => .error (.fault .badValue)

/-- The whole number of a scalar. -/
def wholeNumber (text : Text) : Except Failure Int := do
  let plain := text.filter (· ≠ ('_' : CodePoint))
  if plain.isEmpty then .error (.fault .outOfBounds)
  else
    let (negative, body) := takeSign plain
    let signed := fun (i : Int) => if negative then -i else i
    match body with
    | [.char '0'] => .ok 0
    | .char '0' :: .char 'b' :: digits => (wholeOr 2 digits).map signed
    | .char '0' :: .char 'x' :: digits => (wholeOr 16 digits).map signed
    | .char '0' :: _ => (wholeOr 8 body).map signed
    | [] => .error (.fault .outOfBounds)
    | _ =>
      if body.contains ':' then do
        let places ← (splitWhere (· = (':' : CodePoint)) body).mapM (wholeOr 10)
        .ok (signed (places.foldl (fun n d => 60 * n + d) 0))
      else (wholeOr 10 body).map signed

/-- A fraction, or a fault if the text is none. -/
def fractionOr (s : Text) : Except Failure Binary64 :=
  match readFloat? (trim s) with
  | some x => .ok x
  | none => .error (.fault .badValue)

/-- The sum of places of sixty, least significant first. A place whose base is beyond every
double cannot be added. -/
def sixtieths : (base : Nat) → (total : Binary64) → List Binary64 → Except Failure Binary64
  | _, total, [] => .ok total
  | base, total, d :: ds =>
    let factor := Binary64.ofInt base
    if factor.isInfinite then .error (.fault .tooLarge)
    else sixtieths (base * 60) (total.add (d.mul factor)) ds

/-- The fraction of a scalar. All scalars with a point before "not a number" share one such
number, and any other has its own, told by `place`. -/
def fraction (place : Nat) (text : Text) : Except Failure Binary64 := do
  let plain := lower (text.filter (· ≠ ('_' : CodePoint)))
  if plain.isEmpty then .error (.fault .outOfBounds)
  else
    let (negative, body) := takeSign plain
    let signed := fun (x : Binary64) =>
      if x.isNaN then Binary64.nanOf (place + 1) else if negative then x.neg else x
    if body = ".inf" then .ok (Binary64.infinity negative)
    else if body = ".nan" then .ok Binary64.nan
    else if body.contains ':' then do
      let places ← (splitWhere (· = (':' : CodePoint)) body).mapM fractionOr
      (sixtieths 1 Binary64.zero places.reverse).map signed
    else (fractionOr body).map signed

/-- The date or moment of a scalar. -/
def stampValue (text : Text) : Except Failure Scalar :=
  match stamp? text with
  | none => .error (.fault .noSuchPart)
  | some t =>
    match t.time with
    | none => if t.date.isValid then .ok (.date t.date) else .error (.fault .badValue)
    | some (hour, minute, second, digits) =>
      let micro := ((digits ++ zeros 6).take 6).foldl
        (fun n d => 10 * n + (d.toNat - 48)) 0
      let m : Moment := ⟨t.date, hour, minute, second, micro, t.offset.map Offset.ofMinutes⟩
      if m.isValid then .ok (.moment m) else .error (.fault .badValue)

/-- The truth value of a scalar, in any case. -/
def truthValue (text : Text) : Except Failure Scalar :=
  match boolWords.find? fun w => w.1 = lower text with
  | some w => .ok (.bool w.2)
  | none => .error (.fault .missingKey)

/-- The bytes of a scalar. -/
def binaryValue (text : Text) : Except Failure Scalar :=
  if text.any fun c => 128 ≤ c.toNat then .error .malformed
  else match ofBase64? text with
    | some b => .ok (.bytes b)
    | none => .error .malformed

/-- The value of a scalar's text as a kind. `place` tells scalars of a document apart. -/
def scalarValue (place : Nat) (kind : Kind) (text : Text) : Except Failure Scalar :=
  match kind with
  | .null => .ok .null
  | .bool => truthValue text
  | .int => (wholeNumber text).map .int
  | .float => (fraction place text).map .float
  | .binary => binaryValue text
  | .timestamp => stampValue text
  | .str => .ok (.str text)
  | _ => .error .malformed

end RouteDocs.Yaml
