import RouteDocs.Error

/-!
# `RouteDocs.Check`: records from loose values

Routes, settings and documented endpoints come as mappings of loose values. Each field is
checked against its kind, and every offence counts: a missing field, a wrong value, each
wrong element of a list and each wrong key or value of a mapping. The outcome is the
record, or the number of offences.

Kinds are read generously where nothing is lost: a truth value may be spelled as a word or
as 0 or 1, a whole number as digits or as a fraction without a fractional part. Fields
that a record does not have are ignored, so a record asks for its fields by name.
-/

set_option autoImplicit false

namespace RouteDocs.Check

open Text Number

/-- A checked part, or how many offences it has. -/
abbrev Checked (α : Type) := Except Nat α

/-- Adds a checked part to a record under construction. Offences of both add up. -/
def also {α β : Type} (f : Checked (α → β)) (a : Checked α) : Checked β :=
  match f, a with
  | .ok f, .ok a => .ok (f a)
  | .error n, .error m => .error (n + m)
  | .error n, .ok _ => .error n
  | .ok _, .error m => .error m

/-- Two checked parts together. -/
def both {α β : Type} (a : Checked α) (b : Checked β) : Checked (α × β) := also (also (.ok Prod.mk) a) b

/-- All parts of a list, each checked. -/
def each {α β : Type} (check : α → Checked β) : List α → Checked (List β)
  | [] => .ok []
  | a :: as => also (also (.ok List.cons) (check a)) (each check as)

/-! ## Kinds -/

/-- The text that a scalar is, bytes counting as their UTF-8 text. -/
def text? : Scalar → Option Text
  | .str s => some s
  | .bytes b => ofUtf8? b
  | _ => none

/-- One offence unless there is a result. -/
def oneUnless {α : Type} : Option α → Checked α
  | some a => .ok a
  | none => .error 1

/-- A text. -/
def text : Value → Checked Text
  | .scalar s => oneUnless (text? s)
  | _ => .error 1

/-- A text that is written as one. -/
def writtenText : Value → Checked Text
  | .scalar (.str s) => .ok s
  | _ => .error 1

/-- Any value. -/
def any (v : Value) : Checked Value := .ok v

/-- A kind, or no value. -/
def orNull {α : Type} (check : Value → Checked α) : Value → Checked (Option α)
  | .scalar .null => .ok none
  | v => (check v).map some

/-- The words for true. -/
def trueWords : List Text := ["1", "t", "y", "on", "yes", "true"]

/-- The words for false. -/
def falseWords : List Text := ["0", "f", "n", "no", "off", "false"]

/-- A truth value. -/
def truth : Value → Checked Bool
  | .scalar (.bool b) => .ok b
  | .scalar (.int i) => number i
  | .scalar (.float x) => (oneUnless x.toInt?).bind number
  | .scalar s =>
    match text? s with
    | none => .error 1
    | some word =>
      let word := word.map CodePoint.toLower
      if trueWords.contains word then .ok true
      else if falseWords.contains word then .ok false
      else .error 1
  | _ => .error 1
where
  /-- The truth value that a number stands for. -/
  number (i : Int) : Checked Bool :=
    if i = 0 then .ok false else if i = 1 then .ok true else .error 1

/-- The white space that may stand around the digits of a whole number, as closed ranges. -/
def spaceRanges : List (Nat × Nat) :=
  [(0x9, 0xd), (0x20, 0x20), (0x85, 0x85), (0xa0, 0xa0), (0x1680, 0x1680), (0x2000, 0x200a),
   (0x2028, 0x2029), (0x202f, 0x202f), (0x205f, 0x205f), (0x3000, 0x3000)]

/-- The text without white space at either end. -/
def trimSpace (s : Text) : Text :=
  dropEndWhile (within spaceRanges) (s.dropWhile (within spaceRanges))

/-- The text without a plus in front. A minus may not follow it. -/
def dropPlus? : Text → Option Text
  | .char '+' :: .char '-' :: _ => none
  | .char '+' :: rest => some rest
  | s => some s

/-- Whether `c` begins a number that has no zeros in front. -/
def startsNumber (c : CodePoint) : Bool := c = '-' || (c.isDigit && c ≠ '0')

/-- The text from behind zeros and underscores, `last` being the character before it. If
nothing but those is there, or a point comes next, the last one stays. -/
def dropZeros.go (last : CodePoint) : Text → Option Text
  | [] => some [last]
  | c :: rest =>
    if c = '0' || c = '_' then dropZeros.go c rest
    else if startsNumber c then some (c :: rest)
    else if c = '.' then some (last :: c :: rest)
    else none

/-- The text without zeros in front. It has to start with a digit or a minus. -/
def dropZeros? : Text → Option Text
  | [] => none
  | c :: rest =>
    if c = '0' then dropZeros.go c rest
    else if startsNumber c then some (c :: rest)
    else none

/-- The digits before a point that only zeros follow. -/
def dropZeroFraction (s : Text) : Text :=
  match s.dropWhile (· ≠ ('.' : CodePoint)) with
  | _ :: zeros =>
    if !zeros.isEmpty && zeros.all (· = ('0' : CodePoint)) then s.takeWhile (· ≠ ('.' : CodePoint))
    else s
  | [] => s

/-- The text without underscores, if each stands alone and inside. -/
def dropLoneUnderscores (s : Text) : Text :=
  if s.head? = some (.char '_') || s.getLast? = some (.char '_') || hasPart "__" s then s
  else s.filter (· ≠ ('_' : CodePoint))

/-- A whole number with a minus or none, and no zero in front of other digits. -/
def strictWhole? (s : Text) : Option Int :=
  let (negative, digits) := match s with
    | .char '-' :: rest => (true, rest)
    | s => (false, s)
  if digits.isEmpty || !digits.all CodePoint.isDigit || maxDigits < s.length ||
      (digits.head? = some (.char '0') && 1 < digits.length) then none
  else
    let n : Int := ofDecimals (digits.map fun d => d.toNat - 48)
    some (if negative then -n else n)

/-- The whole number that a text spells. -/
def wholeOfText? (s : Text) : Option Int := do
  let s ← dropPlus? (trimSpace s)
  let s ← dropZeros? s
  strictWhole? (dropLoneUnderscores (dropZeroFraction s))

/-- The whole number that a double is, if it fits 64 bits with some room at either end. -/
def wholeOfDouble? (x : Binary64) : Option Int :=
  x.toInt?.filter fun i => i.natAbs < Nat.pow 2 63

/-- A whole number. -/
def whole : Value → Checked Int
  | .scalar (.int i) => .ok i
  | .scalar (.bool b) => .ok (if b then 1 else 0)
  | .scalar (.float x) => oneUnless (wholeOfDouble? x)
  | .scalar s => oneUnless ((text? s).bind wholeOfText?)
  | _ => .error 1

/-- A mapping. -/
def mapping : Value → Checked (List (Scalar × Value))
  | .map entries => .ok entries
  | _ => .error 1

/-- A list with elements of a kind. -/
def listOf {α : Type} (check : Value → Checked α) : Value → Checked (List α)
  | .list items => each check items
  | .set members => each check (members.map .scalar)
  | _ => .error 1

/-- A mapping with keys and values of given kinds. -/
def mapOf {κ α : Type} [BEq κ] (key : Value → Checked κ) (check : Value → Checked α) :
    Value → Checked (List (κ × α))
  | .map entries => (each (fun e => both (key (.scalar e.1)) (check e.2)) entries).map Entries.ofList
  | _ => .error 1

/-! ## Fields -/

/-- The fields of a record under their names. -/
abbrev Fields := String → Option Value

/-- A field that has to be there. -/
def field {α : Type} (key : String) (check : Value → Checked α) (fields : Fields) : Checked α :=
  match fields key with
  | some v => check v
  | none => .error 1

/-- A field that may be missing. -/
def fieldOr {α : Type} (key : String) (default : α) (check : Value → Checked α) (fields : Fields) :
    Checked α :=
  match fields key with
  | some v => check v
  | none => .ok default

/-- A record from a mapping. -/
def record {α : Type} (check : Fields → Checked α) : Value → Checked α
  | .map entries => check fun key => Entries.get? (.str key) entries
  | _ => .error 1

/-- The outcome as a failure that names the record. -/
def outcome {α : Type} (model : Model) (c : Checked α) : Except Invalid α :=
  c.mapError fun n => ⟨n, model⟩

end RouteDocs.Check
