import RouteDocs.Calendar
import RouteDocs.Number.Reading
import RouteDocs.Text.Hex
import RouteDocs.Text.Lines

/-!
# `RouteDocs.Yaml.Kind`: kinds of nodes, and what a plain scalar is

A node's kind comes from its tag. A plain scalar without a tag gets its kind from its
form: truth values, numbers, null and dates have forms of their own, and everything else
is text. The first character decides which forms are tried.

Octal numbers start with a zero, a number may have its places of sixty divided by colons,
and a fraction needs a point. A block or quoted scalar can be asked to be read as a plain
one; a line feed at its end then has no say in its form.
-/

set_option autoImplicit false

namespace RouteDocs.Yaml

open Text Number

/-- What a node is to be read as. -/
inductive Kind where
  /-- No value. -/
  | null
  /-- A truth value. -/
  | bool
  /-- A whole number. -/
  | int
  /-- A fraction. -/
  | float
  /-- Bytes in base 64. -/
  | binary
  /-- A date or a moment. -/
  | timestamp
  /-- A list of one-entry mappings as entries. -/
  | pairs
  /-- The keys of a mapping as a set. -/
  | set
  /-- A text. -/
  | str
  /-- A list. -/
  | seq
  /-- A mapping. -/
  | map
  /-- A key whose value is merged into the mapping around it. -/
  | merge
  /-- A key that stands for the value of the mapping around it. -/
  | value
  /-- Anything else. -/
  | other
deriving DecidableEq, Repr

/-- What the handle with two exclamation marks stands for. -/
def coreHandle : Text := "tag:yaml.org,2002:"

/-- The kinds that have a name under `coreHandle`. -/
def kindNames : List (Text × Kind) :=
  [("null", .null), ("bool", .bool), ("int", .int), ("float", .float), ("binary", .binary),
   ("timestamp", .timestamp), ("omap", .pairs), ("pairs", .pairs), ("set", .set), ("str", .str),
   ("seq", .seq), ("map", .map), ("merge", .merge), ("value", .value)]

/-- The kind that a full tag names. -/
def Kind.ofTag (tag : Text) : Kind :=
  match dropStart? coreHandle tag with
  | none => .other
  | some name => ((kindNames.find? fun k => k.1 = name).map (·.2)).getD .other

/-- A digit or an underscore. -/
def isSpacedDigit (c : CodePoint) : Bool := c.isDigit || c = '_'

/-- A digit up to another. -/
def isDigitTo (last c : CodePoint) : Bool := c.isDigit && c.toNat ≤ last.toNat

/-- One place of sixty: a digit, or two of which the first is below six. -/
def isSixtieth : Text → Bool
  | [d] => d.isDigit
  | [t, d] => isDigitTo '5' t && d.isDigit
  | _ => false

/-- Whether a text has the form of a whole number. -/
def isIntForm (s : Text) : Bool :=
  match (takeSign s).2 with
  | [] => false
  | .char '0' :: .char 'b' :: digits =>
    !digits.isEmpty && digits.all fun c => isDigitTo '1' c || c = '_'
  | .char '0' :: .char 'x' :: digits =>
    !digits.isEmpty && digits.all fun c => (hexValue? c).isSome || c = '_'
  | .char '0' :: digits => digits.all fun c => isDigitTo '7' c || c = '_'
  | body =>
    match splitWhere (· = (':' : CodePoint)) body with
    | [] => false
    | first :: places => first.head?.any CodePoint.isDigit && first.all isSpacedDigit && places.all isSixtieth

/-- Whether a text is digits and underscores, with an exponent of either sign or none. -/
def isExponentForm (s : Text) : Bool :=
  match s.dropWhile isSpacedDigit with
  | [] => true
  | e :: sign :: digits =>
    (e = 'e' || e = 'E') && (sign = '+' || sign = '-') && !digits.isEmpty && digits.all CodePoint.isDigit
  | _ => false

/-- The spellings of infinity after a point. -/
def infinityWords : List Text := ["inf", "Inf", "INF"]

/-- The spellings of "not a number" after a point. -/
def nanWords : List Text := ["nan", "NaN", "NAN"]

/-- Whether a text has the form of a fraction. -/
def isFloatForm (s : Text) : Bool :=
  let body := (takeSign s).2
  match body.dropWhile (· ≠ ('.' : CodePoint)) with
  | [] => false
  | _ :: after =>
    match splitWhere (· = (':' : CodePoint)) (body.takeWhile (· ≠ ('.' : CodePoint))) with
    | [[]] =>
      infinityWords.contains after ||
        (body == s && (nanWords.contains after ||
          (after.head?.any CodePoint.isDigit && isExponentForm after)))
    | [whole] => whole.head?.any CodePoint.isDigit && whole.all isSpacedDigit && isExponentForm after
    | first :: places =>
      first.head?.any CodePoint.isDigit && first.all isSpacedDigit && places.all isSixtieth &&
        after.all isSpacedDigit
    | [] => false

/-! ## Dates and moments -/

/-- A date or moment as written, before its numbers are checked. -/
structure Stamp where
  /-- The date. -/
  date : Date
  /-- Whether month and day have two digits each. -/
  wide : Bool
  /-- Hour, minute, second and the digits after the point. -/
  time : Option (Nat × Nat × Nat × Text)
  /-- Minutes ahead of universal time. -/
  offset : Option Int
deriving DecidableEq, Repr

/-- The number of at least `least` and at most `most` ASCII digits that come next, how many
they are, and the text after them. -/
def takeDigits? (least most : Nat) (s : Text) : Option (Nat × Nat × Text) :=
  let digits := (s.take most).takeWhile CodePoint.isDigit
  if digits.length < least then none
  else some (digits.foldl (fun n d => 10 * n + (d.toNat - 48)) 0, digits.length, s.drop digits.length)

/-- The text after `c`, if it comes next. -/
def passChar? (c : CodePoint) : Text → Option Text
  | [] => none
  | x :: rest => if x = c then some rest else none

/-- The offset at the end of a moment: nothing, `Z`, or hours with or without minutes. -/
def stampOffset? (s : Text) : Option (Option Int) :=
  if s.isEmpty then some none
  else
    match s.dropWhile isIndent with
    | [.char 'Z'] => some (some 0)
    | sign :: rest => do
      if sign ≠ '+' && sign ≠ '-' then none
      else
        let (hours, _, rest) ← takeDigits? 1 2 rest
        let minutes ← match rest with
          | [] => some 0
          | rest => do
            let rest ← passChar? ':' rest
            let (minutes, _, rest) ← takeDigits? 2 2 rest
            if rest.isEmpty then some minutes else none
        let offset : Int := 60 * hours + minutes
        some (some (if sign = '-' then -offset else offset))
    | [] => none

/-- The text without the line feed at its end, if there is one. -/
def dropFinalFeed (s : Text) : Text := if s.getLast? = some (.char '\n') then s.dropLast else s

/-- A date, or a date and time divided by a `T` or blanks. -/
def stamp? (s : Text) : Option Stamp := do
  let (year, _, s) ← takeDigits? 4 4 (dropFinalFeed s)
  let s ← passChar? '-' s
  let (month, monthWidth, s) ← takeDigits? 1 2 s
  let s ← passChar? '-' s
  let (day, dayWidth, s) ← takeDigits? 1 2 s
  let date : Date := ⟨year, month, day⟩
  let wide := monthWidth == 2 && dayWidth == 2
  match s with
  | [] => some ⟨date, wide, none, none⟩
  | c :: rest =>
    let s ←
      if c = 'T' || c = 't' then some rest
      else if isIndent c then some (rest.dropWhile isIndent)
      else none
    let (hour, _, s) ← takeDigits? 1 2 s
    let s ← passChar? ':' s
    let (minute, _, s) ← takeDigits? 2 2 s
    let s ← passChar? ':' s
    let (second, _, s) ← takeDigits? 2 2 s
    let (fraction, s) := match s with
      | .char '.' :: rest => (rest.takeWhile CodePoint.isDigit, rest.dropWhile CodePoint.isDigit)
      | s => ([], s)
    let offset ← stampOffset? s
    some ⟨date, wide, some (hour, minute, second, fraction), offset⟩

/-- Whether a plain scalar has the form of a date or moment. A date alone needs two digits
for month and day. -/
def isStampForm (s : Text) : Bool :=
  match stamp? s with
  | none => false
  | some t => t.wide || t.time.isSome

/-- The spellings of truth values. -/
def boolWords : List (Text × Bool) :=
  [("yes", true), ("Yes", true), ("YES", true), ("no", false), ("No", false), ("NO", false),
   ("true", true), ("True", true), ("TRUE", true), ("false", false), ("False", false),
   ("FALSE", false), ("on", true), ("On", true), ("ON", true), ("off", false), ("Off", false),
   ("OFF", false)]

/-- The spellings of no value. -/
def nullWords : List Text := ["", "~", "null", "Null", "NULL"]

/-- The kind of a plain scalar without a tag. -/
def Kind.ofPlain (text : Text) : Kind :=
  let s := if 2 ≤ text.length then dropFinalFeed text else text
  if boolWords.any fun w => w.1 = s then .bool
  else if isFloatForm s then .float
  else if isIntForm s then .int
  else if s = "<<" then .merge
  else if nullWords.any fun w => w = s then .null
  else if isStampForm s then .timestamp
  else if s = "=" then .value
  else if s = "!" || s = "&" || s = "*" then .other
  else .str

end RouteDocs.Yaml
