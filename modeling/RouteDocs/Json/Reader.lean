import RouteDocs.Number.Notation
import RouteDocs.Number.Reading
import RouteDocs.Text.Hex
import RouteDocs.Text.Lines
import RouteDocs.Text.Units
import RouteDocs.Value.Basic

/-!
# `RouteDocs.Json.Reader`: JSON text as values

An example after a response status and a base document may be JSON. The reader follows
the JSON grammar, and takes the words for infinity and "not a number" as well. A key that
is repeated keeps its first place and its last value. Two escapes next to each other that
name a surrogate pair are one character; any other surrogate stands for itself.

What goes wrong is told by a `Problem` and the text that was left at that point, which
`describe` turns into a position.
-/

set_option autoImplicit false

namespace RouteDocs.Json

open Text Number

/-- What is wrong with a JSON text. -/
inductive Problem where
  /-- No value starts here. -/
  | expectedValue
  /-- No field name starts here. -/
  | expectedName
  /-- No colon follows a field name. -/
  | expectedColon
  /-- Neither a comma nor the closing bracket follows a part. -/
  | expectedComma
  /-- The text ends inside a string. -/
  | unterminatedString
  /-- A control character stands in a string. -/
  | controlCharacter
  /-- A backslash is followed by no escape. -/
  | badEscape
  /-- Four hexadecimal digits are missing after `\u`. -/
  | badUnit
  /-- Something follows the value. -/
  | extraData
  /-- The text starts with a byte order mark. -/
  | byteOrderMark
deriving DecidableEq, Repr

/-- The wording of a problem. -/
def Problem.message : Problem → Text
  | .expectedValue => "Expecting value"
  | .expectedName => "Expecting property name enclosed in double quotes"
  | .expectedColon => "Expecting ':' delimiter"
  | .expectedComma => "Expecting ',' delimiter"
  | .unterminatedString => "Unterminated string starting at"
  | .controlCharacter => "Invalid control character at"
  | .badEscape => "Invalid \\escape"
  | .badUnit => "Invalid \\uXXXX escape"
  | .extraData => "Extra data"
  | .byteOrderMark => "Unexpected UTF-8 BOM (decode using utf-8-sig)"

/-- Why reading stopped. -/
inductive Failure where
  /-- The text is no JSON; `rest` is what is left of it at the point of the problem. -/
  | malformed (problem : Problem) (rest : Text)
  /-- A whole number has more digits than may be read. -/
  | tooManyDigits
  /-- Lists and mappings are nested more deeply than may be read. -/
  | tooDeep
deriving DecidableEq, Repr

/-- Whether `c` may stand between the parts of a JSON text. -/
def isSpace (c : CodePoint) : Bool := c = ' ' || c = '\t' || c = '\n' || c = '\r'

/-- The text without space in front. -/
def skipSpace (s : Text) : Text := s.dropWhile isSpace

/-- The character that a one-letter escape names. -/
def shortEscape? (c : CodePoint) : Option CodePoint :=
  if c = '"' || c = '\\' || c = '/' then some c
  else if c = 'b' then some '\x08'
  else if c = 'f' then some '\x0c'
  else if c = 'n' then some '\n'
  else if c = 'r' then some '\r'
  else if c = 't' then some '\t'
  else none

/-- A part of a string. -/
inductive StringPart where
  /-- A code point, as it is or by a one-letter escape. -/
  | plain (c : CodePoint)
  /-- A UTF-16 unit by its four hexadecimal digits. -/
  | unit (n : Nat)
deriving DecidableEq, Repr

/-- The text that the parts of a string spell. -/
def textOfParts : List StringPart → Text
  | [] => []
  | .unit high :: .unit low :: rest =>
    if isHighSurrogate high && isLowSurrogate low then joined high low :: textOfParts rest
    else CodePoint.ofNat high :: textOfParts (.unit low :: rest)
  | .unit n :: rest => CodePoint.ofNat n :: textOfParts rest
  | .plain c :: rest => c :: textOfParts rest

/-- The parts of a string up to its closing quote, from behind its opening quote. `start`
is the text from the opening quote on. -/
def stringParts (start : Text) : Text → Except Failure (List StringPart × Text)
  | [] => .error (.malformed .unterminatedString start)
  | .char '"' :: rest => .ok ([], rest)
  | .char '\\' :: .char 'u' :: a :: b :: c :: d :: rest =>
    match ofHex? [a, b, c, d], rest with
    -- An escape at the very end is refused before its digits are looked at.
    | some n, _ :: _ => (stringParts start rest).map fun r => (.unit n :: r.1, r.2)
    | _, _ => .error (.malformed .badUnit ('u' :: a :: b :: c :: d :: rest))
  | .char '\\' :: rest =>
    match rest with
    | [] => .error (.malformed .unterminatedString start)
    | .char 'u' :: _ => .error (.malformed .badUnit rest)
    | c :: after =>
      match shortEscape? c with
      | some c => (stringParts start after).map fun r => (.plain c :: r.1, r.2)
      | none => .error (.malformed .badEscape ('\\' :: rest))
  | c :: rest =>
    if c.toNat < 0x20 then .error (.malformed .controlCharacter (c :: rest))
    else (stringParts start rest).map fun r => (.plain c :: r.1, r.2)

/-- A string, from its opening quote on. -/
def string (s : Text) : Except Failure (Text × Text) :=
  (stringParts s (s.drop 1)).map fun r => (textOfParts r.1, r.2)

/-- The parts of a number literal: sign, whole digits, fraction digits, exponent. -/
structure Literal where
  /-- Whether a minus stands in front. -/
  negative : Bool
  /-- The digits before the point. -/
  whole : List Nat
  /-- The digits after the point, if there is one. -/
  fraction : Option (List Nat)
  /-- The exponent, if there is one. -/
  exponent : Option Int
deriving DecidableEq, Repr

/-- A run of ASCII digits, and the text after it. -/
def spanDigits (s : Text) : List Nat × Text :=
  ((s.takeWhile CodePoint.isDigit).map fun c => c.toNat - 48, s.dropWhile CodePoint.isDigit)

/-- The whole part of a number: one zero, or digits that do not start with one. -/
def wholePart? : Text → Option (List Nat × Text)
  | .char '0' :: rest => some ([0], rest)
  | s =>
    let (digits, rest) := spanDigits s
    if digits.isEmpty then none else some (digits, rest)

/-- The fraction of a number. A point without a digit after it is no fraction. -/
def fractionPart : Text → Option (List Nat) × Text
  | .char '.' :: rest =>
    let (digits, after) := spanDigits rest
    if digits.isEmpty then (none, '.' :: rest) else (some digits, after)
  | s => (none, s)

/-- The exponent of a number. An `e` without digits after it is no exponent. -/
def exponentPart : Text → Option Int × Text
  | [] => (none, [])
  | c :: rest =>
    if c = 'e' || c = 'E' then
      let (negative, body) := takeSign rest
      let (digits, after) := spanDigits body
      if digits.isEmpty then (none, c :: rest)
      else
        let n : Int := ofDecimals digits
        (some (if negative then -n else n), after)
    else (none, c :: rest)

/-- A number literal, and the text after it. -/
def literal? (s : Text) : Option (Literal × Text) := do
  let (negative, body) := match s with
    | .char '-' :: rest => (true, rest)
    | s => (false, s)
  let (whole, rest) ← wholePart? body
  let (fraction, rest) := fractionPart rest
  let (exponent, rest) := exponentPart rest
  some (⟨negative, whole, fraction, exponent⟩, rest)

/-- The number that a literal denotes: whole unless it has a fraction or an exponent. -/
def Literal.value (l : Literal) : Except Failure Value :=
  match l.fraction, l.exponent with
  | none, none =>
    if maxDigits < l.whole.length then .error .tooManyDigits
    else
      let n : Int := ofDecimals l.whole
      .ok (.int (if l.negative then -n else n))
  | fraction, exponent =>
    let digits := fraction.getD []
    .ok (.float (scaled l.negative (l.whole ++ digits) (exponent.getD 0 - digits.length)))

/-- The words that are values. -/
def constants : List (Text × Value) :=
  [("null", .null), ("true", .bool true), ("false", .bool false),
   ("NaN", .float Binary64.nan), ("Infinity", .float (Binary64.infinity false)),
   ("-Infinity", .float (Binary64.infinity true))]

/-- A word or a number. -/
def atom (s : Text) : Except Failure (Value × Text) :=
  match constants.findSome? fun c => (dropStart? c.1 s).map (c.2, ·) with
  | some r => .ok r
  | none =>
    match literal? s with
    | some (l, rest) => l.value.map (·, rest)
    | none => .error (.malformed .expectedValue s)

/-- How deeply lists and mappings may be nested. -/
def maxNesting : Nat := 990

mutual

/-- A value at a depth of nesting. Each level and each part takes one unit of `fuel`. -/
def value : (fuel depth : Nat) → Text → Except Failure (Value × Text)
  | 0, _, s => .error (.malformed .expectedValue s)
  | fuel + 1, depth, s =>
    match s with
    | .char '"' :: _ => (string s).map fun r => (.str r.1, r.2)
    | .char '[' :: rest =>
      if maxNesting ≤ depth then .error .tooDeep
      else match skipSpace rest with
        | .char ']' :: after => .ok (.list [], after)
        | inner => (elements fuel (depth + 1) inner).map fun r => (.list r.1, r.2)
    | .char '\x7b' :: rest =>
      if maxNesting ≤ depth then .error .tooDeep
      else match skipSpace rest with
        | .char '\x7d' :: after => .ok (.map [], after)
        | inner => (members fuel (depth + 1) inner).map fun r => (.map (Entries.ofList r.1), r.2)
    | _ => atom s

/-- The elements of a list up to its closing bracket. -/
def elements : (fuel depth : Nat) → Text → Except Failure (List Value × Text)
  | 0, _, s => .error (.malformed .expectedValue s)
  | fuel + 1, depth, s => do
    let (v, rest) ← value fuel depth s
    match skipSpace rest with
    | .char ']' :: after => .ok ([v], after)
    | .char ',' :: after => do
      let (vs, rest) ← elements fuel depth (skipSpace after)
      .ok (v :: vs, rest)
    | other => .error (.malformed .expectedComma other)

/-- The fields of a mapping up to its closing brace, in the order of the text. -/
def members : (fuel depth : Nat) → Text → Except Failure (List (Scalar × Value) × Text)
  | 0, _, s => .error (.malformed .expectedName s)
  | fuel + 1, depth, s =>
    match s with
    | .char '"' :: _ => do
      let (name, rest) ← string s
      match skipSpace rest with
      | .char ':' :: rest => do
        let (v, rest) ← value fuel depth (skipSpace rest)
        let field := (Scalar.str name, v)
        match skipSpace rest with
        | .char '\x7d' :: after => .ok ([field], after)
        | .char ',' :: after => do
          let (fields, rest) ← members fuel depth (skipSpace after)
          .ok (field :: fields, rest)
        | other => .error (.malformed .expectedComma other)
      | other => .error (.malformed .expectedColon other)
    | other => .error (.malformed .expectedName other)

end

/-- Reads a value from the start of a text, and gives the text after it. -/
def readPart (s : Text) : Except Failure (Value × Text) := value (2 * s.length + 2) 0 s

/-- Reads a text that holds one value and space around it. -/
def read (s : Text) : Except Failure Value :=
  if s.head? = some (CodePoint.ofNat 0xfeff) then .error (.malformed .byteOrderMark s)
  else do
    let (v, rest) ← readPart (skipSpace s)
    match skipSpace rest with
    | [] => .ok v
    | rest => .error (.malformed .extraData rest)

/-- A problem with its place in `text`, given what is left of it: line and column from 1,
and the count of characters before it. -/
def describe (text : Text) (problem : Problem) (rest : Text) : Text :=
  let before := text.take (text.length - rest.length)
  let line := before.count ('\n' : CodePoint) + 1
  let column := (before.reverse.takeWhile (· ≠ ('\n' : CodePoint))).length + 1
  problem.message ++ ": line " ++ natText line ++ " column " ++ natText column ++ " (char " ++
    natText before.length ++ ")"

end RouteDocs.Json
