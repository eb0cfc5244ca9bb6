import RouteDocs.Error
import RouteDocs.Number.Reading
import RouteDocs.Text.Lines
import RouteDocs.TypeName

/-!
# `RouteDocs.Tag.Parameter`: the grammar of parameter tags

A parameter tag reads `<name> <type> [required] [description]`. The description may hold
an example and a property block. For a type other than object and array the example is the
rest of the line after `Example:`. For these two it is a literal in braces or brackets on
lines of its own, at the very end, and is kept as text.

The reader of property blocks is a parameter here: a block's own lines are parameter texts
too, and `RouteDocs.Tag.PropertyBlock` ties the knot. A line has no line feed, so on a line
neither a block nor a literal is ever found.
-/

set_option autoImplicit false

namespace RouteDocs.Tag

open Text Number

/-- The entries of a property schema. -/
abbrev Properties := List (Scalar × Value)

/-- The parts of a parameter text before its description is looked into. -/
structure ParameterHead where
  /-- The first word. -/
  name : Text
  /-- The second word, as written. -/
  type : Text
  /-- Whether the third word is the marker. -/
  required : Bool
  /-- The rest, without blanks around it. -/
  description : Text
deriving DecidableEq, Repr

/-- A parameter tag. -/
structure ParameterTag where
  /-- The parameter's name. -/
  name : Text
  /-- Its normalised type. -/
  type : Text
  /-- Whether it has to be given. -/
  required : Bool
  /-- The prose. -/
  description : Text
  /-- The example, cast to the type. -/
  sample : Option Scalar
  /-- The nested schema. -/
  properties : Option Properties
deriving DecidableEq

/-- What a description holds. -/
structure Description where
  /-- The prose. -/
  prose : Text
  /-- The example, cast to the type. -/
  sample : Option Scalar
  /-- The nested schema. -/
  properties : Option Properties
deriving DecidableEq

/-- The word that makes a parameter required. -/
def requiredMarker : Text := "required"

/-- Splits a parameter text into its parts. -/
def splitParameter (tag : Text) (text : Text) : Except Error ParameterHead :=
  if (words text).length < 2 then .error (.malformedTag tag (.tooFewWords text))
  else
    let (name, rest) := takeToken text
    let (type, rest) := takeToken rest
    let (marker, remainder) := takeToken rest
    let required := marker == requiredMarker
    let description := trim (if required then remainder else rest)
    .ok ⟨name, type, required, description⟩

/-- Casts the text of an example to a type. A truth value is false for `false`, `0` and
nothing. Literals and types of other names keep their text. -/
def castExample (tag : Text) (type : Text) (text : Text) : Except Error Scalar :=
  let text := trim text
  let bad : Error := .malformedTag tag (.badExample text type)
  match CanonicalType.ofName? type with
  | some .boolean => .ok (.bool !(text.isEmpty || text = "false" || text = "0"))
  | some .integer =>
    match readInt? text with
    | some i => .ok (.int i)
    | none => .error bad
  | some .number | some .float =>
    match readFloat? text with
    | some x => .ok (.float x)
    | none => .error bad
  | _ => .ok (.str text)

/-! ## Finding the example -/

/-- What starts an example. -/
def exampleMarker : Text := "Example:"

/-- Cuts an inline example out of a text: what stands before it, its own text to the end of
the line, and what follows. The marker stands at the very start or after a blank, which goes
with it. `start` tells whether this is the very start. -/
def cutInline? : (start : Bool) → Text → Option (Text × Text × Text)
  | _, [] => none
  | start, c :: cs =>
    let found := fun (rest : Text) =>
      some ([], rest.takeWhile (· ≠ ('\n' : CodePoint)), rest.dropWhile (· ≠ ('\n' : CodePoint)))
    match (if start then dropStart? exampleMarker (c :: cs) else none) with
    | some rest => found rest
    | none =>
      match (if isBlank c then dropStart? exampleMarker cs else none) with
      | some rest => found rest
      | none => (cutInline? false cs).map fun r => (c :: r.1, r.2)

/-- Takes an inline example out of a text. The rest is trimmed when there is a marker, and an
empty example is none. -/
def takeInline (text : Text) : Text × Option Text :=
  match cutInline? true text with
  | none => (text, none)
  | some (before, found, after) =>
    let raw := trim found
    (trim (before ++ after), if raw.isEmpty then none else some raw)

/-- The brackets around a literal example of a type, for the types that have one. -/
def literalBrackets? (type : Text) : Option (CodePoint × CodePoint) :=
  match CanonicalType.ofName? type with
  | some .object => some ('\x7b', '\x7d')
  | some .array => some ('[', ']')
  | _ => none

/-- The literal that follows a line feed, blanks, the marker and blanks, if the whole text
ends in its closing bracket. -/
def literalAt? (opening closing : CodePoint) (s : Text) : Option Text := do
  let rest ← dropStart? exampleMarker (trimStart s)
  let literal := trimEnd (trimStart rest)
  if literal.head? = some opening && literal.getLast? = some closing then some literal else none

/-- Cuts a literal example off the end of a text: what stands before the first line feed that
leads to one, and the literal. -/
def cutLiteral? (opening closing : CodePoint) : Text → Option (Text × Text)
  | [] => none
  | c :: cs =>
    match (if c = '\n' then literalAt? opening closing cs else none) with
    | some literal => some ([], literal)
    | none => (cutLiteral? opening closing cs).map fun r => (c :: r.1, r.2)

/-! ## Finding the block -/

/-- What heads a property block. -/
def blockMarker : Text := "properties:"

/-- Whether a text's first line with more than spaces and tabs is indented and starts with
something other than a hyphen. -/
def startsIndented (s : Text) : Bool :=
  match (lines s).dropWhile (fun line => line.all isIndent) with
  | [] => false
  | line :: _ =>
    line.head?.any isIndent &&
      match line.dropWhile isIndent with
      | [] => false
      | c :: _ => !isBlank c && c ≠ '-'

/-- The block below a header line that starts here. -/
def headedBlock? (s : Text) : Option Text :=
  match dropStart? blockMarker s with
  | none => none
  | some rest =>
    match rest.dropWhile isIndent with
    | .char '\n' :: block => if startsIndented block then some block else none
    | _ => none

/-- Cuts a property block off a text: the prose before the header, and the lines after it. The
header stands at the start of a line or after a space or tab, which goes with it. -/
def cutBlock? : (lineStart : Bool) → Text → Option (Text × Text)
  | _, [] => none
  | lineStart, c :: cs =>
    match (if lineStart then headedBlock? (c :: cs) else none) with
    | some block => some ([], block)
    | none =>
      match (if isIndent c then headedBlock? cs else none) with
      | some block => some ([], block)
      | none => (cutBlock? (c = '\n') cs).map fun r => (c :: r.1, r.2)

/-- Splits a text into prose and the schema of its property block. -/
def splitBlockWith (readBlock : Text → Except Error Properties) (text : Text) :
    Except Error (Text × Option Properties) :=
  match cutBlock? true text with
  | none => .ok (text, none)
  | some (prose, block) => (readBlock block).map fun properties => (prose, some properties)

/-! ## Descriptions and whole tags -/

/-- Takes a description apart. -/
def parseDescriptionWith (readBlock : Text → Except Error Properties) (tag : Text)
    (type : Text) (text : Text) : Except Error Description := do
  match literalBrackets? type with
  | some (opening, closing) =>
    let (text, sample) ← match cutLiteral? opening closing text with
      | none => .ok (text, none)
      | some (before, literal) => (castExample tag type literal).map fun e => (before, some e)
    let (prose, properties) ← splitBlockWith readBlock text
    .ok ⟨trim prose, sample, properties⟩
  | none =>
    let (prose, properties) ← splitBlockWith readBlock text
    let (prose, raw) := takeInline prose
    let sample ← match raw with
      | none => .ok none
      | some raw => (castExample tag type raw).map some
    .ok ⟨trim prose, sample, properties⟩

/-- Reads a whole parameter text. -/
def parseParameterWith (readBlock : Text → Except Error Properties) (tag : Text)
    (text : Text) : Except Error ParameterTag := do
  let head ← splitParameter tag text
  let type := normalizeType head.type
  let d ← parseDescriptionWith readBlock tag type head.description
  .ok ⟨head.name, type, head.required, d.prose, d.sample, d.properties⟩

end RouteDocs.Tag
