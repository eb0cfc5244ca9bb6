import RouteDocs.Json.Writer
import RouteDocs.Tag.Parameter
import RouteDocs.Yaml.Content

/-!
# `RouteDocs.Tag.PropertyBlock`: property blocks

A property block is an indented YAML mapping whose lines may also be shorthand: a line
that reads like a parameter text, and not like YAML, stands for a property with that name,
type and description. Such lines are written out as flow mappings first; the block is then
read as YAML, and the types in it are normalised.

`parseParameter`, `parseDescription` and `splitBlock` are the readers of whole tags, with
blocks allowed. On a shorthand line no block can be found, so its reader is given one that
is never asked.
-/

set_option autoImplicit false

namespace RouteDocs.Tag

open Text

/-- Reads a single line as a parameter text. -/
def parseLine (tag : Text) (line : Text) : Except Error ParameterTag :=
  parseParameterWith (fun _ => .ok []) tag line

/-- Characters that in front of a line have a meaning in YAML. -/
def lineMarks : Text := "-\x7b[#'\""

/-- Whether a line, without blanks around it, is shorthand: at least two words, of which the
first has no colon, and no mark in front. -/
def isShorthand (line : Text) : Bool :=
  match line with
  | [] => false
  | c :: _ =>
    !lineMarks.contains c && !(takeToken line).1.contains ':' &&
      2 ≤ (words line).length

/-- The schema that a shorthand line stands for. -/
def leafSchema (p : ParameterTag) : Value :=
  .object ([("type", .str p.type), ("description", .str p.description)] ++
    (if p.required then [("required", .bool true)] else []) ++
    (match p.sample with
    | none => []
    | some s => [("example", .scalar s)]))

/-- Writes a shorthand line out as YAML at its indentation. Other lines stay as they are. -/
def expandLine (tag : Text) (line : Text) : Except Error Text :=
  let body := trim line
  if isShorthand body then do
    let p ← parseLine tag body
    let leaf ← (Json.write .compact (leafSchema p)).mapError .fault
    .ok (line.takeWhile isBlank ++ Json.stringText p.name ++ ": " ++ leaf)
  else .ok line

/-- The key under which a schema has its type. -/
def typeKey : Scalar := .str "type"

/-- How deep a block may be nested. The walk over it goes one step deeper for every mapping,
and two for every list. -/
def maxSchemaDepth : Nat := 980

mutual

/-- Normalises every type name in a schema, in which there is room for so many steps down. A
type has to be a name, unless `type` is itself the name of a field with a schema. A schema that
contains itself has no end. -/
def normalizeSchema (tag : Text) : (room : Nat) → Value → Except Error Value
  | room, .map entries => (normalizeEntries tag room entries).map .map
  | 0, .list _ => .error (.fault .endless)
  | room + 1, .list items => (normalizeItems tag room items).map .list
  | _, .loop _ => .error (.fault .endless)
  | _, .scalar s => .ok (.scalar s)
  | _, .pair key value => .ok (.pair key value)
  | _, .set members => .ok (.set members)

/-- Normalises the elements of a list. -/
def normalizeItems (tag : Text) : (room : Nat) → List Value → Except Error (List Value)
  | _, [] => .ok []
  | 0, _ :: _ => .error (.fault .endless)
  | room + 1, v :: vs => do
    let v ← normalizeSchema tag room v
    let vs ← normalizeItems tag (room + 1) vs
    .ok (v :: vs)

/-- Normalises the entries of a mapping. -/
def normalizeEntries (tag : Text) :
    (room : Nat) → List (Scalar × Value) → Except Error (List (Scalar × Value))
  | _, [] => .ok []
  | 0, _ :: _ => .error (.fault .endless)
  | room + 1, (k, v) :: es => do
    let v ←
      if k = typeKey then
        match v with
        | .scalar (.str s) => .ok (.str (normalizeType s))
        | .map entries => normalizeSchema tag room (.map entries)
        | .list items => normalizeSchema tag room (.list items)
        | .loop _ => .error (.fault .endless)
        | other => do
          let shown ← other.literal.mapError .fault
          .error (.malformedTag tag (.typeNotName shown))
      else normalizeSchema tag room v
    let es ← normalizeEntries tag (room + 1) es
    .ok ((k, v) :: es)

end

/-- A failure to read a block as YAML. -/
def blockError (tag : Text) : Yaml.Failure → Error
  | .malformed => .malformedTag tag .badBlock
  | .fault f => .fault f

/-- Reads a property block into a schema. -/
def parseBlock (tag : Text) (block : Text) : Except Error Properties := do
  let ls ← (breakLines (dedent block)).mapM (expandLine tag)
  let part ← (Yaml.read (unlines ls)).mapError (blockError tag)
  match part.value with
  | .scalar .null => .ok []
  | .map entries => normalizeEntries tag maxSchemaDepth entries
  | _ => .error (.malformedTag tag .blockNotMap)

/-- Splits a text into prose and the schema of its property block. -/
def splitBlock (tag : Text) (text : Text) : Except Error (Text × Option Properties) :=
  splitBlockWith (parseBlock tag) text

/-- Takes a description apart. -/
def parseDescription (tag : Text) (type : Text) (text : Text) : Except Error Description :=
  parseDescriptionWith (parseBlock tag) tag type text

/-- Reads a parameter tag. -/
def parseParameter (tag : Text) (text : Text) : Except Error ParameterTag :=
  parseParameterWith (parseBlock tag) tag text

end RouteDocs.Tag
