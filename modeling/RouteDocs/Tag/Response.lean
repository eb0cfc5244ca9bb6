import RouteDocs.Tag.PropertyBlock
import RouteDocs.Text.Word

/-!
# `RouteDocs.Tag.Response`: response and return tags

A response tag reads `[status] [JSON literal] [description]`, and lines after the first
may form a property block, with or without its header. A return tag names a type, which
becomes a reference to a component schema; a container around it, or brackets after it,
make that a list.
-/

set_option autoImplicit false

namespace RouteDocs

open Text Tag

/-- A documented response. -/
structure Response where
  /-- The status code. -/
  status : Int := 200
  /-- The prose. -/
  description : Text := "success"
  /-- The property schema of the body. -/
  content : Option Properties := none
  /-- The example body. -/
  sample : Option Value := none
  /-- A schema that stands for itself, as a return tag gives it. -/
  schemaRef : Option Properties := none
deriving DecidableEq

namespace Tag

/-- The status at the start of a text, three decimal digits that form a word, and the text
after it. Without one it is 200. -/
def takeStatus (text : Text) : Nat × Text :=
  match trimStart text with
  | a :: b :: c :: rest =>
    match decimals? [a, b, c] with
    | some digits => if rest.head?.all isBlank then (ofDecimals digits, rest) else (200, text)
    | none => (200, text)
  | _ => (200, text)

/-- The JSON literal at the start of a text, and the text after it. -/
def takeJson (tag : Text) (text : Text) : Except Error (Option Value × Text) :=
  match text with
  | [] => .ok (none, text)
  | c :: _ =>
    if c = '\x7b' || c = '[' then
      match Json.readPart text with
      | .ok (v, rest) => .ok (some v, rest)
      | .error (.malformed problem _) => .error (.malformedTag tag (.badJson problem))
      | .error .tooManyDigits => .error (.fault .badValue)
      | .error .tooDeep => .error (.fault .endless)
    else .ok (none, text)

/-- Whether the first line of a block that is not blank reads as a key and not as a list
element. -/
def startsKeyMap (block : Text) : Bool :=
  match ((breakLines block).map trim).find? (!·.isEmpty) with
  | none => false
  | some line => line.head? != some (.char '-')

/-- Splits a text into prose and property schema, with or without a header line. -/
def splitResponseBlock (tag : Text) (text : Text) :
    Except Error (Text × Option Properties) := do
  let (prose, properties) ← splitBlock tag text
  match properties with
  | some p => .ok (prose, some p)
  | none =>
    let body := (prose.dropWhile (· ≠ ('\n' : CodePoint))).drop 1
    if startsKeyMap body then
      (parseBlock tag body).map fun p => (prose.takeWhile (· ≠ ('\n' : CodePoint)), some p)
    else .ok (prose, none)

/-- Reads a response tag. -/
def parseResponse (tag : Text) (text : Text) : Except Error Response := do
  let (status, rest) := takeStatus text
  let (sample, rest) ← takeJson tag (trimStart rest)
  let (prose, properties) ← splitResponseBlock tag rest
  let prose := trim prose
  .ok {
    status := status
    description := if prose.isEmpty then "success" else prose
    content := properties
    sample := sample }

/-! ## Return tags -/

/-- The words that may stand around a type to make it a list. -/
def containerWords : List Text := ["array", "Collection", "list", "List"]

/-- Whether `c` may stand in a qualified name. -/
def isNamePart (c : CodePoint) : Bool := isWord c || c = '\\' || c = '.'

/-- A return type: a qualified name, and whether it is that of a list's elements. -/
structure ReturnType where
  /-- The name, with its qualifiers. -/
  name : Text
  /-- Whether a list is returned. -/
  isList : Bool
deriving DecidableEq, Repr

/-- The text after a container word and its opening bracket. -/
def dropContainer? (token : Text) : Option Text :=
  containerWords.findSome? fun word =>
    match dropStart? word token with
    | some (c :: rest) => if c = '<' || c = '[' then some rest else none
    | _ => none

/-- A qualified name up to the end of a token. One closing bracket may follow it, and a pair
of brackets after that, which the result tells. -/
def nameToEnd? (token : Text) : Option (Text × Bool) :=
  let name := token.takeWhile isNamePart
  let rest := token.dropWhile isNamePart
  if name.isEmpty then none
  else if rest = "" || rest = ">" || rest = "]" then some (name, false)
  else if rest = "[]" || rest = ">[]" || rest = "][]" then some (name, true)
  else none

/-- Reads a return type. A container is tried first; what then fits no name is tried as a
name of its own. -/
def returnType? (token : Text) : Option ReturnType :=
  match (dropContainer? token).bind nameToEnd? with
  | some (name, _) => some ⟨name, true⟩
  | none => (nameToEnd? token).map fun r => ⟨r.1, r.2⟩

/-- The last part of a qualified name. -/
def unqualified (name : Text) : Text :=
  ((splitWhere ("\\." : Text).contains name).getLast?).getD []

/-- A reference to a component schema. -/
def schemaReference (name : Text) : Properties :=
  [(.str "$ref", .str ("#/components/schemas/" ++ name))]

/-- Reads a return tag. -/
def parseReturn (tag : Text) (text : Text) : Except Error Response :=
  let token := (takeToken text).1
  match returnType? (trimOf "\\/" token) with
  | none => .error (.malformedTag tag (.badReturnType token))
  | some type =>
    let name := unqualified type.name
    if type.isList then
      .ok {
        description := "Array of " ++ name ++ "s"
        schemaRef := some [(.str "type", .str "array"), (.str "items", .map (schemaReference name))] }
    else .ok { description := name, schemaRef := some (schemaReference name) }

end Tag

end RouteDocs
