import RouteDocs.Text.Blank
import RouteDocs.Value.Literal

/-!
# `RouteDocs.TypeName`: names of types

Authors write types loosely. A few spellings have a canonical name; every other word is
kept, since it may name a schema of the document. No word at all means a string.
-/

set_option autoImplicit false

namespace RouteDocs

open Text

/-- The types with a meaning of their own. -/
inductive CanonicalType where
  /-- A whole number. -/
  | integer
  /-- A number. -/
  | number
  /-- A number of single precision. -/
  | float
  /-- A truth value. -/
  | boolean
  /-- A text. -/
  | string
  /-- A list. -/
  | array
  /-- A mapping. -/
  | object
  /-- A moment in ISO 8601 form. -/
  | date
  /-- Whatever a referenced schema says. -/
  | schema
deriving DecidableEq, Repr

namespace CanonicalType

/-- All canonical types. -/
def all : List CanonicalType :=
  [.integer, .number, .float, .boolean, .string, .array, .object, .date, .schema]

/-- The name of a type. -/
def name : CanonicalType → Text
  | .integer => "integer"
  | .number => "number"
  | .float => "float"
  | .boolean => "boolean"
  | .string => "string"
  | .array => "array"
  | .object => "object"
  | .date => "date"
  | .schema => "schema"

/-- The type of a name. -/
def ofName? (s : Text) : Option CanonicalType := all.find? fun t => t.name = s

end CanonicalType

/-- Other spellings of canonical names. -/
def typeSynonyms : List (Text × CanonicalType) :=
  [("int", .integer), ("bool", .boolean), ("double", .float), ("ref", .schema)]

/-- The name that a word for a type stands for. -/
def normalizeType (word : Text) : Text :=
  let word := trim word
  if word = "" then CanonicalType.string.name
  else match typeSynonyms.lookup word with
    | some t => t.name
    | none => word

/-- The name that a value for a type stands for. No value means a string. -/
def normalizeTypeValue : Value → Except Fault Text
  | .scalar .null => .ok CanonicalType.string.name
  | v => v.display.map normalizeType

end RouteDocs
