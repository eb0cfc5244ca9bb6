import RouteDocs.Error
import RouteDocs.PathTree
import RouteDocs.Random.Source
import RouteDocs.TypeName

/-!
# `RouteDocs.Synthesis`: example values from types and schemas

Where the author gives no example, one is made up from the type: a small whole number, a
price-like fraction, a truth value, a short text, or a moment of the current month. Random
choices come from a `RandomSource`; the moment that counts as now is given.

A nested schema is walked field by field. The values found are listed under the dotted
paths of their fields, an array standing for its first element, and then put together as a
tree. Choices that were drawn before a failure stay drawn.
-/

set_option autoImplicit false

namespace RouteDocs

open Text Number

/-- Computations that draw from a random source and may fail. -/
abbrev Synth (σ : Type) := ExceptT Error (StateM σ)

namespace Synthesis

variable {σ : Type} [RandomSource σ]

/-- A result, or a fault of the computation. -/
def orThrow {α : Type} : Except Fault α → Synth σ α
  | .ok a => pure a
  | .error f => throw (.fault f)

/-- Draws a whole number from zero to `bound`. -/
def drawUpTo (bound : Nat) : Synth σ (Fin (bound + 1)) := fun s =>
  let (n, s) := RandomSource.upTo bound s
  (.ok n, s)

/-- Draws a fraction. -/
def drawUnit : Synth σ Binary64 := fun s =>
  let (x, s) := RandomSource.unit s
  (.ok x, s)

/-- The characters of a made-up text. -/
def alphabet : Text := "abcdefghijklmnopqrstuvwxyzABCDEFGHIJKLMNOPQRSTUVWXYZ0123456789"

/-- The length of a made-up text. -/
def textLength : Nat := 12

/-- Draws `n` characters. -/
def drawText : (n : Nat) → Synth σ Text
  | 0 => pure []
  | n + 1 => do
    let i ← drawUpTo (alphabet.length - 1)
    let rest ← drawText n
    pure (alphabet.getD i.val 'a' :: rest)

/-- Draws a moment from the start of the month of `now` to `now`, to the second. -/
def drawMoment (now : Moment) : Synth σ Moment := do
  let seconds ← drawUpTo now.secondsIntoMonth
  orThrow (now.drawn seconds.val)

/-- The first part of a value, for a type that a referenced schema stands for. -/
def firstPart : Option Value → Value
  | some (.map ((_, v) :: _)) => v
  | some (.list (v :: _)) => v
  | some (.pair k _) => k
  | _ => .null

/-- An example of a type. A type of another name counts as a string. The schema stands for
the value of a list or mapping. -/
def synthesize (now : Moment) (type : Text) (schema : Option Value) : Synth σ Value := do
  match (CanonicalType.ofName? type).getD .string with
  | .integer =>
    let n ← drawUpTo 19
    pure (.int (1 + n.val))
  | .number | .float =>
    let x ← drawUnit
    pure (.float (((Binary64.ofInt 1000).mul x).roundPlaces 2))
  | .boolean =>
    let x ← drawUnit
    pure (.bool (x.lt (Binary64.ofRatio false 1 2)))
  | .string =>
    let s ← drawText textLength
    pure (.str s)
  | .date =>
    let m ← drawMoment now
    pure (.str (m.text 'T'))
  | .array => pure (schema.getD (.list []))
  | .object => pure (schema.getD (.map []))
  | .schema => pure (firstPart schema)

/-! ## Nested schemas -/

/-- How a mapping counts as a schema. -/
inductive Shape where
  /-- A list of objects, whose properties are under `items`. -/
  | listOfObjects
  /-- An object, whose fields are under `properties`. -/
  | object
  /-- A field of the named type. -/
  | field (type : Text)
  /-- Fields by name. -/
  | fields
deriving DecidableEq, Repr

/-- The mapping under a text key. -/
def mapUnder? (key : String) (entries : List (Scalar × Value)) : Option (List (Scalar × Value)) :=
  match Entries.get? (.str key) entries with
  | some (.map es) => some es
  | _ => none

/-- How the entries of a mapping count as a schema. -/
def shape (entries : List (Scalar × Value)) : Shape :=
  if ((mapUnder? "items" entries).bind (mapUnder? "properties")).isSome then .listOfObjects
  else if (mapUnder? "properties" entries).isSome then .object
  else match Entries.get? (.str "type") entries with
    | some (.scalar (.str type)) => .field type
    | _ => .fields

/-- A value that was found for a field of a schema. -/
structure Finding where
  /-- The path of the field. -/
  path : Text
  /-- The value. -/
  value : Value
  /-- The keys under which the schema gives the value, unless it was made up. -/
  source : Option (List Scalar)

/-- The path of a field below a path. -/
def below (path key : Text) : Text := path ++ "." ++ key

mutual

/-- The values of the fields below a node, in order. `address` has the keys that lead to the
node, the last one first. -/
def collect (now : Moment) (path : Text) (address : List Scalar) : Value → Synth σ (List Finding)
  | .map entries =>
    match shape entries with
    | .listOfObjects => collectItems now path address entries
    | .object => collectProperties now path address entries
    | .field type =>
      match Entries.get? (.str "example") entries with
      | some v => pure [⟨path, v, some (.str "example" :: address).reverse⟩]
      | none => do
        let v ← synthesize now type none
        pure [⟨path, v, none⟩]
    | .fields => collectFields now path address entries
  | _ => pure []

/-- The values of fields by name. -/
def collectFields (now : Moment) (path : Text) (address : List Scalar) :
    List (Scalar × Value) → Synth σ (List Finding)
  | [] => pure []
  | (k, v) :: es => do
    let name ← orThrow k.display
    let first ← collect now (below path name) (k :: address) v
    let others ← collectFields now path address es
    pure (first ++ others)

/-- The values of the fields under `properties`. An object without any is an empty mapping,
unless it is the whole schema. -/
def collectProperties (now : Moment) (path : Text) (address : List Scalar) :
    List (Scalar × Value) → Synth σ (List Finding)
  | [] => pure []
  | (k, v) :: es =>
    if k == .str "properties" then
      match v with
      | .map [] => pure (if path.isEmpty then [] else [⟨path, .map [], none⟩])
      | v => collect now path (k :: address) v
    else collectProperties now path address es

/-- The values of the fields of the first element, found under `items`. -/
def collectItems (now : Moment) (path : Text) (address : List Scalar) :
    List (Scalar × Value) → Synth σ (List Finding)
  | [] => pure []
  | (k, v) :: es =>
    if k == .str "items" then
      match v with
      | .map inner => collectElement now path (k :: address) inner
      | _ => pure []
    else collectItems now path address es

/-- The values of the fields of the first element, found under `properties`. -/
def collectElement (now : Moment) (path : Text) (address : List Scalar) :
    List (Scalar × Value) → Synth σ (List Finding)
  | [] => pure []
  | (k, v) :: es =>
    if k == .str "properties" then
      match v with
      | .map fields => collectFields now (below path "0") (k :: address) fields
      | _ => pure []
    else collectElement now path address es

end

/-- The separator of field paths. -/
def separator : Text := "."

/-- The findings by their paths. Of two with one path the later counts, at the place of the
first. -/
def byPath (found : List Finding) : List (Text × Finding) :=
  Entries.ofList (found.map fun f => (f.path, f))

/-- The tree of what was found. -/
def treeOf (found : List Finding) : Except Fault Value :=
  PathTree.ofFlat separator ((byPath found).map fun e => (e.1, e.2.value))

/-! An example that the schema gives is part of the tree, so a field with a dotted name below
it extends the example itself, and the schema then shows it extended. -/

/-- The schema with the value under a list of keys replaced. -/
def replaceAt (new : Value) : List Scalar → Value → Value
  | [], _ => new
  | key :: rest, .map entries =>
    .map (entries.map fun e => if e.1 == key then (e.1, replaceAt new rest e.2) else e)
  | _ :: _, v => v

/-- Puts the given examples into a schema as the writes that follow each of them leave them. -/
def settleSources : List (Option (List Scalar) × List Text × Value) → Value → Value
  | [], schema => schema
  | (source, place, value) :: later, schema =>
    let schema := match source with
      | some address => replaceAt (PathTree.settle (later.map (·.2)) place value) address schema
      | none => schema
    settleSources later schema

/-- The schema with the examples that it gives as the tree of what was found has them. -/
def schemaAfter (found : List Finding) (schema : Value) : Except Fault Value := do
  let flat := byPath found
  let writes := flat.map fun e => (e.1, e.2.value)
  let placed ← PathTree.placements separator (← PathTree.root separator writes) writes
  return settleSources ((flat.map (·.2.source)).zip placed) schema

/-- The example that a nested schema describes. -/
def composite (now : Moment) (schema : Value) : Synth σ Value := do
  let found ← collect now [] [] schema
  orThrow (treeOf found)

/-- The example that a nested schema describes, and the schema as it is left. -/
def compositeWithSchema (now : Moment) (schema : Value) : Synth σ (Value × Value) := do
  let found ← collect now [] [] schema
  let tree ← orThrow (treeOf found)
  return (tree, ← orThrow (schemaAfter found schema))

/-- The entries of a nested schema and its example, from its entries. -/
def compositeOfEntries (now : Moment) (entries : List (Scalar × Value)) :
    Synth σ (Value × List (Scalar × Value)) := do
  match ← compositeWithSchema now (.map entries) with
  | (v, .map entries) => pure (v, entries)
  | (v, _) => pure (v, entries)

/-- The example of a parameter, from its nested schema if it has one, and that schema as it is
left. -/
def valueFor (now : Moment) (type : Text) (properties : Option (List (Scalar × Value))) :
    Synth σ (Value × Option (List (Scalar × Value))) := do
  match properties with
  | some (e :: es) =>
    match Entries.get? (.str "$ref") (e :: es) with
    | some ref => return (← synthesize now type (some (.object [("$ref", ref)])), properties)
    | none =>
      match CanonicalType.ofName? type with
      | some .object =>
        let (v, entries) ← compositeOfEntries now (e :: es)
        return (v, some entries)
      | some .array =>
        let (v, entries) ← compositeOfEntries now (e :: es)
        match v with
        | .list items => return (.list items, some entries)
        | v => return (.list [v], some entries)
      | _ => return (← synthesize now type none, properties)
  | _ => return (← synthesize now type none, properties)

end Synthesis

end RouteDocs
