import RouteDocs.Digest
import RouteDocs.Endpoint
import RouteDocs.Route.Basic
import RouteDocs.Route.Template
import RouteDocs.Synthesis
import RouteDocs.Text.LetterCase

/-!
# `RouteDocs.Endpoint.OfRoute`: documenting a route

`Endpoint.ofRoute` resolves a route's parameters, responses, group and headers. Path
variables come first: each has to name an argument of the handler. Query parameters, the
identifier, body parameters and responses follow, in this order, so a route with several
faults fails by the first of them. Values that the author did not give are synthesised on the way.

A handler without tags is not documented.
-/

set_option autoImplicit false

namespace RouteDocs

open Text Tag

namespace Route

/-- The methods in upper case, without `HEAD`. -/
def listedMethods (r : Route) : List Text :=
  (r.methods.map upper).filter (· ≠ Text.ofString "HEAD")

/-- The route in one line: its methods and its path template. -/
def describe (r : Route) : Text :=
  "[" ++ ("," : Text).intercalate r.listedMethods ++ "] " ++ r.uri

/-- The identifier of a signature. A signature without a UTF-8 form has none. -/
def signatureId (uri : Text) (methods : List Text) : Except Fault Text :=
  match Digest.md5Hex? (uri ++ ":" ++ methods.flatten) with
  | some id => .ok id
  | none => .error .unencodable

/-- The last part of the handler's name. -/
def title (r : Route) : Text :=
  ((splitWhere ("@.:" : Text).contains r.handler).getLast?).getD []

/-- Whether a tag asks for a known caller. Case does not matter here. -/
def isAuthenticated (r : Route) : Bool :=
  r.tags.any fun t => lower t.name = "authenticated"

/-- The group that the first group tag with a text names, or that of the controller, or the
default. -/
def groupOr (r : Route) (default : Text) : Text :=
  let named := r.tags.findSome? fun t =>
    let content := trim t.content
    if t.name = ("group" : Text) && !content.isEmpty then some content else none
  match named with
  | some g => g
  | none =>
    match r.controllerGroup with
    | some g => if g.isEmpty then default else g
    | none => default

/-- The headers that a caller sends. Without a known caller there is none to authorise. -/
def sentHeaders (r : Route) : List (Text × Text) :=
  if r.isAuthenticated then r.headers
  else r.headers.filter fun h => lower h.1 ≠ "authorization"

end Route

namespace Endpoint

variable {σ : Type} [RandomSource σ]

/-- A result, or a failure of the computation. -/
def lift {α : Type} : Except Error α → Synth σ α
  | .ok a => pure a
  | .error e => throw e

/-- A required parameter with a synthesised value. -/
def synthesized (now : Moment) (location name : Text) (type : Option Text) : Synth σ Parameter := do
  let type := normalizeType (type.getD [])
  let value ← Synthesis.synthesize now type none
  pure { name := name, type := type, location := location, required := true, value := value }

/-- The parameters of path variables, by the arguments of the handler. -/
def pathParameters (now : Moment) (arguments : List (Text × Argument)) (title : Text) :
    List Text → Synth σ (List (Scalar × Parameter))
  | [] => pure []
  | name :: rest => do
    match Entries.get? name arguments with
    | none => throw (.unresolvedPathParameter name title)
    | some argument =>
      let p ← synthesized now "path" name argument.type
      let ps ← pathParameters now arguments title rest
      pure ((.str name, p) :: ps)

/-- The parameters of a structured input. -/
def fieldParameters (now : Moment) : List Argument → Synth σ (List (Scalar × Parameter))
  | [] => pure []
  | field :: rest => do
    let p ← synthesized now "body" field.name field.type
    let ps ← fieldParameters now rest
    pure ((.str field.name, p) :: ps)

/-- The schema that a property of a block stands for: a type name alone is a schema too. -/
def propertySchema (tag : Text) (name : Scalar) : Value → Except Error (List (Scalar × Value))
  | .map entries => .ok entries
  | .scalar .null => .ok [(.str "type", .null)]
  | .scalar (.str s) => .ok [(.str "type", .str s)]
  | v => do
    let name ← name.display.mapError .fault
    let shown ← v.literal.mapError .fault
    .error (.malformedTag tag (.propertyNotSchema name shown))

/-- The nested schema of a property: its properties, or its elements. -/
def nestedSchema (tag : Text) (name : Scalar) (schema : List (Scalar × Value)) :
    Except Error (Option Properties) :=
  match (Entries.get? (.str "properties") schema).getD .null with
  | .scalar .null =>
    match Entries.get? (.str "items") schema with
    | some (.map items) => .ok (some [(.str "items", .map items)])
    | _ => .ok none
  | .map entries => .ok (some entries)
  | _ => do
    let name ← name.display.mapError .fault
    .error (.malformedTag tag (.nestedNotMap name))

/-- The type of a property. Nested properties without a type make an object. -/
def propertyType (schema : List (Scalar × Value)) (nested : Option Properties) :
    Except Fault Text :=
  let given := (Entries.get? (.str "type") schema).getD .null
  if given.isTruthy then normalizeTypeValue given
  else if (nested.getD []).isEmpty then .ok CanonicalType.string.name
  else .ok CanonicalType.object.name

/-- The description of a property, as a text. -/
def propertyDescription (schema : List (Scalar × Value)) : Except Fault Text :=
  let given := (Entries.get? (.str "description") schema).getD .null
  if given.isTruthy then given.display else .ok []

/-- A parameter from a property of a block. Its name has to be a text. -/
def ofProperty (now : Moment) (tag : Text) (location : Text) (name : Scalar) (node : Value) :
    Synth σ (Scalar × Parameter) := do
  let schema ← lift (propertySchema tag name node)
  let nested ← lift (nestedSchema tag name schema)
  let type ← Synthesis.orThrow (propertyType schema nested)
  let (value, nested) ← match Entries.get? (.str "example") schema with
    | some v => pure (v, nested)
    | none => Synthesis.valueFor now type nested
  let description ← Synthesis.orThrow (propertyDescription schema)
  match Check.text? name with
  | none => throw (.invalid ⟨1, .parameter⟩)
  | some text =>
    pure (name, {
      name := text
      type := type
      location := location
      required := ((Entries.get? (.str "required") schema).getD (.bool false)).isTruthy
      description := description
      value := value
      properties := nested })

/-- The parameters of the properties of a block. -/
def ofProperties (now : Moment) (tag : Text) (location : Text) :
    Properties → Synth σ (List (Scalar × Parameter))
  | [] => pure []
  | (name, node) :: rest => do
    let p ← ofProperty now tag location name node
    let ps ← ofProperties now tag location rest
    pure (p :: ps)

/-- The parameter name whose properties stand beside it instead of below it. -/
def compositionName : Text := "allOf"

/-- The parameters of one tag. -/
def ofTag (now : Moment) (location : Text) (tag : AnnotationTag) :
    Synth σ (List (Scalar × Parameter)) := do
  let p ← lift (parseParameter tag.name tag.content)
  if p.name = compositionName then ofProperties now tag.name location (p.properties.getD [])
  else do
    let (value, properties) ← match p.sample with
      | some s => pure (.scalar s, p.properties)
      | none => Synthesis.valueFor now p.type p.properties
    pure [(.str p.name, {
      name := p.name
      type := p.type
      location := location
      required := p.required
      description := p.description
      value := value
      properties := properties })]

/-- The parameters of the tags with a name. -/
def tagParameters (now : Moment) (tagName location : Text) :
    List AnnotationTag → Synth σ (List (Scalar × Parameter))
  | [] => pure []
  | tag :: rest =>
    if tag.name = tagName then do
      let ps ← ofTag now location tag
      let qs ← tagParameters now tagName location rest
      pure (ps ++ qs)
    else tagParameters now tagName location rest

/-- The body parameters: the fields of a structured input, or those of tags without one. -/
def bodyParametersOf (now : Moment) (r : Route) : Synth σ (List (Scalar × Parameter)) :=
  match r.inputFields with
  | none => tagParameters now "bodyParam" "body" r.tags
  | some fields => fieldParameters now fields

/-- Parameters under their names. Of two with one key the later counts, at the place of the
first; and then so it is of two whose keys only spell the same name. -/
def byName (ps : List (Scalar × Parameter)) : List (Text × Parameter) :=
  Entries.ofList ((Entries.ofList ps).map fun p => (p.2.name, p.2))

/-- A response with an example body. Without content there is none. -/
def withSample (now : Moment) (r : Response) : Synth σ Response := do
  if r.status = 204 then pure { r with content := none, sample := none }
  else
    match r.sample with
    | some _ => pure r
    | none =>
      match r.content with
      | some (e :: es) =>
        let (v, content) ← Synthesis.compositeOfEntries now (e :: es)
        pure { r with content := some content, sample := some v }
      | _ => pure { r with sample := some (.map []) }

/-- The responses of response tags. -/
def responsesOf (now : Moment) : List AnnotationTag → Synth σ (List (Int × Response))
  | [] => pure []
  | tag :: rest =>
    if tag.name = "response" then do
      let parsed ← lift (parseResponse tag.name tag.content)
      let r ← withSample now parsed
      let rs ← responsesOf now rest
      pure ((r.status, r) :: rs)
    else responsesOf now rest

/-- The responses of return tags. -/
def returnsOf : List AnnotationTag → Except Error (List (Int × Response))
  | [] => .ok []
  | tag :: rest =>
    if tag.name = "return" then do
      let r ← parseReturn tag.name tag.content
      let rs ← returnsOf rest
      .ok ((r.status, r) :: rs)
    else returnsOf rest

/-- The responses of a route: those of response tags, or those of return tags if there is no
response tag. -/
def allResponses (now : Moment) (tags : List AnnotationTag) : Synth σ (List (Int × Response)) := do
  match ← responsesOf now tags with
  | [] => lift ((returnsOf tags).map Entries.ofList)
  | rs => pure (Entries.ofList rs)

/-- Documents a route, unless its handler has no tags. -/
def ofRoute (now : Moment) (defaultGroup : Text) (r : Route) : Synth σ (Option Endpoint) := do
  if r.tags.isEmpty then pure none
  else do
    let methods := r.listedMethods
    let arguments := Entries.ofList (r.arguments.map fun a => (a.name, a))
    let path ← pathParameters now arguments r.title (Template.variableNames r.uri)
    let query ← tagParameters now "queryParam" "query" r.tags
    let id ← Synthesis.orThrow (Route.signatureId r.uri methods)
    let body ← bodyParametersOf now r
    let responses ← allResponses now r.tags
    pure (some {
      id := id
      group := r.groupOr defaultGroup
      title := r.title
      description := if r.longDescription.isEmpty then r.shortDescription else r.longDescription
      methods := methods
      uri := r.uri
      parameters := byName (path ++ query)
      bodyParameters := byName body
      authenticated := r.isAuthenticated
      responses := responses
      headers := r.sentHeaders })

end Endpoint

end RouteDocs
