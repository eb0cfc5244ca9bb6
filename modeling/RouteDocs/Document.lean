import RouteDocs.CodeSample
import RouteDocs.Document.Merge
import RouteDocs.Settings
import RouteDocs.Text.LetterCase

/-!
# `RouteDocs.Document`: the OpenAPI document

Endpoints are grouped in the order in which their groups first appear. Every endpoint gives
one operation for each of its methods under its path; a later one with the same path and
method replaces an earlier one. The groups that the settings name also give component
schemas for their body parameters. At the end the base document is merged over the whole.
-/

set_option autoImplicit false

namespace RouteDocs.Document

open Text Number

/-- The version of the document format. -/
def formatVersion : Text := "3.0.0"

/-- Endpoints by group, groups in the order of first appearance. -/
def groupEndpoints (es : List Endpoint) : List (Text × List Endpoint) :=
  es.foldl (fun groups e => Entries.append e.group e groups) []

/-! ## Schemas -/

/-- Types that are written as they are. -/
def plainTypes : List Text := ["integer", "number", "boolean", "string", "array", "object"]

/-- Types with a schema of their own. -/
def typeSchemas : List (Text × List (String × Value)) :=
  [("float", [("type", .str "number"), ("format", .str "float")]),
   ("date", [("type", .str "string"), ("format", .str "date-time")]),
   ("schema", [("type", .str "object")]),
   ("json", [("type", .str "object")])]

/-- The key of a reference. -/
def refKey : Scalar := .str "$ref"

/-- The schema of a type. A type of another name refers to a component schema. -/
def typeSchema (type : Text) : List (Scalar × Value) :=
  match typeSchemas.lookup type with
  | some fields => fields.map fun f => (.str f.1, f.2)
  | none =>
    if plainTypes.contains type then [(.str "type", .str type)]
    else [(refKey, .str ("#/components/schemas/" ++ type))]

/-- The schema of a body parameter. -/
def propertySchema (p : Parameter) : List (Scalar × Value) :=
  let properties := p.properties.getD []
  match Entries.get? refKey properties with
  | some ref => [(refKey, ref)]
  | none =>
    let schema := typeSchema p.type
    if Entries.has refKey schema then schema
    else
      let nested : List (Scalar × Value) :=
        if properties.isEmpty then []
        else if p.type = "array" then
          let items := (Entries.get? (.str "items") properties).getD .null
          [(.str "items",
            if items.isTruthy then items
            else .object [("type", .str "object"), ("properties", .map properties)])]
        else [(.str "properties", .map properties)]
      let prose : List (Scalar × Value) :=
        if p.description = "" then [] else [(.str "description", .str p.description)]
      schema ++ nested ++ prose ++ [(.str "example", p.value)]

/-- The schemas of parameters under their names. -/
def propertySchemas (ps : List (Text × Parameter)) : Value :=
  .ofFields (ps.map fun p => (p.1, .map (propertySchema p.2)))

/-- The names of the parameters that have to be given, as a field unless there are none. -/
def requiredField (ps : List (Text × Parameter)) : List (String × Value) :=
  let names := (ps.filter fun p => p.2.required).map fun p => Value.str p.1
  if names.isEmpty then [] else [("required", .list names)]

/-- The component schema of an endpoint's body parameters. -/
def componentSchema (e : Endpoint) : Value :=
  let ps := e.bodyParameters
  .object ([("type", .str "object")] ++ requiredField ps ++
    (if ps.isEmpty then []
    else
      [("properties", propertySchemas ps), ("example", .ofFields (ps.map fun p => (p.1, p.2.value)))]))

/-- The component schemas of the groups that have them, under the titles of the endpoints. -/
def componentSchemas (settings : Settings) (groups : List (Text × List Endpoint)) : Value :=
  let endpoints := settings.schemaGroups.flatMap fun g => (Entries.get? g groups).getD []
  .ofFields (Entries.ofList (endpoints.map fun e => (e.title, componentSchema e)))

/-! ## Operations -/

/-- A path or query parameter of an operation. -/
def parameter (p : Parameter) : Value :=
  let schema := typeSchema p.type
  let schema := if Entries.has refKey schema then schema else schema ++ [(.str "example", p.value)]
  .object
    [("in", .str p.location), ("name", .str p.name), ("description", .str p.description),
     ("required", .bool p.required), ("schema", .map schema)]

/-- A body in JSON with a schema. -/
def jsonContent (schema : Value) : Value :=
  .object [("application/json", .object [("schema", schema)])]

/-- The request body of an operation. -/
def requestBody (e : Endpoint) : Value :=
  let ps := e.bodyParameters
  let schema := Value.object
    ([("type", .str "object"), ("properties", propertySchemas ps)] ++ requiredField ps)
  .object [("required", .bool true), ("description", .str ""), ("content", jsonContent schema)]

/-- A response of an operation. Status 204 has no body. -/
def response (r : Response) : Value :=
  if r.status = 204 then .object [("description", .str r.description), ("content", .map [])]
  else
    let schema := match r.schemaRef with
      | some ref => Value.map ref
      | none => .object
        [("type", .str "object"), ("properties", .map (r.content.getD [])),
         ("example", r.sample.getD (.map []))]
    .object [("description", .str r.description), ("content", jsonContent schema)]

/-- A method as a key of the document. -/
def methodKey (method : Text) : Text := lower method

/-- The samples of an endpoint. -/
def samples (plan : CodeSample.Plan) (e : Endpoint) : Except Fault Value := do
  let items ← plan.renderers.mapM fun r =>
    (r.2 e).map fun source => Value.object [("lang", .str r.1), ("source", .str source)]
  .ok (.list items)

/-- The operation of an endpoint for one of its methods. The first method has the endpoint's
title as its name, every other is added to it. -/
def operation (settings : Settings) (plan : CodeSample.Plan) (group : Text)
    (e : Endpoint) (method : Text) (isFirst : Bool) : Except Fault Value := do
  let shown ← samples plan e
  let outside := (e.parameters.map (·.2)).filter fun p => p.location ≠ ("body" : Text)
  .ok (.object (
    [("tags", .list [.str group]),
     ("operationId", .str (if isFirst then e.title else e.title ++ "_" ++ methodKey method)),
     ("description", .str e.description),
     ("parameters", .list (outside.map parameter))] ++
    (if e.bodyParameters.isEmpty then [] else [("requestBody", requestBody e)]) ++
    [("responses",
      .ofFields (e.responses.map fun r => (intText r.1, response r.2)))] ++
    (if e.authenticated && !settings.security.isEmpty then
      [("security", .list (settings.security.map fun s => .map [(s.1, .list [])]))]
    else []) ++
    [("x-code-samples", shown)]))

/-- The operations of an endpoint under their methods. -/
def operations (settings : Settings) (plan : CodeSample.Plan) (group : Text)
    (e : Endpoint) : (isFirst : Bool) → List Text → Except Fault (List (Text × Value))
  | _, [] => .ok []
  | isFirst, m :: ms => do
    let op ← operation settings plan group e m isFirst
    let ops ← operations settings plan group e false ms
    .ok ((methodKey m, op) :: ops)

/-- The path of an endpoint in the document. -/
def pathKey (e : Endpoint) : Text := "/" ++ e.uri.dropWhile (· = ('/' : CodePoint))

/-- Adds operations to the item of a path. -/
def addOperations (paths : List (Text × List (Text × Value))) (path : Text)
    (ops : List (Text × Value)) : List (Text × List (Text × Value)) :=
  Entries.insert path (Entries.insertAll ((Entries.get? path paths).getD []) ops) paths

/-- The paths of the document, each with its operations. -/
def paths (settings : Settings) (plan : CodeSample.Plan)
    (groups : List (Text × List Endpoint)) : Except Fault (List (Text × List (Text × Value))) :=
  let routes := groups.flatMap fun g => g.2.map fun e => (g.1, e)
  routes.foldlM (fun ps r => do
    let ops ← operations settings plan r.1 r.2 true r.2.methods
    .ok (addOperations ps (pathKey r.2) ops)) []

/-! ## The whole -/

/-- The samples that settings ask for. -/
def samplePlan (s : Settings) : Except Error CodeSample.Plan := do
  let baseUrl ← s.baseUrl.mapError .fault
  return .ofLanguages baseUrl (← CodeSample.languages s.languageTabs)

/-- Metadata of the document. -/
def info (s : Settings) : Value :=
  let license := match s.license with
    | some (e :: es) => Value.map (e :: es)
    | _ => .null
  let contact := match s.contact with
    | some es => Value.map es
    | none => .null
  .object
    [("title", .str s.title), ("version", .str s.version), ("description", .str s.description),
     ("termsOfService", .str s.termsOfService), ("license", license), ("contact", contact),
     ("x-logo", .object
       [("url", .str s.logo), ("altText", .str s.title), ("backgroundColor", .str s.color)])]

/-- How deeply the values of a base document may be nested. -/
def maxBaseDepth : Nat := 494

/-- The document of endpoints, with the entries of a base document merged over it. -/
def assemble (settings : Settings) (plan : CodeSample.Plan) (es : List Endpoint)
    (base : List (Scalar × Value)) : Except Fault Value := do
  let groups := groupEndpoints es
  let items ← paths settings plan groups
  let generated : List (Scalar × Value) :=
    [(.str "openapi", .str formatVersion),
     (.str "info", info settings),
     (.str "components", .object
       [("securitySchemes", .map settings.security), ("schemas", componentSchemas settings groups)]),
     (.str "servers", .list (settings.servers.map .map)),
     (.str "paths", .ofFields (items.map fun p => (p.1, .ofFields p.2))),
     (.str "x-tagGroups", .list (settings.tagGroups.map .map))]
  if maxBaseDepth < Value.entriesDepth base then .error .endless
  else .ok (.map (mergeEntries generated base))

end RouteDocs.Document
