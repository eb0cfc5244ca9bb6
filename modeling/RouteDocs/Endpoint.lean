import RouteDocs.Check
import RouteDocs.Tag.Response

/-!
# `RouteDocs.Endpoint`: documented routes

What a route's tags, arguments and rules come to: parameters with example values,
responses, and the texts of the operation. The document is put together from these.
-/

set_option autoImplicit false

namespace RouteDocs

open Check

/-- A path, query or body parameter. -/
structure Parameter where
  /-- Its name. -/
  name : Text
  /-- Its normalised type. -/
  type : Text := CanonicalType.string.name
  /-- Where it is sent: `path`, `query` or `body`. -/
  location : Text := "body"
  /-- Whether it has to be given. -/
  required : Bool := false
  /-- The prose. -/
  description : Text := ""
  /-- An example value. -/
  value : Value := .null
  /-- The nested schema. -/
  properties : Option Tag.Properties := none
deriving DecidableEq

/-- A route with its documentation. -/
structure Endpoint where
  /-- Tells the endpoint apart from others. -/
  id : Text
  /-- The group it is shown in. -/
  group : Text
  /-- The name of the operation. -/
  title : Text
  /-- The prose. -/
  description : Text
  /-- The methods in upper case, without `HEAD`. -/
  methods : List Text
  /-- The path template. -/
  uri : Text
  /-- Path and query parameters under their names. -/
  parameters : List (Text × Parameter)
  /-- Body parameters under their names. -/
  bodyParameters : List (Text × Parameter)
  /-- Whether a caller has to be known. -/
  authenticated : Bool
  /-- Responses under their status. -/
  responses : List (Int × Response)
  /-- Headers that a caller sends. -/
  headers : List (Text × Text) := []
deriving DecidableEq

/-- A parameter from its fields. -/
def Parameter.check (fields : Fields) : Checked Parameter :=
  let parameter := also (.ok Parameter.mk) (field "name" text fields)
  let parameter := also parameter (fieldOr "type" CanonicalType.string.name text fields)
  let parameter := also parameter (fieldOr "location" "body" text fields)
  let parameter := also parameter (fieldOr "required" false truth fields)
  let parameter := also parameter (fieldOr "description" "" text fields)
  let parameter := also parameter (fieldOr "value" .null any fields)
  also parameter (fieldOr "properties" none (orNull mapping) fields)

/-- A response from its fields. -/
def Response.check (fields : Fields) : Checked Response :=
  let response := also (.ok Response.mk) (fieldOr "status" 200 whole fields)
  let response := also response (fieldOr "description" "success" text fields)
  let response := also response (fieldOr "content" none (orNull mapping) fields)
  let response := also response (fieldOr "example" none (orNull any) fields)
  also response (fieldOr "schema_ref" none (orNull mapping) fields)

/-- An endpoint from its fields. -/
def Endpoint.check (fields : Fields) : Checked Endpoint :=
  let parameters := mapOf text (record Parameter.check)
  let endpoint := also (.ok Endpoint.mk) (field "id" text fields)
  let endpoint := also endpoint (field "group" text fields)
  let endpoint := also endpoint (field "title" text fields)
  let endpoint := also endpoint (field "description" text fields)
  let endpoint := also endpoint (field "methods" (listOf text) fields)
  let endpoint := also endpoint (field "uri" text fields)
  let endpoint := also endpoint (field "parameters" parameters fields)
  let endpoint := also endpoint (field "body_parameters" parameters fields)
  let endpoint := also endpoint (field "authenticated" truth fields)
  let endpoint := also endpoint (field "responses" (mapOf whole (record Response.check)) fields)
  also endpoint (fieldOr "headers" [] (mapOf text text) fields)

/-- A parameter from a value. -/
def Parameter.ofValue (v : Value) : Except Invalid Parameter :=
  outcome .parameter (record Parameter.check v)

/-- An endpoint from a value. -/
def Endpoint.ofValue (v : Value) : Except Invalid Endpoint :=
  outcome .descriptor (record Endpoint.check v)

end RouteDocs
