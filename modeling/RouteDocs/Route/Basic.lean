import RouteDocs.Check

/-!
# `RouteDocs.Route`: routes as they are found

A route has a path template, the methods it answers, and a handler. The handler's doc
comment gives tags, its signature gives arguments, and the rules that apply to the route
give headers.
-/

set_option autoImplicit false

namespace RouteDocs

open Check

/-- A directive `@name content` of a doc comment. -/
structure AnnotationTag where
  /-- What kind of directive it is. -/
  name : Text
  /-- Its text. -/
  content : Text := ""
deriving DecidableEq, Repr

/-- An argument of a handler, or a field of its structured input. -/
structure Argument where
  /-- Its name. -/
  name : Text
  /-- Its declared type. -/
  type : Option Text := none
deriving DecidableEq, Repr

/-- A route that may be documented. -/
structure Route where
  /-- The path template. -/
  uri : Text
  /-- The methods as declared. -/
  methods : List Text
  /-- The handler, controller and method in one. -/
  handler : Text
  /-- The group of the controller. -/
  controllerGroup : Option Text := none
  /-- A line about the route. -/
  shortDescription : Text := ""
  /-- More about the route. -/
  longDescription : Text := ""
  /-- The tags of the handler. -/
  tags : List AnnotationTag := []
  /-- The arguments of the handler. -/
  arguments : List Argument := []
  /-- The fields of a structured input, if the handler takes one. -/
  inputFields : Option (List Argument) := none
  /-- Headers from the rules that apply. -/
  headers : List (Text × Text) := []
deriving DecidableEq, Repr

/-- A tag from its fields. -/
def AnnotationTag.check (fields : Fields) : Checked AnnotationTag :=
  also (also (.ok AnnotationTag.mk) (field "name" text fields)) (fieldOr "content" "" text fields)

/-- An argument from its fields. -/
def Argument.check (fields : Fields) : Checked Argument :=
  also (also (.ok Argument.mk) (field "name" text fields))
    (fieldOr "type" none (orNull text) fields)

/-- A route from its fields. -/
def Route.check (fields : Fields) : Checked Route :=
  let arguments := listOf (record Argument.check)
  let route := also (.ok Route.mk) (field "uri" text fields)
  let route := also route (field "methods" (listOf text) fields)
  let route := also route (field "handler" text fields)
  let route := also route (fieldOr "controller_group" none (orNull text) fields)
  let route := also route (fieldOr "short_description" "" text fields)
  let route := also route (fieldOr "long_description" "" text fields)
  let route := also route (fieldOr "tags" [] (listOf (record AnnotationTag.check)) fields)
  let route := also route (fieldOr "arguments" [] arguments fields)
  let route := also route (fieldOr "input_fields" none (orNull arguments) fields)
  also route (fieldOr "headers" [] (mapOf text text) fields)

/-- A route from a value. -/
def Route.ofValue (v : Value) : Except Invalid Route := outcome .route (record Route.check v)

end RouteDocs
