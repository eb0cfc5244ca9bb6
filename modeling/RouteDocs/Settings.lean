import RouteDocs.Check
import RouteDocs.Storage.Path
import RouteDocs.Value.Literal

/-!
# `RouteDocs.Settings`: document metadata and options

Everything that shapes a document apart from its routes. Every setting has a default, and
settings of other names are ignored.
-/

set_option autoImplicit false

namespace RouteDocs

open Check

/-- The group of routes without one, unless the settings name another. -/
def Settings.defaultGroupName : Text := "general"

/-- The settings of a run. -/
structure Settings where
  /-- The title of the document. -/
  title : Text := "API Reference"
  /-- The version of the interface. -/
  version : Text := "1.0.0"
  /-- About the interface. -/
  description : Text := ""
  /-- Where the terms of service are. -/
  termsOfService : Text := ""
  /-- The licence, as the document shows it. -/
  license : Option (List (Scalar × Value)) := none
  /-- Whom to ask, as the document shows it. -/
  contact : Option (List (Scalar × Value)) := none
  /-- The address of a logo. -/
  logo : Text := ""
  /-- The colour behind the logo. -/
  color : Text := "#FFFFFF"
  /-- The servers that answer. -/
  servers : List (List (Scalar × Value)) := [[(.str "url", .str "http://localhost")]]
  /-- The security schemes under their names. -/
  security : List (Scalar × Value) := []
  /-- Groups of groups, for display. -/
  tagGroups : List (List (Scalar × Value)) := []
  /-- A document that is merged over the generated one. -/
  baseSchema : Option Path := none
  /-- Languages of code samples, with their display names. -/
  languageTabs : List (Text × Text) :=
    [("bash", "Bash"), ("javascript", "Javascript"), ("python", "Python")]
  /-- Groups whose body parameters become component schemas. -/
  schemaGroups : List Text := []
  /-- The group of routes without one. -/
  defaultGroup : Text := Settings.defaultGroupName
  /-- The directory to write to. -/
  output : Path := Path.ofText "docs"
deriving DecidableEq

namespace Settings

/-- A path in the settings. -/
def path (v : Value) : Checked Path := (writtenText v).map Path.ofText

/-- Settings from its fields. -/
def check (fields : Fields) : Checked Settings :=
  let d : Settings := {}
  let s := also (.ok Settings.mk) (fieldOr "title" d.title text fields)
  let s := also s (fieldOr "version" d.version text fields)
  let s := also s (fieldOr "description" d.description text fields)
  let s := also s (fieldOr "terms_of_service" d.termsOfService text fields)
  let s := also s (fieldOr "license" d.license (orNull mapping) fields)
  let s := also s (fieldOr "contact" d.contact (orNull mapping) fields)
  let s := also s (fieldOr "logo" d.logo text fields)
  let s := also s (fieldOr "color" d.color text fields)
  let s := also s (fieldOr "servers" d.servers (listOf mapping) fields)
  let s := also s (fieldOr "security" d.security mapping fields)
  let s := also s (fieldOr "tag_groups" d.tagGroups (listOf mapping) fields)
  let s := also s (fieldOr "base_schema" d.baseSchema (orNull path) fields)
  let s := also s (fieldOr "language_tabs" d.languageTabs (mapOf text text) fields)
  let s := also s (fieldOr "schema_groups" d.schemaGroups (listOf text) fields)
  let s := also s (fieldOr "default_group" d.defaultGroup text fields)
  also s (fieldOr "output" d.output path fields)

/-- Settings from their fields. -/
def ofFields (fields : Fields) : Except Invalid Settings := outcome .settings (check fields)

/-- Settings from a value. -/
def ofValue (v : Value) : Except Invalid Settings := outcome .settings (record check v)

/-- The address that samples call: that of the first server, without slashes at its end. -/
def baseUrl (s : Settings) : Except Fault Text :=
  match s.servers with
  | [] => .ok "http://localhost"
  | server :: _ =>
    let url := (Entries.get? (.str "url") server).getD .null
    if url.isTruthy then url.display.map (Text.dropEndWhile (· = ('/' : CodePoint)))
    else .ok "http://localhost"

end Settings

end RouteDocs
