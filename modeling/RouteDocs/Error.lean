import RouteDocs.Json.Reader
import RouteDocs.Yaml.Token

/-!
# `RouteDocs.Error`: what can go wrong, and how it is reported

A report names its cause, and one function words them all. The first two kinds concern a
single route, which is then left out of the document; the others end a run.
-/

set_option autoImplicit false

namespace RouteDocs

open Text Number

/-- A record whose fields are checked when it is made from loose values. -/
inductive Model where
  /-- An annotation tag. -/
  | tag
  /-- A handler argument. -/
  | argument
  /-- A route as it is found. -/
  | route
  /-- A parameter. -/
  | parameter
  /-- A response. -/
  | response
  /-- A documented route. -/
  | descriptor
  /-- The settings. -/
  | settings
deriving DecidableEq, Repr

/-- How a report calls a record. -/
def Model.label : Model → Text
  | .tag => "AnnotationTag"
  | .argument => "HandlerArgument"
  | .route => "RouteInput"
  | .parameter => "ParameterDescriptor"
  | .response => "ResponseDescriptor"
  | .descriptor => "RouteDescriptor"
  | .settings => "DocSettings"

/-- How many fields of a record, or parts of them, are wrong. -/
structure Invalid where
  /-- The number of offences. -/
  count : Nat
  /-- The record. -/
  model : Model
deriving DecidableEq, Repr

/-- The offences in one line. -/
def Invalid.message (i : Invalid) : Text :=
  let noun : Text := if i.count = 1 then " validation error for " else " validation errors for "
  natText i.count ++ noun ++ i.model.label

/-- What is wrong with the text of a tag. -/
inductive TagProblem where
  /-- A parameter tag has fewer than two words. -/
  | tooFewWords (text : Text)
  /-- An example does not denote a value of the type. -/
  | badExample (value type : Text)
  /-- A property block is not YAML. -/
  | badBlock
  /-- A property block is not a mapping. -/
  | blockNotMap
  /-- The type of a property is not a name; the value is shown. -/
  | typeNotName (shown : Text)
  /-- The example of a response is not JSON. -/
  | badJson (problem : Json.Problem)
  /-- A return type is outside of the grammar. -/
  | badReturnType (token : Text)
  /-- A property is neither a type name nor a mapping; name and value are shown. -/
  | propertyNotSchema (name shown : Text)
  /-- The nested properties of a property are not a mapping. -/
  | nestedNotMap (name : Text)
deriving DecidableEq, Repr

/-- The wording of a tag problem. -/
def TagProblem.message : TagProblem → Text
  | .tooFewWords text =>
    "expected '<name> <type> [required] [description]', got " ++ quote text
  | .badExample value type =>
    "example " ++ quote value ++ " is not a valid " ++ type
  | .badBlock => "invalid properties block: " ++ Yaml.Failure.wording
  | .blockNotMap => "properties block must be a key map"
  | .typeNotName shown => "type must be a type name, got " ++ shown
  | .badJson problem => "invalid JSON example: " ++ problem.message
  | .badReturnType token => "unrecognised return type " ++ quote token
  | .propertyNotSchema name shown =>
    "property " ++ name ++ " must be a type name or key map, got " ++ shown
  | .nestedNotMap name => "properties of " ++ name ++ " must be a key map"

/-- Why a file gives no value. -/
inductive ReadProblem where
  /-- The storage refused. -/
  | storage (fault : StorageFault)
  /-- The text is not YAML. -/
  | yaml
  /-- The text is not JSON; the description tells where. -/
  | json (description : Text)
deriving DecidableEq, Repr

/-- The wording of a read problem. -/
def ReadProblem.message : ReadProblem → Text
  | .storage fault => fault.message
  | .yaml => Yaml.Failure.wording
  | .json description => description

/-- Why an entry of a manifest is not a route. -/
inductive EntryProblem where
  /-- A key is missing. -/
  | missing (key : Text)
  /-- Fields are wrong. -/
  | invalid (invalid : Invalid)
deriving DecidableEq, Repr

/-- The wording of an entry problem. -/
def EntryProblem.message : EntryProblem → Text
  | .missing key => quote key
  | .invalid i => i.message

/-- What is wrong with the settings or the manifest. -/
inductive ConfigProblem where
  /-- The settings file cannot be read. -/
  | unreadableSettings (path : Text) (problem : ReadProblem)
  /-- The settings file holds something other than a mapping. -/
  | settingsNotMap (path : Text)
  /-- Fields of the settings are wrong. -/
  | invalidSettings (path : Text) (invalid : Invalid)
  /-- The manifest cannot be read. -/
  | unreadableManifest (path : Text) (problem : ReadProblem)
  /-- The manifest holds no list of routes. -/
  | manifestNotList (path : Text)
  /-- An entry of the manifest is not a mapping, but what is shown. -/
  | entryNotMap (shown : Text)
  /-- An entry of the manifest is not a route. -/
  | invalidEntry (uri : Text) (problem : EntryProblem)
  /-- A tag of the manifest has no name. -/
  | emptyTag
  /-- No code samples are written in the language. -/
  | unknownLanguage (language : Text)
deriving DecidableEq, Repr

/-- The wording of a configuration problem. -/
def ConfigProblem.message : ConfigProblem → Text
  | .unreadableSettings path problem => "cannot read settings " ++ path ++ ": " ++ problem.message
  | .settingsNotMap path => "settings " ++ path ++ " must be a mapping"
  | .invalidSettings path invalid => "invalid settings " ++ path ++ ": " ++ invalid.message
  | .unreadableManifest path problem => "cannot read route manifest " ++ path ++ ": " ++ problem.message
  | .manifestNotList path => "route manifest " ++ path ++ " must hold a list of routes"
  | .entryNotMap shown => "route entry must be a mapping, got " ++ shown
  | .invalidEntry uri problem => "invalid route entry " ++ uri ++ ": " ++ problem.message
  | .emptyTag => "empty annotation tag in manifest"
  | .unknownLanguage language =>
    "no code sample renderer for language " ++ quote language

/-- What is wrong with the base document. -/
inductive BaseProblem where
  /-- The file cannot be opened. -/
  | unreadable (path : Text) (fault : StorageFault)
  /-- The file is neither YAML nor JSON, as its name asks. -/
  | invalid (path : Text) (problem : ReadProblem)
  /-- The file holds something other than a mapping. -/
  | notMap (path : Text)
deriving DecidableEq, Repr

/-- The wording of a base document problem. -/
def BaseProblem.message : BaseProblem → Text
  | .unreadable path fault => "cannot read base schema " ++ path ++ ": " ++ fault.message
  | .invalid path problem => "invalid base schema " ++ path ++ ": " ++ problem.message
  | .notMap path => "base schema " ++ path ++ " must be a mapping"

/-- A failure. -/
inductive Error where
  /-- A tag's text does not fit its grammar. -/
  | malformedTag (tag : Text) (problem : TagProblem)
  /-- A path variable has no handler argument of its name. -/
  | unresolvedPathParameter (name handler : Text)
  /-- Settings or manifest cannot be loaded. -/
  | config (problem : ConfigProblem)
  /-- The base document cannot be loaded. -/
  | baseDocument (problem : BaseProblem)
  /-- A record has wrong fields. -/
  | invalid (invalid : Invalid)
  /-- A failure that is not reported. -/
  | fault (fault : Fault)
deriving DecidableEq, Repr

/-- The wording of a failure. A fault has none. -/
def Error.message? : Error → Option Text
  | .malformedTag tag problem => some ("@" ++ tag ++ ": " ++ problem.message)
  | .unresolvedPathParameter name handler =>
    some ("parameter " ++ name ++ " does not match method signature for " ++ handler)
  | .config problem => some problem.message
  | .baseDocument problem => some problem.message
  | .invalid i => some i.message
  | .fault _ => none

/-- Whether a failure concerns one route only, which is then left out. -/
def Error.skipsRoute : Error → Bool
  | .malformedTag _ _ => true
  | .unresolvedPathParameter _ _ => true
  | _ => false

/-- Whether a failure is worded for the author at the end of a run. -/
def Error.isReport : Error → Bool
  | .malformedTag _ _ => true
  | .unresolvedPathParameter _ _ => true
  | .config _ => true
  | .baseDocument _ => true
  | _ => false

end RouteDocs
