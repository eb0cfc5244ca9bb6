import RouteDocs.Route.Basic
import RouteDocs.Storage.Basic
import RouteDocs.Value.Literal
import RouteDocs.Yaml.Content

/-!
# `RouteDocs.Load.Manifest`: the route manifest

A manifest lists the routes of an application with the tags of their handlers, as a YAML
list or under the key `routes`. A tag is a text `@name content` or a mapping; arguments are
a mapping from names to types, or a list of names and mappings. A route with the tag
`hideFromAPIDocumentation` is left out.

What goes wrong inside of an entry is reported with the entry's path template. A few shapes
that an entry cannot have are faults.
-/

set_option autoImplicit false

namespace RouteDocs.Manifest

open Text Check

/-- The tag that hides a route. -/
def hiddenTag : Text := "hideFromAPIDocumentation"

/-- What a value is gone through by. -/
inductive Element where
  /-- A part of the document. -/
  | part (p : Part)
  /-- A key, a character or a byte. -/
  | scalar (s : Scalar)

/-- An element as a tree. -/
def Element.value : Element → Value
  | .part p => p.value
  | .scalar s => .scalar s

/-- The entries of an element that is a mapping. -/
def Element.entries? : Element → Option (List (Scalar × Part))
  | .part p =>
    match p.view with
    | .map entries => some entries
    | _ => none
  | .scalar _ => none

/-- What a value can be gone through by: elements, keys, characters or bytes. -/
def elements (p : Part) : Except Error (List Element) :=
  match p.view with
  | .list items => .ok (items.map .part)
  | .map entries => .ok (entries.map fun e => .scalar e.1)
  | .set members => .ok (members.map .scalar)
  | .pair k v => .ok [.part k, .part v]
  | .scalar (.str s) => .ok (s.map fun c => .scalar (.str [c]))
  | .scalar (.bytes b) => .ok (b.map fun x => .scalar (.int x.toNat))
  | .scalar _ => .error (.fault .wrongKind)

/-- The part under a key, unless it is absent or empty. -/
def presentUnder? (key : String) (entries : List (Scalar × Part)) : Option Part :=
  (Entries.get? (.str key) entries).filter Part.isTruthy

/-- The value under a key. -/
def valueUnder? (key : String) (entries : List (Scalar × Part)) : Option Value :=
  (Entries.get? (.str key) entries).map Part.value

/-- The elements under a key, none if it is absent or empty. -/
def elementsUnder (key : String) (entries : List (Scalar × Part)) : Except Error (List Element) :=
  match presentUnder? key entries with
  | some p => elements p
  | none => .ok []

/-- A failure to be reported with the entry, or one that is not. -/
inductive EntryFailure where
  /-- A problem of the entry. -/
  | problem (problem : EntryProblem)
  /-- Any other failure. -/
  | error (error : Error)
deriving DecidableEq

/-- A failure as an entry's. -/
def liftError {α : Type} (r : Except Error α) : Except EntryFailure α := r.mapError .error

/-- A checked record as an entry's. -/
def liftCheck {α : Type} (model : Model) (c : Checked α) : Except EntryFailure α :=
  (outcome model c).mapError fun i => .problem (.invalid i)

/-- A tag from its text: an at sign, unless nothing follows it, then the name, blanks and the
content. -/
def tagOfText (text : Text) : Except Error AnnotationTag :=
  let text := trim text
  let body := match text with
    | .char '@' :: c :: rest => if isBlank c then text else c :: rest
    | _ => text
  let (name, content) := takeToken body
  if name.isEmpty then .error (.config .emptyTag)
  else .ok ⟨name, content⟩

/-- A tag of an entry. -/
def tagOf (e : Element) : Except EntryFailure AnnotationTag :=
  match e.entries? with
  | some entries =>
    match valueUnder? "name" entries with
    | none => .error (.problem (.missing "name"))
    | some name =>
      let content := ((presentUnder? "content" entries).map Part.value).getD (.str "")
      liftCheck .tag (also (also (.ok AnnotationTag.mk) (Check.text name)) (Check.text content))
  | none => liftError do
    let text ← e.value.display.mapError .fault
    tagOfText text

/-- An argument with a name and a type. -/
def argument (name type : Value) : Except EntryFailure Argument :=
  liftCheck .argument (also (also (.ok Argument.mk) (Check.text name)) (orNull Check.text type))

/-- An argument from an element of a list. -/
def argumentOf (e : Element) : Except EntryFailure Argument :=
  match e.entries? with
  | some entries =>
    if entries.all fun e => (match e.1 with | .str _ => true | _ => false) then
      liftCheck .argument (Argument.check fun key => valueUnder? key entries)
    else .error (.error (.fault .wrongKind))
  | none => argument e.value .null

/-- The arguments that a part lists. -/
def argumentsOf (p : Part) : Except EntryFailure (List Argument) :=
  if !p.isTruthy then .ok []
  else
    match p.view with
    | .map entries => entries.mapM fun e => argument (.scalar e.1) e.2.value
    | _ => do
      let items ← liftError (elements p)
      items.mapM argumentOf

/-- The arguments under a key of an entry, if there is a value. -/
def argumentsUnder (key : String) (entries : List (Scalar × Part)) :
    Except EntryFailure (Option (List Argument)) :=
  match Entries.get? (.str key) entries with
  | none => .ok none
  | some p =>
    match p.view with
    | .scalar .null => .ok none
    | _ => (argumentsOf p).map some

/-- The headers of the rules that apply to an entry. -/
def headersOf (entries : List (Scalar × Part)) : Except EntryFailure Value :=
  match presentUnder? "apply" entries with
  | none => .ok (.map [])
  | some rules =>
    match rules.view with
    | .map rules => .ok (((presentUnder? "headers" rules).map Part.value).getD (.map []))
    | _ => .error (.error (.fault .noSuchPart))

/-- The methods of an entry, a single one standing for a list. -/
def methodsOf (entries : List (Scalar × Part)) : Value :=
  match valueUnder? "methods" entries with
  | none => .list [.str "GET"]
  | some (.scalar (.str s)) => .list [.str s]
  | some v => v

/-- A route from the entries of a mapping. -/
def routeOfEntries (entries : List (Scalar × Part)) : Except EntryFailure Route := do
  match valueUnder? "uri" entries with
  | none => .error (.problem (.missing "uri"))
  | some uri =>
    let fields : Fields := fun key => valueUnder? key entries
    let tags ← (← liftError (elementsUnder "tags" entries)).mapM tagOf
    let arguments := (← argumentsUnder "arguments" entries).getD []
    let input ← argumentsUnder "input" entries
    let headers ← headersOf entries
    let route := also (.ok Route.mk) (Check.text uri)
    let route := also route (listOf Check.text (methodsOf entries))
    let route := also route (fieldOr "handler" "" Check.text fields)
    let route := also route (fieldOr "group" none (orNull Check.text) fields)
    let route := also route (fieldOr "summary" "" Check.text fields)
    let route := also route (fieldOr "description" "" Check.text fields)
    let route := also (also (also route (.ok tags)) (.ok arguments)) (.ok input)
    liftCheck .route (also route (mapOf Check.text Check.text headers))

/-- A route from an element of a manifest. -/
def routeOf (e : Element) : Except Error Route :=
  match e.entries? with
  | some entries =>
    match routeOfEntries entries with
    | .ok r => .ok r
    | .error (.error e) => .error e
    | .error (.problem p) => do
      let uri ← match valueUnder? "uri" entries with
        | some v => v.display.mapError .fault
        | none => .ok "?"
      .error (.config (.invalidEntry uri p))
  | none => do
    let shown ← e.value.literal.mapError .fault
    .error (.config (.entryNotMap shown))

/-- Whether a route is hidden. -/
def isHidden (r : Route) : Bool := r.tags.any fun t => t.name = hiddenTag

/-- The routes of a manifest. -/
def routesOf (path : Path) (p : Part) : Except Error (List Route) := do
  let items ← match p.view with
    | .map entries => elementsUnder "routes" entries
    | .list items => .ok (items.map .part)
    | _ => .error (.config (.manifestNotList path.text))
  let routes ← items.mapM routeOf
  .ok (routes.filter fun r => !isHidden r)

/-- The routes of a manifest from the content of its file. -/
def ofFile (path : Path) (content : Except Fault (List UInt8)) : Except Error (List Route) :=
  match content with
  | .error (.storage fault) => .error (.config (.unreadableManifest path.text (.storage fault)))
  | .error fault => .error (.fault fault)
  | .ok bytes =>
    match textOfBytes? bytes with
    | none => .error (.fault .undecodable)
    | some text =>
      match Yaml.read text with
      | .error .malformed => .error (.config (.unreadableManifest path.text .yaml))
      | .error (.fault f) => .error (.fault f)
      | .ok p => routesOf path p

/-- Loads a manifest. -/
def load {m : Type → Type} [Monad m] [Storage m] (path : Path) : m (Except Error (List Route)) :=
  return ofFile path (← Storage.read path)

end RouteDocs.Manifest
