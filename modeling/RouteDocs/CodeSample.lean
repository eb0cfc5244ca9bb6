import RouteDocs.Endpoint
import RouteDocs.Route.Template
import RouteDocs.Text.Percent

/-!
# `RouteDocs.CodeSample`: how to call an endpoint

Each operation shows a sample call in every configured language: a `curl` command, a
Python script and a piece of JavaScript. The sample has the example values of the
parameters filled in. It calls the first method of the endpoint.

What writes a sample is a function of the endpoint, and a document takes any such functions
under any names (`Plan`); those of the configured languages are one choice.
-/

set_option autoImplicit false

namespace RouteDocs

open Text

/-- A language that samples are written in. -/
inductive Language where
  /-- A shell command. -/
  | bash
  /-- A Python script. -/
  | python
  /-- A piece of JavaScript. -/
  | javascript
deriving DecidableEq, Repr

/-- The language of a name in the settings. -/
def Language.ofName? (name : Text) : Option Language :=
  if name = "bash" then some .bash
  else if name = "python" then some .python
  else if name = "javascript" then some .javascript
  else none

namespace CodeSample

/-- The JSON text of a value. -/
def json (layout : Json.Layout) (v : Value) : Except Fault Text := Json.write layout v

/-- How values are laid out in a script. -/
def scriptLayout : Json.Layout := .indented 4

/-- The method that a sample calls. -/
def method (e : Endpoint) : Except Fault Text :=
  match e.methods with
  | m :: _ => .ok m
  | [] => .error .outOfBounds

/-- The address of an endpoint with its path variables filled in. -/
def url (baseUrl : Text) (e : Endpoint) : Except Fault Text := do
  let value? := fun (name : Text) =>
    match Entries.get? name e.parameters with
    | some p => p.value.display.map some
    | none => .ok none
  let filled ← Template.fill value? (e.uri.dropWhile (· = ('/' : CodePoint)))
  return baseUrl ++ "/" ++ filled

/-- The values of parameters under their names. -/
def values (ps : List (Text × Parameter)) : List (Text × Value) :=
  Entries.ofList (ps.map fun p => (p.2.name, p.2.value))

/-- The query parameters. -/
def query (e : Endpoint) : List (Text × Value) :=
  values (e.parameters.filter fun p => p.2.location = "query")

/-- The body parameters. -/
def body (e : Endpoint) : List (Text × Value) := values e.bodyParameters

/-- The headers of a call. -/
def headers (e : Endpoint) : List (Text × Text) :=
  Entries.insertAll [("Content-Type", "application/json"), ("Accept", "application/json")] e.headers

/-- Headers as a value. -/
def headerValue (e : Endpoint) : Value := .ofFields ((headers e).map fun h => (h.1, .str h.2))

/-- The query of an address, from its question mark on. -/
def queryPart (pairs : List (Text × Text)) : Except Fault Text :=
  if pairs.isEmpty then .ok []
  else match queryString? pairs with
    | some s => .ok ("?" ++ s)
    | none => .error .unencodable

/-- A query value as text: JSON unless it is a text. -/
def queryText : Value → Except Fault Text
  | .scalar (.str s) => .ok s
  | v => json .compact v

/-- A shell command that calls the endpoint. -/
def bash (baseUrl : Text) (e : Endpoint) : Except Fault Text := do
  let address ← url baseUrl e
  let pairs ← (query e).mapM fun p => (queryText p.2).map fun v => (p.1, v)
  let asked ← queryPart pairs
  let m ← method e
  let first : Text := "curl -X " ++ m ++ " \"" ++ address ++ asked ++ "\""
  let options : List Text := (headers e).map fun h => "-H \"" ++ h.1 ++ ": " ++ h.2 ++ "\""
  let data : List Text ←
    if (body e).isEmpty then .ok []
    else (json .compact (.ofFields (body e))).map fun text => ["-d '" ++ text ++ "'"]
  .ok ((" \\\n    " : Text).intercalate (first :: options ++ data))

/-- A Python script that calls the endpoint. -/
def python (baseUrl : Text) (e : Endpoint) : Except Fault Text := do
  let address ← json scriptLayout (.str (← url baseUrl e))
  let params : List Text ←
    if (query e).isEmpty then .ok []
    else (json scriptLayout (.ofFields (query e))).map fun text => ["params = " ++ text]
  let payload : List Text ←
    if (body e).isEmpty then .ok []
    else (json scriptLayout (.ofFields (body e))).map fun text => ["payload = " ++ text]
  let sent ← json scriptLayout (headerValue e)
  let m ← method e
  let m ← json scriptLayout (.str m)
  let withParams : Text := if params.isEmpty then [] else ", params=params"
  let withPayload : Text := if payload.isEmpty then [] else ", json=payload"
  let start : List Text := ["import requests", "", "url = " ++ address]
  let call : List Text :=
    ["headers = " ++ sent,
     "response = requests.request(" ++ m ++ ", url, headers=headers" ++ withParams ++ withPayload ++ ")",
     "print(response.json())"]
  .ok (unlines (start ++ params ++ payload ++ call))

/-- A piece of JavaScript that calls the endpoint. -/
def javascript (baseUrl : Text) (e : Endpoint) : Except Fault Text := do
  let address ← json scriptLayout (.str (← url baseUrl e))
  let params : List Text ←
    if (query e).isEmpty then .ok []
    else (json scriptLayout (.ofFields (query e))).map fun text =>
      ["let params = " ++ text ++ ";",
       "Object.keys(params).forEach(key => url.searchParams.append(key, params[key]));"]
  let sent ← json scriptLayout (headerValue e)
  let m ← method e
  let m ← json scriptLayout (.str m)
  let data : List Text ←
    if (body e).isEmpty then .ok []
    else (json scriptLayout (.ofFields (body e))).map fun text => ["let body = " ++ text ++ ";"]
  let withBody : Text := if data.isEmpty then [] else ", body: JSON.stringify(body)"
  let start : Text := "const url = new URL(" ++ address ++ ");"
  let sent : Text := "let headers = " ++ sent ++ ";"
  let call : List Text :=
    ["",
     "fetch(url, \x7bmethod: " ++ m ++ ", headers: headers" ++ withBody ++ "\x7d)",
     "    .then(response => response.json())",
     "    .then(json => console.log(json));"]
  .ok (unlines (start :: params ++ sent :: data ++ call))

/-- A sample in a language. -/
def render (language : Language) (baseUrl : Text) (e : Endpoint) : Except Fault Text :=
  match language with
  | .bash => bash baseUrl e
  | .python => python baseUrl e
  | .javascript => javascript baseUrl e

/-- The samples that are written: how to write each of them from an endpoint, under the names
that are displayed. -/
structure Plan where
  /-- The writers of samples under their display names. -/
  renderers : List (Text × (Endpoint → Except Fault Text))

/-- No samples. -/
def Plan.empty : Plan := ⟨[]⟩

/-- Samples in known languages, all of which call one address. -/
def Plan.ofLanguages (baseUrl : Text) (languages : List (Text × Language)) : Plan :=
  ⟨languages.map fun l => (l.1, render l.2 baseUrl)⟩

/-- The configured languages under their display names. A name that is used twice keeps its
first place and shows the last language. -/
def languages (tabs : List (Text × Text)) : Except Error (List (Text × Language)) := do
  let pairs ← tabs.mapM fun tab =>
    match Language.ofName? tab.1 with
    | some l => Except.ok (tab.2, l)
    | none => .error (.config (.unknownLanguage tab.1))
  .ok (Entries.ofList pairs)

end CodeSample

end RouteDocs
