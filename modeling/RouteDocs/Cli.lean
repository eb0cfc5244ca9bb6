import RouteDocs.Generation
import RouteDocs.Load.BaseDocument
import RouteDocs.Load.Manifest
import RouteDocs.Load.Settings

/-!
# `RouteDocs.Cli`: the command line

Two commands: `generate` writes the document of a manifest to a directory, and `routes`
lists the routes of a manifest. Arguments that fit neither are a usage error. A failure
that is a report ends the run with its wording; any other failure ends it without one.

Ordinary output is written in UTF-8, so a line with a surrogate ends the run where it would
be written. Diagnostics show a surrogate as an escape.

Nothing is written before the document is complete and has a JSON text.
-/

set_option autoImplicit false

namespace RouteDocs.Cli

open Number

/-! ## Arguments -/

/-- An option of a command. -/
inductive OptionName where
  /-- The settings file. -/
  | config
  /-- The directory to write to. -/
  | output
  /-- The seed of the random source. -/
  | seed
  /-- A request for help. -/
  | help
deriving DecidableEq, Repr

/-- The options of `generate` by their long names. -/
def longOptions : List (Text × OptionName) :=
  [("config", .config), ("output", .output), ("seed", .seed), ("help", .help)]

/-- The options of `generate` by their short names. -/
def shortOptions : List (CodePoint × OptionName) := [('c', .config), ('o', .output)]

/-- The options of `routes`. -/
def routesOptions : List (Text × OptionName) := [("help", .help)]

/-- Arguments taken apart: options with their values in order, and the rest. -/
structure Parsed where
  /-- The options that were given. -/
  options : List (OptionName × Text)
  /-- The other arguments. -/
  positional : List Text
deriving DecidableEq, Repr

/-- An option with the value that stands in the same argument, if any does. A short option may
be followed by its value directly, a long one by an equals sign and its value. -/
def optionOf? (long : List (Text × OptionName)) (short : List (CodePoint × OptionName))
    (arg : Text) : Option (OptionName × Option Text) :=
  match arg with
  | .char '-' :: .char '-' :: name =>
    let word := name.takeWhile (· ≠ ('=' : CodePoint))
    let value := match name.dropWhile (· ≠ ('=' : CodePoint)) with
      | [] => none
      | _ :: v => some v
    (long.lookup word).map (·, value)
  | .char '-' :: letter :: rest =>
    (short.lookup letter).map (·, if rest.isEmpty then none else some rest)
  | _ => none

/-- Takes the arguments of a command apart. After two hyphens everything is positional; a
single hyphen is too. -/
def parseArgs (long : List (Text × OptionName)) (short : List (CodePoint × OptionName)) :
    List Text → Option Parsed
  | [] => some ⟨[], []⟩
  | arg :: rest =>
    let adding := fun (option : OptionName × Text) (rest : Option Parsed) =>
      rest.map fun p => { p with options := option :: p.options }
    if arg = "--" then some ⟨[], rest⟩
    else if arg.head? = some (.char '-') && arg ≠ "-" then
      match optionOf? long short arg with
      | none => none
      | some (.help, none) => adding (.help, []) (parseArgs long short rest)
      | some (.help, some _) => none
      | some (name, some value) => adding (name, value) (parseArgs long short rest)
      | some (name, none) =>
        match rest with
        | [] => none
        | value :: rest => adding (name, value) (parseArgs long short rest)
    else (parseArgs long short rest).map fun p => { p with positional := arg :: p.positional }

/-- What there is help on. -/
inductive Topic where
  /-- The program. -/
  | program
  /-- Writing a document. -/
  | generate
  /-- Listing routes. -/
  | routes
deriving DecidableEq, Repr

/-- What the arguments ask for, as far as their form tells. -/
inductive Command where
  /-- Write the document of a manifest. -/
  | generate (parsed : Parsed)
  /-- List the routes of a manifest. -/
  | routes (parsed : Parsed)
  /-- Show how to use the program or a command. -/
  | help (topic : Topic)
deriving DecidableEq, Repr

/-- A command, unless its options ask for help. -/
def Command.unlessHelp (topic : Topic) (command : Parsed → Command) (p : Parsed) : Command :=
  if p.options.any fun o => o.1 = .help then .help topic else command p

/-- The command that a name with its arguments asks for. -/
def Command.ofName? : List Text → Option Command
  | [] => none
  | name :: args =>
    if name = "--help" then some (.help .program)
    else if name = "generate" then
      (parseArgs longOptions shortOptions args).map (unlessHelp .generate .generate)
    else if name = "routes" then (parseArgs routesOptions [] args).map (unlessHelp .routes .routes)
    else none

/-- The command that arguments ask for. Two hyphens in front of it mean nothing. -/
def Command.parse? (args : List Text) : Option Command :=
  match args with
  | [] => none
  | first :: rest => if first = "--" then ofName? rest else ofName? args

/-! ## Running -/

/-- How a run ended. -/
structure Outcome where
  /-- Zero for success, 1 for a failure, 2 for arguments that ask for nothing. -/
  exitCode : Nat
  /-- The lines that were reported. -/
  lines : List Line
  /-- A failure without a report. -/
  uncaught : Option Error
deriving DecidableEq

/-- A code point in diagnostics: a surrogate as an escape, a character as it is. -/
def escaped (c : CodePoint) : Text :=
  match c with
  | .char c => [.char c]
  | .surrogate _ => "\\u" ++ Text.toHex 4 c.toNat

/-- A line as its channel takes it. Ordinary output takes no surrogate. -/
def written? (l : Line) : Option Line :=
  match l.channel with
  | .output => if l.text.utf8?.isSome then some l else none
  | .diagnostics => some { l with text := l.text.flatMap escaped }

/-- The lines up to the first that its channel does not take, as they are written, and
whether all are. -/
def written : List Line → List Line × Bool
  | [] => ([], true)
  | l :: ls =>
    match written? l with
    | none => ([], false)
    | some l => let (ls, all) := written ls; (l :: ls, all)

namespace Outcome

/-- A run that was not asked for anything. -/
def usage : Outcome := ⟨2, [], none⟩

/-- A run that broke off after some lines. -/
def broken (lines : List Line) (f : Fault) : Outcome := ⟨1, lines, some (.fault f)⟩

/-- A run that wrote lines and then went on as `next` says with those before, unless one of
them could not be written. -/
def after {m : Type → Type} [Monad m] (lines : List Line) (next : List Line → m Outcome) : m Outcome :=
  match written lines with
  | (lines, true) => next lines
  | (lines, false) => pure (broken lines .unencodable)

/-- A run that did what was asked after some lines were written, and writes `more`. -/
def success (before more : List Line) : Outcome :=
  match written more with
  | (more, true) => ⟨0, before ++ more, none⟩
  | (more, false) => broken (before ++ more) .unencodable

/-- A run that failed after some lines were written. A report is one more line of
diagnostics. -/
def failed (before : List Line) (e : Error) : Outcome :=
  match e.isReport, e.message? with
  | true, some message => ⟨1, before ++ (written [.plain .diagnostics ("Error: " ++ message)]).1, none⟩
  | _, _ => ⟨1, before, some e⟩

/-- The text of a channel, a carriage return before a line feed not counting. -/
def textOf (channel : Channel) (o : Outcome) : Text := dropReturns (Line.textOf channel o.lines)
where
  /-- A text without the carriage returns before line feeds. -/
  dropReturns : Text → Text
    | [] => []
    | .char '\r' :: .char '\n' :: rest => "\n" ++ dropReturns rest
    | c :: rest => c :: dropReturns rest

end Outcome

/-- A line of ordinary output. -/
def say (text : Text) : Line := .plain .output text

/-- How to use the program or a command. -/
def Topic.text : Topic → List Text
  | .program =>
    ["Usage: main [OPTIONS] COMMAND [ARGS]...",
     "",
     "  annodoc: generate OpenAPI documents from handler annotation tags.",
     "",
     "Options:",
     "  --help  Show this message and exit.",
     "",
     "Commands:",
     "  generate  Generate openapi.json from a route manifest.",
     "  routes    List the documentable routes of a manifest."]
  | .generate =>
    ["Usage: main generate [OPTIONS] MANIFEST_PATH",
     "",
     "  Generate openapi.json from a route manifest.",
     "",
     "Options:",
     "  -c, --config PATH  Settings file (YAML or JSON).",
     "  -o, --output PATH  Output directory, defaults to the configured output.",
     "  --seed INTEGER     Seed for generated example values.",
     "  --help             Show this message and exit."]
  | .routes =>
    ["Usage: main routes [OPTIONS] MANIFEST_PATH",
     "",
     "  List the documentable routes of a manifest.",
     "",
     "Options:",
     "  --help  Show this message and exit."]

variable {m : Type → Type} [Monad m] [Storage m] {σ : Type} [RandomSource σ]

/-- What is known about the world of a run: the random source for a seed or for none, and the
moment that counts as now. -/
structure Environment (σ : Type) where
  /-- The random source of a run. -/
  source : Option Int → σ
  /-- The current moment. -/
  now : Moment

/-- What a run works with. -/
structure Job where
  /-- The manifest. -/
  manifest : Path
  /-- The settings file. -/
  config : Option Path := none
  /-- The directory to write to. -/
  output : Option Path := none
  /-- The seed of the random source. -/
  seed : Option Int := none
deriving DecidableEq, Repr

/-- Why arguments are refused before a run. -/
inductive Refusal where
  /-- They ask for nothing that there is. -/
  | usage
  /-- A path cannot be asked for. -/
  | fault (f : Fault)
deriving DecidableEq, Repr

/-- How a refused run ends. -/
def Refusal.outcome : Refusal → Outcome
  | .usage => .usage
  | .fault f => .broken [] f

/-- Whether there is something at the path of an argument. -/
def argumentExists (arg : Text) : ExceptT Refusal m Bool := do
  match ← (Storage.has arg : m (Except Fault Bool)) with
  | .ok there => return there
  | .error f => throw (.fault f)

/-- The path of an argument that has to name something. -/
def existingPath (arg : Text) : ExceptT Refusal m Path := do
  if ← argumentExists arg then return Path.ofText arg else throw .usage

/-- Takes the value of an option. -/
def takeOption (job : Job) (option : OptionName × Text) : ExceptT Refusal m Job := do
  let (name, value) := option
  match name with
  | .config => return { job with config := some (← existingPath value) }
  | .output =>
    -- The directory need not be there, but its path has to be one that can be asked for.
    let _ ← argumentExists value
    return { job with output := some (Path.ofText value) }
  | .seed =>
    match readInt? (Text.trim value) with
    | some seed => return { job with seed := some seed }
    | none => throw .usage
  | .help => return job

/-- What parsed arguments ask a run to work with. Options are looked at in the order in which
they were first given, the last value of each counting, and then the manifest. -/
def Job.ofParsed (p : Parsed) : ExceptT Refusal m Job := do
  let job ← (Entries.ofList p.options).foldlM takeOption { manifest := ⟨0, []⟩ }
  match p.positional with
  | [] => throw .usage
  | manifest :: others =>
    let manifest ← existingPath manifest
    if others.isEmpty then return { job with manifest := manifest } else throw .usage

/-- The document of a run and the lines up to it, or the failure that ended it. -/
def document (env : Environment σ) (job : Job) : m (List Line × Except Error (Settings × Value)) := do
  match ← Settings.load job.config with
  | .error e => pure ([], .error e)
  | .ok settings =>
    match ← BaseDocument.loadIfAny settings.baseSchema with
    | .error e => pure ([], .error e)
    | .ok base =>
      let parsing := say ("Parsing " ++ job.manifest.text ++ "...")
      match ← Manifest.load job.manifest with
      | .error e => pure ([parsing], .error e)
      | .ok routes =>
        let found := say ("Found " ++ natText routes.length ++ " routes.")
        let generating := say ("Generating OpenAPI " ++ Document.formatVersion ++ " document...")
        let ((lines, result), _) :=
          (Generation.generate env.now settings base routes).run (env.source job.seed)
        pure ([parsing, found, generating] ++ lines, result.map fun d => (settings, d))

/-- The text of the file that a document is written as. It has a UTF-8 form, since JSON text
is ASCII. -/
def documentBytes (d : Value) : Except Fault (List UInt8) := do
  let text ← Json.write (.indented 2) d
  match text.utf8? with
  | some bytes => return bytes
  | none => throw .unencodable

/-- Writes a document to a directory. The directory is made first, the text after it. -/
def save (directory : Path) (d : Value) : ExceptT Fault m Path := do
  let () ← (Storage.makeDirectories directory : m _)
  let bytes ← documentBytes d
  let path := directory.join ⟨0, ["openapi.json"]⟩
  let () ← (Storage.write path bytes : m _)
  return path

/-- Generates a document and writes it. -/
def runGenerate (env : Environment σ) (job : Job) : m Outcome := do
  let (lines, result) ← document env job
  Outcome.after lines fun lines => do
    match result with
    | .error e => pure (.failed lines e)
    | .ok (settings, d) =>
      match ← (save (job.output.getD settings.output) d).run with
      | .error f => pure (.broken lines f)
      | .ok path => pure (.success lines [say ("OpenAPI document saved to " ++ path.text)])

/-- The line that lists an endpoint. -/
def listing (e : Endpoint) : Line :=
  let known : Text := if e.authenticated then "auth" else "public"
  say ("  " ++ e.group ++ ": " ++ ("," : Text).intercalate e.methods ++ " " ++ Document.pathKey e ++
    " (" ++ known ++ ")")

/-- Lists the routes of a manifest. -/
def runRoutes (env : Environment σ) (job : Job) : m Outcome := do
  match ← Manifest.load job.manifest with
  | .error e => pure (.failed [] e)
  | .ok routes =>
    let ((lines, result), _) :=
      (Generation.documentRoutes env.now Settings.defaultGroupName routes).run (env.source none)
    Outcome.after lines fun lines =>
      match result with
      | .error e => pure ⟨1, lines, some e⟩
      | .ok endpoints => pure (.success lines (endpoints.map listing))

/-- Runs a job unless its arguments are refused. -/
def start (p : Parsed) (act : Job → m Outcome) : m Outcome := do
  match ← (Job.ofParsed p : ExceptT Refusal m Job).run with
  | .error refusal => pure refusal.outcome
  | .ok job => act job

/-- Runs the program. The files that arguments name have to be there. -/
def run (env : Environment σ) (args : List Text) : m Outcome :=
  match Command.parse? args with
  | none => pure .usage
  | some (.help topic) => pure (.success [] (topic.text.map say))
  | some (.generate p) => start p (runGenerate env)
  | some (.routes p) => start p (runRoutes env)

end RouteDocs.Cli
