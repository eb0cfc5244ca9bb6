import RouteDocs.Document
import RouteDocs.Endpoint.OfRoute
import RouteDocs.Text.Style

/-!
# `RouteDocs.Generation`: from routes to a document

Routes are documented one after the other, with a line of report for each. A route whose
tags are malformed, whose path variables name no argument, or whose handler has no tags is
left out, and the others are not affected. Any other failure ends the run; what was
reported before it stands.
-/

set_option autoImplicit false

namespace RouteDocs

/-- Where a line of report goes. -/
inductive Channel where
  /-- The ordinary output. -/
  | output
  /-- The diagnostics. -/
  | diagnostics
deriving DecidableEq, Repr

/-- A line of report. -/
structure Line where
  /-- Where it goes. -/
  channel : Channel
  /-- Its text, without the line end. -/
  text : Text
deriving DecidableEq, Repr

/-- The line of a text, without styles. -/
def Line.plain (channel : Channel) (text : Text) : Line := ⟨channel, text.dropStyles⟩

/-- The text of the lines of a channel. -/
def Line.textOf (channel : Channel) (ls : List Line) : Text :=
  (ls.filter fun l => l.channel = channel).flatMap fun l => l.text ++ "\n"

namespace Generation

variable {σ : Type} [RandomSource σ]

/-- The line for a route that is left out. -/
def skipped (r : Route) (reason : Text) : Line :=
  .plain .diagnostics ("Skipping route: " ++ r.describe ++ ": " ++ reason)

/-- The line for a route that is documented. -/
def processed (r : Route) : Line := .plain .output ("Processed route: " ++ r.describe)

/-- Documents routes, with a line for each. -/
def documentRoutes (now : Moment) (defaultGroup : Text) :
    List Route → StateM σ (List Line × Except Error (List Endpoint))
  | [] => pure ([], .ok [])
  | r :: rest => do
    match ← (Endpoint.ofRoute now defaultGroup r).run with
    | .error e =>
      if e.skipsRoute then
        let (ls, es) ← documentRoutes now defaultGroup rest
        pure (skipped r (e.message?.getD []) :: ls, es)
      else pure ([], .error e)
    | .ok none =>
      let (ls, es) ← documentRoutes now defaultGroup rest
      pure (skipped r "no annotation tags" :: ls, es)
    | .ok (some endpoint) =>
      let (ls, es) ← documentRoutes now defaultGroup rest
      pure (processed r :: ls, es.map (endpoint :: ·))

/-- Documents routes and puts the document together. -/
def generate (now : Moment) (settings : Settings) (base : List (Scalar × Value))
    (routes : List Route) : StateM σ (List Line × Except Error Value) := do
  match Document.samplePlan settings with
  | .error e => pure ([], .error e)
  | .ok plan =>
    let (ls, endpoints) ← documentRoutes now settings.defaultGroup routes
    pure (ls, endpoints.bind fun es => (Document.assemble settings plan es base).mapError .fault)

end Generation

end RouteDocs
