import RouteDocs.Fault
import RouteDocs.Text.Word

/-!
# `RouteDocs.Route.Template`: path templates

A path template has variables between braces: `{id}`, the optional `{id?}`, and `{id:int}`
with a pattern. A brace that opens no variable is plain text. The template is read from
left to right, and what a variable took is not looked at again.
-/

set_option autoImplicit false

namespace RouteDocs.Template

open Text

/-- A part of a template. -/
inductive Piece where
  /-- A character of plain text. -/
  | char (c : CodePoint)
  /-- A variable, and the text that it is written as. -/
  | placeholder (name source : Text)
deriving DecidableEq, Repr

/-- What may follow the name of a variable up to the closing brace: a question mark, a
pattern, both or nothing. The brace comes with it. -/
def variableEnd? (s : Text) : Option Text :=
  let (mark, rest) : Text × Text := match s with
    | .char '?' :: rest => ("?", rest)
    | s => ([], s)
  match rest with
  | .char '\x7d' :: _ => some (mark ++ "\x7d")
  | .char ':' :: pattern =>
    if pattern.contains '\x7d' then
      some (mark ++ ":" ++ pattern.takeWhile (· ≠ ('\x7d' : CodePoint)) ++ "\x7d")
    else none
  | _ => none

/-- The variable that starts here, if one does. -/
def variableAt? : Text → Option (Text × Text)
  | .char '\x7b' :: rest =>
    let name := rest.takeWhile isWord
    if name.isEmpty then none
    else (variableEnd? (rest.dropWhile isWord)).map fun ending => (name, "\x7b" ++ name ++ ending)
  | _ => none

/-- The pieces of a template, while `skip` characters of a variable are still to be passed
over. -/
def pieces.go : (skip : Nat) → Text → List Piece
  | _, [] => []
  | skip + 1, _ :: cs => pieces.go skip cs
  | 0, c :: cs =>
    match variableAt? (c :: cs) with
    | some (name, source) => .placeholder name source :: pieces.go (source.length - 1) cs
    | none => .char c :: pieces.go 0 cs

/-- The pieces of a template. -/
def pieces (template : Text) : List Piece := pieces.go 0 template

/-- The names of a template's variables, in order and with repetitions. -/
def variableNames (template : Text) : List Text :=
  (pieces template).filterMap fun p => match p with
    | .placeholder name _ => some name
    | .char _ => none

/-- The template with each variable replaced by what `value?` gives for its name. A variable
without a value stays as it is written. -/
def fill (value? : Text → Except Fault (Option Text)) (template : Text) : Except Fault Text := do
  let parts ← (pieces template).mapM fun p => match p with
    | .char c => .ok [c]
    | .placeholder name source => (value? name).map (·.getD source)
  return parts.flatten

end RouteDocs.Template
