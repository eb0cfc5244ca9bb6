import RouteDocs.Error
import RouteDocs.Storage.Basic
import RouteDocs.Yaml.Content

/-!
# `RouteDocs.Load.BaseDocument`: the author's document

The base document is a mapping in YAML or JSON, as the end of its file name tells.
-/

set_option autoImplicit false

namespace RouteDocs.BaseDocument

/-- Whether a file name is that of a YAML file. -/
def isYamlName (path : Path) : Bool :=
  path.suffix = ".yml" || path.suffix = ".yaml"

/-- The value of a base document's text. Each entry of the document is a tree that starts
there. -/
def valueOf (path : Path) (text : Text) : Except Error Value :=
  let invalid := fun (p : ReadProblem) => Error.baseDocument (.invalid path.text p)
  if isYamlName path then
    match Yaml.read text with
    | .error .malformed => .error (invalid .yaml)
    | .error (.fault f) => .error (.fault f)
    | .ok part =>
      match part.fields? with
      | some entries => .ok (.map entries)
      | none => .ok part.value
  else
    match Json.read text with
    | .error (.malformed problem rest) =>
      .error (invalid (.json (Json.describe text problem rest)))
    | .error .tooManyDigits => .error (.fault .badValue)
    | .error .tooDeep => .error (.fault .endless)
    | .ok v => .ok v

/-- The entries of a base document from the content of its file. -/
def ofFile (path : Path) (content : Except Fault (List UInt8)) :
    Except Error (List (Scalar × Value)) :=
  match content with
  | .error (.storage fault) => .error (.baseDocument (.unreadable path.text fault))
  | .error fault => .error (.fault fault)
  | .ok bytes =>
    match textOfBytes? bytes with
    | none => .error (.fault .undecodable)
    | some text => do
      match ← valueOf path text with
      | .map entries => .ok entries
      | _ => .error (.baseDocument (.notMap path.text))

/-- Loads a base document. -/
def load {m : Type → Type} [Monad m] [Storage m] (path : Path) :
    m (Except Error (List (Scalar × Value))) :=
  return ofFile path (← Storage.read path)

/-- Loads the base document that settings name; without one there is nothing to merge. -/
def loadIfAny {m : Type → Type} [Monad m] [Storage m] : Option Path →
    m (Except Error (List (Scalar × Value)))
  | none => pure (.ok [])
  | some path => load path

end RouteDocs.BaseDocument
