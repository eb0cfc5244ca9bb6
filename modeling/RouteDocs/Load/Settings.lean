import RouteDocs.Settings
import RouteDocs.Storage.Basic
import RouteDocs.Yaml.Content

/-!
# `RouteDocs.Load.Settings`: the settings file

Settings are a YAML mapping. A file that says nothing gives the defaults. A relative path
to a base document is relative to the settings file.
-/

set_option autoImplicit false

namespace RouteDocs.Settings

/-- Whether every key is a text. -/
def hasTextKeys (entries : List (Scalar × Part)) : Bool :=
  entries.all fun e => match e.1 with
    | .str _ => true
    | _ => false

/-- A setting as a value. The settings hold its list or mapping, and the mappings in such a
list, anew; so what is in those are trees that start there. -/
def settingValue (p : Part) : Value := p.valueBelow 2

/-- Settings from the content of a settings file. -/
def ofPart (path : Path) (p : Part) : Except Error Settings :=
  match (if p.isTruthy then p.view else .map []) with
  | .map entries =>
    if !hasTextKeys entries then .error (.fault .wrongKind)
    else
      match Settings.ofFields fun key => (Entries.get? (.str key) entries).map settingValue with
      | .error invalid => .error (.config (.invalidSettings path.text invalid))
      | .ok s => .ok { s with baseSchema := s.baseSchema.map fun base => path.parent.join base }
  | _ => .error (.config (.settingsNotMap path.text))

/-- Settings from the bytes of a settings file. -/
def ofFile (path : Path) (content : Except Fault (List UInt8)) : Except Error Settings :=
  match content with
  | .error (.storage fault) => .error (.config (.unreadableSettings path.text (.storage fault)))
  | .error fault => .error (.fault fault)
  | .ok bytes =>
    match textOfBytes? bytes with
    | none => .error (.fault .undecodable)
    | some text =>
      match Yaml.read text with
      | .error .malformed => .error (.config (.unreadableSettings path.text .yaml))
      | .error (.fault f) => .error (.fault f)
      | .ok p => ofPart path p

/-- Loads settings, the defaults without a path. -/
def load {m : Type → Type} [Monad m] [Storage m] : Option Path → m (Except Error Settings)
  | none => pure (.ok {})
  | some path => return ofFile path (← Storage.read path)

end RouteDocs.Settings
