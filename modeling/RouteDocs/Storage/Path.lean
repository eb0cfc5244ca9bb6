import RouteDocs.Fault
import RouteDocs.Text.Blank

/-!
# `RouteDocs.Storage.Path`: file paths

A path is a root and the names below it. Repeated slashes and single dots in a path's text
mean nothing; double dots are kept as names. The path without a root or names is the
current directory and shows as a dot.

A file storage knows a path by bytes: characters in UTF-8, and each of the 128 surrogates
from U+DC80 on as the single byte that it stands for. A path with another surrogate, or
with NUL, cannot be asked for, and one of 4096 bytes or more is too long.
-/

set_option autoImplicit false

namespace RouteDocs

open Text

/-- The bytes by which a file storage knows a code point. -/
def CodePoint.nameBytes? : CodePoint → Option (List UInt8)
  | .char c => some (String.utf8EncodeChar c)
  | .surrogate offset =>
    if 0x480 ≤ offset.val && offset.val < 0x500 then some [UInt8.ofNat (offset.val - 0x400)]
    else none

/-- The bytes by which a file storage knows a path or a name. -/
def Text.nameBytes? (s : Text) : Option (List UInt8) := (s.mapM CodePoint.nameBytes?).map List.flatten

/-- A file path. -/
structure Path where
  /-- How many slashes the root has: none for a relative path, else one or two. -/
  root : Nat
  /-- The names from the root down. -/
  names : List Text
deriving DecidableEq, Repr

namespace Path

/-- How many bytes the text of a path has at most. -/
def maxBytes : Nat := 4095

/-- How many bytes a name has at most. -/
def maxNameBytes : Nat := 255

/-- Whether a name is longer than a file storage takes. -/
def isLongName (name : Text) : Bool := name.nameBytes?.any (maxNameBytes < ·.length)

/-- Refuses a path text that no file storage can be asked about. -/
def checkText (s : Text) : Except Fault Unit :=
  match s.nameBytes? with
  | none => .error .unencodable
  | some bytes =>
    if bytes.contains 0 then .error .badValue
    else if maxBytes < bytes.length then .error (.storage ⟨.tooLong, s⟩)
    else .ok ()

/-- The pieces of a path text between slashes. -/
def pieces (s : Text) : List Text := splitWhere (· = ('/' : CodePoint)) s

/-- The path of a text. Exactly two slashes in front are a root of their own. -/
def ofText (s : Text) : Path :=
  let slashes := (s.takeWhile (· = ('/' : CodePoint))).length
  ⟨if slashes = 2 then 2 else min slashes 1, (pieces s).filter fun n => !n.isEmpty && n ≠ "."⟩

/-- The text of a path. -/
def text (p : Path) : Text :=
  if p.root = 0 && p.names.isEmpty then "."
  else List.replicate p.root (CodePoint.char '/') ++ ("/" : Text).intercalate p.names

/-- Whether the path starts at the root of the storage. -/
def isAbsolute (p : Path) : Bool := p.root != 0

/-- The path without its last name. -/
def parent (p : Path) : Path := ⟨p.root, p.names.dropLast⟩

/-- A path below another. An absolute path is below none but the root. -/
def join (p q : Path) : Path := if q.isAbsolute then q else ⟨p.root, p.names ++ q.names⟩

/-- The last name, or nothing for a root. -/
def name (p : Path) : Text := p.names.getLast?.getD []

/-- The last name from its last dot on, unless that dot is its first or last character. -/
def suffix (p : Path) : Text :=
  let after := p.name.reverse.takeWhile (· ≠ ('.' : CodePoint))
  let before := (p.name.reverse.dropWhile (· ≠ ('.' : CodePoint))).drop 1
  if after.isEmpty || before.isEmpty || after.length = p.name.length then []
  else "." ++ after.reverse

end Path

end RouteDocs
