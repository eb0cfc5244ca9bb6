import RouteDocs.Text.Hex
import RouteDocs.Text.Units
import RouteDocs.Value.Literal

/-!
# `RouteDocs.Json.Writer`: values as JSON text

Documents, code samples and expanded shorthand lines are JSON. Texts are written in
ASCII, with escapes for everything else. Keys that are numbers, truth values or null
become texts; a key of any other kind has no JSON form. A value that JSON does not know
is written as its display text. A value that contains itself has no JSON text, and neither
has one that is nested too deeply.

A compact text has `, ` and `: ` between its parts. An indented text puts each part on a
line of its own, and leaves an empty list or mapping on one.
-/

set_option autoImplicit false

namespace RouteDocs.Json

open Text Number

/-- How the parts of a text are laid out. -/
inductive Layout where
  /-- Everything on one line. -/
  | compact
  /-- One part a line, each level indented by this many spaces. -/
  | indented (width : Nat)
deriving DecidableEq, Repr

/-- The spelling of numbers without digits. -/
def numberWords : Words := ⟨"Infinity", "NaN"⟩

/-- One character of a text. -/
def charText (c : CodePoint) : Text :=
  if c = '"' then ['\\', '"']
  else if c = '\\' then ['\\', '\\']
  else if c = '\n' then ['\\', 'n']
  else if c = '\r' then ['\\', 'r']
  else if c = '\t' then ['\\', 't']
  else if c.toNat = 0x8 then ['\\', 'b']
  else if c.toNat = 0xc then ['\\', 'f']
  else if 0x20 ≤ c.toNat && c.toNat < 0x7f then [c]
  else (units16 c).flatMap fun unit => "\\u" ++ toHex 4 unit

/-- A text between double quotes. -/
def stringText (s : Text) : Text := "\"" ++ s.flatMap charText ++ "\""

/-- A value without parts. -/
def scalarText : Scalar → Except Fault Text
  | .null => .ok "null"
  | .bool true => .ok "true"
  | .bool false => .ok "false"
  | .int i => Scalar.literal (.int i)
  | .float x => .ok (floatText numberWords x)
  | s => s.display.map stringText

/-- A key, as a quoted text. -/
def keyText : Scalar → Except Fault Text
  | .str s => .ok (stringText s)
  | .null => .ok (stringText "null")
  | .bool true => .ok (stringText "true")
  | .bool false => .ok (stringText "false")
  | .int i => (Scalar.literal (.int i)).map stringText
  | .float x => .ok (stringText (floatText numberWords x))
  | _ => .error .wrongKind

namespace Layout

/-- What stands between an opening bracket and the first part, at a depth. -/
def open_ (layout : Layout) (depth : Nat) : Text :=
  match layout with
  | .compact => []
  | .indented width => "\n" ++ List.replicate (width * (depth + 1)) (CodePoint.char ' ')

/-- What stands between two parts. -/
def between (layout : Layout) (depth : Nat) : Text :=
  match layout with
  | .compact => ", "
  | .indented _ => "," ++ layout.open_ depth

/-- What stands between the last part and the closing bracket. -/
def close (layout : Layout) (depth : Nat) : Text :=
  match layout with
  | .compact => []
  | .indented width => "\n" ++ List.replicate (width * depth) (CodePoint.char ' ')

/-- Parts between brackets. -/
def enclose (layout : Layout) (depth : Nat) (opening closing : CodePoint) (parts : List Text) :
    Text :=
  match parts with
  | [] => [opening, closing]
  | _ :: _ =>
    opening :: layout.open_ depth ++ (layout.between depth).intercalate parts ++
      layout.close depth ++ [closing]

end Layout

/-- How deeply lists and mappings may be nested. -/
def maxDepth : Nat := 990

/-- Refuses a list or mapping at too great a depth. -/
def checkDepth (depth : Nat) : Except Fault Unit := if maxDepth ≤ depth then .error .endless else .ok ()

mutual

/-- A value at a depth of nesting. -/
def valueText (layout : Layout) (depth : Nat) : Value → Except Fault Text
  | .scalar s => scalarText s
  | .list items => do
    checkDepth depth
    let parts ← itemTexts layout (depth + 1) items
    pure (layout.enclose depth '[' ']' parts)
  | .pair key value => do
    checkDepth depth
    let first ← valueText layout (depth + 1) key
    let second ← valueText layout (depth + 1) value
    pure (layout.enclose depth '[' ']' [first, second])
  | .set members => (Value.literal (.set members)).map stringText
  | .map entries => do
    checkDepth depth
    let parts ← entryTexts layout (depth + 1) entries
    pure (layout.enclose depth '\x7b' '\x7d' parts)
  | .loop _ => .error .badValue

/-- The elements of a list. -/
def itemTexts (layout : Layout) (depth : Nat) : List Value → Except Fault (List Text)
  | [] => .ok []
  | v :: vs => do
    let first ← valueText layout depth v
    let others ← itemTexts layout depth vs
    pure (first :: others)

/-- The entries of a mapping. -/
def entryTexts (layout : Layout) (depth : Nat) :
    List (Scalar × Value) → Except Fault (List Text)
  | [] => .ok []
  | (k, v) :: es => do
    let name ← keyText k
    let value ← valueText layout depth v
    let others ← entryTexts layout depth es
    pure ((name ++ ": " ++ value) :: others)

end

/-- The JSON text of a value. -/
def write (layout : Layout) (v : Value) : Except Fault Text := valueText layout 0 v

end RouteDocs.Json
