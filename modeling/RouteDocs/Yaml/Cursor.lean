import RouteDocs.Text.Basic

/-!
# `RouteDocs.Yaml.Cursor`: a place in a YAML text

YAML gives meaning to line and column, so the scanner walks the text with a cursor that
counts both. A carriage return with a line feed is one line break, a byte order mark has
no width, and the end of the text is told by `peek` giving nothing.
-/

set_option autoImplicit false

namespace RouteDocs.Yaml

/-- The text still to be read, and the place it starts at. -/
structure Cursor where
  /-- The text still to be read. -/
  rest : Text
  /-- How many characters were read. -/
  index : Nat
  /-- How many lines were ended. -/
  line : Nat
  /-- How many characters stand before this one on its line. -/
  column : Nat
deriving DecidableEq, Repr

/-- Whether `c` breaks a line. -/
def isBreak (c : CodePoint) : Bool :=
  c = '\n' || c = '\r' || c.toNat = 0x85 || c.toNat = 0x2028 || c.toNat = 0x2029

/-- Whether a place is at a line break or at the end. -/
def atBreak : Option CodePoint → Bool
  | none => true
  | some c => isBreak c

/-- Whether a place is at a space, a line break or the end. -/
def atSpace : Option CodePoint → Bool
  | none => true
  | some c => c = ' ' || isBreak c

/-- Whether a place is at a space, a tab, a line break or the end. -/
def atGap : Option CodePoint → Bool
  | none => true
  | some c => c = ' ' || c = '\t' || isBreak c

namespace Cursor

/-- The start of a text. -/
def ofText (s : Text) : Cursor := ⟨s, 0, 0, 0⟩

/-- The character `k` places ahead, if the text is that long. -/
def peek (c : Cursor) (k : Nat) : Option CodePoint := c.rest[k]?

/-- Whether the next character is `x`. -/
def at_ (c : Cursor) (x : CodePoint) : Bool := c.peek 0 == some x

/-- The place after one more character. -/
def next (c : Cursor) : Cursor :=
  match c.rest with
  | [] => c
  | x :: rest =>
    if x = '\r' && rest.head? = some (.char '\n') then ⟨rest, c.index + 1, c.line, c.column + 1⟩
    else if isBreak x then ⟨rest, c.index + 1, c.line + 1, 0⟩
    else if x.toNat = 0xfeff then ⟨rest, c.index + 1, c.line, c.column⟩
    else ⟨rest, c.index + 1, c.line, c.column + 1⟩

/-- The place after `n` more characters. -/
def advance : (n : Nat) → Cursor → Cursor
  | 0, c => c
  | n + 1, c => advance n c.next

/-- The longest run of characters with `p`, and the place after it. -/
def span (p : CodePoint → Bool) (c : Cursor) : Text × Cursor :=
  let run := c.rest.takeWhile p
  (run, c.advance run.length)

/-- The place after the longest run of characters with `p`. -/
def skip (p : CodePoint → Bool) (c : Cursor) : Cursor := (c.span p).2

/-- The place after the spaces that come next. -/
def skipSpaces (c : Cursor) : Cursor := c.skip (· = (' ' : CodePoint))

/-- The place at the end of the line. -/
def skipLine (c : Cursor) : Cursor := c.skip (!isBreak ·)

/-- Passes a line break and tells how it counts in a text. The separators of Unicode
stay what they are, every other break is a line feed. Nothing is passed elsewhere. -/
def lineBreak (c : Cursor) : Text × Cursor :=
  match c.rest with
  | .char '\r' :: .char '\n' :: _ => ("\n", c.advance 2)
  | x :: _ =>
    if x = '\r' || x = '\n' || x.toNat = 0x85 then ("\n", c.next)
    else if isBreak x then ([x], c.next)
    else ([], c)
  | [] => ([], c)

/-- Whether a document marker of three characters `mark` stands here, as a word. -/
def atMarker (c : Cursor) (mark : CodePoint) : Bool :=
  c.peek 0 == some mark && c.peek 1 == some mark && c.peek 2 == some mark && atGap (c.peek 3)

/-- Whether either document marker stands here. -/
def atAnyMarker (c : Cursor) : Bool := c.atMarker '-' || c.atMarker '.'

end Cursor

end RouteDocs.Yaml
