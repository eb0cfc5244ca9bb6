import RouteDocs.Text.Blank

/-!
# `RouteDocs.Text.Lines`: lines, separators and margins

Two notions of a line live side by side. A block's margin is cut line by line where a
line ends at a line feed; the lines of the block are then taken apart at every line
boundary of Unicode, a carriage return with a line feed counting once.

`splitOn` cuts at a separator of any length, leftmost first and without overlap.
-/

set_option autoImplicit false

namespace RouteDocs.Text

/-- The rest of `s` after `start`, if `s` begins with it. -/
def dropStart? : (start s : Text) → Option Text
  | [], s => some s
  | _ :: _, [] => none
  | p :: ps, c :: cs => if p = c then dropStart? ps cs else none

/-- Puts `c` in front of the first piece. -/
def pushFirst (c : CodePoint) : List Text → List Text
  | [] => [[c]]
  | piece :: pieces => (c :: piece) :: pieces

/-- Cuts at `sep`, while `skip` characters of a separator already found are still to be
passed over. -/
def splitOn.go (sep : Text) : (skip : Nat) → Text → List Text
  | _, [] => [[]]
  | skip + 1, _ :: cs => splitOn.go sep skip cs
  | 0, c :: cs =>
    if sep.isPrefixOf (c :: cs) then [] :: splitOn.go sep (sep.length - 1) cs
    else pushFirst c (splitOn.go sep 0 cs)

/-- The pieces of `s` between occurrences of the non-empty text `sep`. -/
def splitOn (sep s : Text) : List Text := splitOn.go sep 0 s

/-- Whether `part` occurs in `s`. -/
def hasPart (part : Text) : Text → Bool
  | [] => part.isEmpty
  | c :: cs => part.isPrefixOf (c :: cs) || hasPart part cs

/-- The lines of a text, a line being ended by a line feed. -/
def lines (s : Text) : List Text := splitWhere (· = ('\n' : CodePoint)) s

/-- Joins lines with line feeds. -/
def unlines (ls : List Text) : Text := ("\n" : Text).intercalate ls

/-- Whether `c` ends a line by itself. -/
def isLineBreak (c : CodePoint) : Bool :=
  [0xa, 0xb, 0xc, 0xd, 0x1c, 0x1d, 0x1e, 0x85, 0x2028, 0x2029].contains c.toNat

/-- The lines of a text at every line boundary. A boundary at the very end opens no
further line. -/
def breakLines : Text → List Text
  | [] => []
  | .char '\r' :: .char '\n' :: cs => [] :: breakLines cs
  | c :: cs => if isLineBreak c then [] :: breakLines cs else pushFirst c (breakLines cs)

/-- Line ends of every platform as line feeds: a carriage return, alone or before a
line feed, becomes one line feed. -/
def normalizeLineEnds : Text → Text
  | [] => []
  | .char '\r' :: .char '\n' :: cs => '\n' :: normalizeLineEnds cs
  | c :: cs => (if c = '\r' then '\n' else c) :: normalizeLineEnds cs

/-- The longest common start of two texts. -/
def commonStart : (a b : Text) → Text
  | a :: as, b :: bs => if a = b then a :: commonStart as bs else []
  | _, _ => []

/-- The margin of a list of lines: the longest run of spaces and tabs that every line
with another character begins with. -/
def margin (ls : List Text) : Text :=
  match (ls.filter (·.any (!isIndent ·))).map (·.takeWhile isIndent) with
  | [] => []
  | first :: others => others.foldl commonStart first

/-- Empties a line of spaces and tabs, and leaves any other as it is. -/
def clearIndent (line : Text) : Text := if line.all isIndent then [] else line

/-- Cuts the margin off a text. Lines of spaces and tabs alone become empty and have no
say in the margin. -/
def dedent (s : Text) : Text :=
  let ls := (lines s).map clearIndent
  unlines (ls.map (·.drop (margin ls).length))

end RouteDocs.Text
