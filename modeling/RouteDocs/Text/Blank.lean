import RouteDocs.Text.Ranges

/-!
# `RouteDocs.Text.Blank`: white space, trimming and words

Annotation text is free-form, so most of its grammar is "words divided by blanks".
A blank is Unicode white space or one of the four ASCII information separators. The
zero-width space and the byte order mark are not blanks.

`takeToken` is the step the tag grammar is made
of: it hands back one word and the text after it, with the blanks in between dropped
and the blanks at the far end kept.
-/

set_option autoImplicit false

namespace RouteDocs.Text

/-- The blanks, as closed code point ranges. -/
def blankRanges : List (Nat × Nat) :=
  [(0x9, 0xd), (0x1c, 0x20), (0x85, 0x85), (0xa0, 0xa0), (0x1680, 0x1680), (0x2000, 0x200a),
   (0x2028, 0x2029), (0x202f, 0x202f), (0x205f, 0x205f), (0x3000, 0x3000)]

/-- Whether `c` divides words. -/
def isBlank (c : CodePoint) : Bool := within blankRanges c

/-- Whether `c` may indent a line: a space or a tab. -/
def isIndent (c : CodePoint) : Bool := c = ' ' || c = '\t'

/-- The text without its longest run of `p` characters at the end. -/
def dropEndWhile (p : CodePoint → Bool) (s : Text) : Text :=
  (s.reverse.dropWhile p).reverse

/-- The text without blanks in front. -/
def trimStart (s : Text) : Text := s.dropWhile isBlank

/-- The text without blanks at the end. -/
def trimEnd (s : Text) : Text := dropEndWhile isBlank s

/-- The text without blanks at either end. -/
def trim (s : Text) : Text := trimEnd (trimStart s)

/-- Drops every character of `chars` from both ends. -/
def trimOf (chars : Text) (s : Text) : Text :=
  dropEndWhile chars.contains (s.dropWhile chars.contains)

/-- Cuts `s` at every element that satisfies `p`. The pieces hold none of them, and
there is one more piece than there are cuts. -/
def splitWhere {α : Type} (p : α → Bool) : List α → List (List α)
  | [] => [[]]
  | c :: cs =>
    if p c then [] :: splitWhere p cs
    else match splitWhere p cs with
      | [] => [[c]]
      | piece :: pieces => (c :: piece) :: pieces

/-- The words of a text: its maximal runs without a blank. -/
def words (s : Text) : List Text :=
  (splitWhere isBlank s).filter (!·.isEmpty)

/-- Splits off the first word. The rest starts at the second word, and keeps its
blanks at the end. -/
def takeToken (s : Text) : Text × Text :=
  let start := trimStart s
  (start.takeWhile (!isBlank ·), trimStart (start.dropWhile (!isBlank ·)))

end RouteDocs.Text
