/-!
# `RouteDocs.Text.Basic`: text as a list of code points

An escape in a document may name any code point up to U+10FFFF, the surrogates among
them, and nothing pairs them up when they stand apart. So a text is a list of code points
and a code point is a character or a lone surrogate.

A text with a surrogate has no UTF-8 form (`Text.utf8?`), which is how it differs from a
string of characters. Everything else treats a surrogate as one more character that is
neither blank, digit, letter nor printable.

The classes and case maps of this module know ASCII only. The ones of every script are in
the modules beside it.
-/

set_option autoImplicit false

namespace RouteDocs

/-- A character, or one of the 2048 surrogates from U+D800 on. -/
inductive CodePoint where
  | char (c : Char)
  | surrogate (offset : Fin 2048)
  deriving DecidableEq, Repr

/-- There is a code point. -/
instance : Inhabited CodePoint := ⟨.char default⟩

/-- A character is a code point. -/
instance : Coe Char CodePoint := ⟨.char⟩

namespace CodePoint

/-- The number of a code point. -/
def toNat : CodePoint → Nat
  | .char c => c.toNat
  | .surrogate offset => 0xd800 + offset.val

/-- The code point with a number, and NUL for a number beyond the last. -/
def ofNat (n : Nat) : CodePoint :=
  if h : 0xd800 ≤ n ∧ n < 0xe000 then .surrogate ⟨n - 0xd800, by omega⟩ else .char (Char.ofNat n)

/-- The character, if the code point is one. -/
def char? : CodePoint → Option Char
  | .char c => some c
  | .surrogate _ => none

/-- Whether the code point is a character of the class `p`. -/
def isOf (p : Char → Bool) : CodePoint → Bool
  | .char c => p c
  | .surrogate _ => false

/-- An ASCII digit. -/
def isDigit : CodePoint → Bool := isOf Char.isDigit

/-- An ASCII letter. -/
def isAlpha : CodePoint → Bool := isOf Char.isAlpha

/-- An ASCII letter or digit. -/
def isAlphanum : CodePoint → Bool := isOf Char.isAlphanum

/-- An ASCII capital letter. -/
def isUpper : CodePoint → Bool := isOf Char.isUpper

/-- An ASCII small letter. -/
def isLower : CodePoint → Bool := isOf Char.isLower

/-- Applies a map of characters, and leaves a surrogate as it is. -/
def mapChar (f : Char → Char) : CodePoint → CodePoint
  | .char c => .char (f c)
  | .surrogate offset => .surrogate offset

/-- The small letter of an ASCII capital. -/
def toLower : CodePoint → CodePoint := mapChar Char.toLower

/-- The capital of an ASCII small letter. -/
def toUpper : CodePoint → CodePoint := mapChar Char.toUpper

/-- The UTF-8 form of a character. A surrogate has none. -/
def utf8? : CodePoint → Option (List UInt8)
  | .char c => some (String.utf8EncodeChar c)
  | .surrogate _ => none

end CodePoint

/-- A text: code points in order. -/
abbrev Text := List CodePoint

/-- Text that is built from characters alone. -/
def Text.ofString (s : String) : Text := s.toList.map .char

/-- A string is a text of its characters. -/
instance : Coe String Text := ⟨Text.ofString⟩

namespace Text

/-- The characters of a text as a string, or nothing if it holds a surrogate. -/
def string? (s : Text) : Option String := (s.mapM CodePoint.char?).map String.ofList

/-- The UTF-8 form of a text, or nothing if it holds a surrogate. -/
def utf8? (s : Text) : Option (List UInt8) := (s.mapM CodePoint.utf8?).map List.flatten

/-- The text whose UTF-8 form the bytes are. -/
def ofUtf8? (bytes : List UInt8) : Option Text :=
  (String.fromUTF8? ⟨bytes.toArray⟩).map ofString

end Text

end RouteDocs
