import RouteDocs.Text.Basic

/-!
# `RouteDocs.Text.Style`: text without terminal styles

A style sequence tells a terminal how to show what follows it: an escape character, an
opening bracket, parameters and a letter. Text that is not for a terminal goes without.
-/

set_option autoImplicit false

namespace RouteDocs.Text

/-- Whether `c` may stand in the parameters of a style sequence. -/
def isStyleParameter (c : CodePoint) : Bool := c.isDigit || c = ';' || c = '?'

/-- How many characters the style sequence at the start of a text has, if there is one. -/
def styleLength? : Text → Option Nat
  | .char '\x1b' :: .char '[' :: rest =>
    let parameters := rest.takeWhile isStyleParameter
    match rest.drop parameters.length with
    | c :: _ => if c.isAlpha then some (parameters.length + 3) else none
    | [] => none
  | _ => none

/-- The text without style sequences, from behind the next `passed` characters on. -/
def dropStyles.go : (passed : Nat) → Text → Text
  | _, [] => []
  | passed + 1, _ :: rest => dropStyles.go passed rest
  | 0, c :: rest =>
    match styleLength? (c :: rest) with
    | some length => dropStyles.go (length - 1) rest
    | none => c :: dropStyles.go 0 rest

/-- The text without style sequences. -/
def dropStyles (s : Text) : Text := dropStyles.go 0 s

end RouteDocs.Text
