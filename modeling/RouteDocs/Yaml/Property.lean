import RouteDocs.Number.Notation
import RouteDocs.Text.Hex
import RouteDocs.Yaml.Cursor
import RouteDocs.Yaml.Token

/-!
# `RouteDocs.Yaml.Property`: anchors, tags and directives

A node may carry an anchor, by which an alias refers to it, and a tag, which tells its
kind. Directives at the top of a text say what the handles of tags stand for.
-/

set_option autoImplicit false

namespace RouteDocs.Yaml

open Text

/-- Whether `c` may stand in an anchor, a directive name or a tag handle. -/
def isNameChar (c : CodePoint) : Bool := c.isAlphanum || c = '-' || c = '_'

/-- The name of an anchor or alias, from behind its indicator. -/
def anchorName (c : Cursor) : Except Failure (Text × Cursor) :=
  let (name, c) := c.span isNameChar
  let ends := match c.peek 0 with
    | none => true
    | some x => atGap (some x) || ("?:,]\x7d%@" : Text).contains x || x.toNat = 0x60
  if name.isEmpty || !ends then .error .malformed else .ok (name, c)

/-- Whether `c` may stand in a tag as it is. -/
def isUriChar (c : CodePoint) : Bool :=
  c.isAlphanum || ("-;/?:@&=+$,_.!~*'()[]" : Text).contains c

/-- The bytes of the percent escapes that come next. -/
def percentBytes : (fuel : Nat) → Cursor → Except Failure (List UInt8 × Cursor)
  | 0, _ => .error .malformed
  | fuel + 1, c =>
    if c.at_ '%' then
      match c.peek 1 >>= hexValue?, c.peek 2 >>= hexValue? with
      | some high, some low =>
        (percentBytes fuel (c.advance 3)).map fun r => (UInt8.ofNat (16 * high + low) :: r.1, r.2)
      | _, _ => .error .malformed
    else .ok ([], c)

/-- The pieces of a tag's address: characters as they are, and escapes. -/
def uriPieces : (fuel : Nat) → Cursor → Except Failure (Text × Cursor)
  | 0, _ => .error .malformed
  | fuel + 1, c =>
    if c.at_ '%' then do
      let (bytes, c) ← percentBytes fuel c
      match ofUtf8? bytes with
      | none => .error .malformed
      | some s => do
        let (more, c) ← uriPieces fuel c
        .ok (s ++ more, c)
    else
      match c.rest with
      | x :: _ =>
        if isUriChar x then (uriPieces fuel c.next).map fun r => (x :: r.1, r.2) else .ok ([], c)
      | [] => .ok ([], c)

/-- The address of a tag, which may not be empty. -/
def uriText (c : Cursor) : Except Failure (Text × Cursor) :=
  match c.rest with
  | [] => .error .malformed
  | x :: _ => if isUriChar x || x = '%' then uriPieces (c.rest.length + 1) c else .error .malformed

/-- The handle of a tag: an exclamation mark, two of them, or a name between two. -/
def tagHandle (c : Cursor) : Except Failure (Text × Cursor) :=
  if !c.at_ '!' then .error .malformed
  else
    let c := c.next
    if c.at_ ' ' then .ok ("!", c)
    else
      let (name, c) := c.span isNameChar
      if c.at_ '!' then .ok ("!" ++ name ++ "!", c.next) else .error .malformed

/-- A tag, from its exclamation mark on. -/
def tagText (c : Cursor) : Except Failure (RawTag × Cursor) := do
  let (tag, c) ←
    if c.peek 1 = some (.char '<') then do
      let (suffix, c) ← uriText (c.advance 2)
      if c.at_ '>' then .ok (RawTag.mk none suffix, c.next) else .error .malformed
    else if atGap (c.peek 1) then .ok (RawTag.mk none "!", c.next)
    else
      -- A second exclamation mark before the next space makes the first part a handle.
      let word := c.next.rest.takeWhile fun x => !atSpace (some x)
      if word.contains '!' then do
        let (handle, c) ← tagHandle c
        let (suffix, c) ← uriText c
        .ok (RawTag.mk (some handle) suffix, c)
      else do
        let (suffix, c) ← uriText c.next
        .ok (RawTag.mk (some ("!" : Text)) suffix, c)
  if atSpace (c.peek 0) then .ok (tag, c) else .error .malformed

/-- A whole number of a version directive. -/
def versionNumber (c : Cursor) : Except Failure (Nat × Cursor) :=
  let (digits, c) := c.span CodePoint.isDigit
  if digits.isEmpty then .error .malformed
  else if Number.maxDigits < digits.length then .error (.fault .badValue)
  else .ok (digits.foldl (fun n d => 10 * n + (d.toNat - 48)) 0, c)

/-- What a directive says, from behind its name. -/
def directiveBody (name : Text) (c : Cursor) : Except Failure (Directive × Cursor) :=
  if name = "YAML" then do
    let (major, c) ← versionNumber c.skipSpaces
    if c.at_ '.' then do
      let (minor, c) ← versionNumber c.next
      if atSpace (c.peek 0) then .ok (.version major minor, c) else .error .malformed
    else .error .malformed
  else if name = "TAG" then do
    let (handle, c) ← tagHandle c.skipSpaces
    if c.at_ ' ' then do
      let (replacement, c) ← uriText c.skipSpaces
      if atSpace (c.peek 0) then .ok (.handle handle replacement, c) else .error .malformed
    else .error .malformed
  else .ok (.other, c.skipLine)

/-- A directive, from its percent sign to the end of its line. -/
def directiveText (c : Cursor) : Except Failure (Directive × Cursor) := do
  let (name, c) := c.next.span isNameChar
  if name.isEmpty || !atSpace (c.peek 0) then .error .malformed
  else do
    let (directive, c) ← directiveBody name c
    let c := c.skipSpaces
    let c := if c.at_ '#' then c.skipLine else c
    if atBreak (c.peek 0) then .ok (directive, c.lineBreak.2) else .error .malformed

end RouteDocs.Yaml
