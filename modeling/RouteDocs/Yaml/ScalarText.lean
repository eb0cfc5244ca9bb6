import RouteDocs.Text.Hex
import RouteDocs.Yaml.Cursor
import RouteDocs.Yaml.Token

/-!
# `RouteDocs.Yaml.ScalarText`: the text of a scalar

A scalar is quoted, a block, or plain. All three fold line breaks: a single break inside
a quoted or plain scalar is a space, and further breaks are kept. A block keeps its lines,
or folds those that are not indented further, and its indicators tell what becomes of the
breaks at its end.

Loops count down `fuel`, which is more than the number of characters that are left; each
round reads at least one.
-/

set_option autoImplicit false

namespace RouteDocs.Yaml

open Text

/-- What a line break and the breaks after it become when they are folded. -/
def foldBreaks (first more : Text) : Text :=
  if first ≠ "\n" then first ++ more
  else if more.isEmpty then " "
  else more

/-! ## Quoted scalars -/

/-- The character that a one-letter escape names between double quotes. -/
def escapeCode? (c : CodePoint) : Option Nat :=
  match c with
  | .char '0' => some 0x0
  | .char 'a' => some 0x7
  | .char 'b' => some 0x8
  | .char 't' => some 0x9
  | .char '\t' => some 0x9
  | .char 'n' => some 0xa
  | .char 'v' => some 0xb
  | .char 'f' => some 0xc
  | .char 'r' => some 0xd
  | .char 'e' => some 0x1b
  | .char ' ' => some 0x20
  | .char '"' => some 0x22
  | .char '\\' => some 0x5c
  | .char '/' => some 0x2f
  | .char 'N' => some 0x85
  | .char '_' => some 0xa0
  | .char 'L' => some 0x2028
  | .char 'P' => some 0x2029
  | _ => none

/-- How many hexadecimal digits follow an escape letter. -/
def escapeWidth? (c : CodePoint) : Option Nat :=
  match c with
  | .char 'x' => some 2
  | .char 'u' => some 4
  | .char 'U' => some 8
  | _ => none

/-- The code point of a numeric escape, which may be a surrogate. There is none above the
last of Unicode. -/
def escapedPoint (digits : Text) (width : Nat) : Except Failure CodePoint :=
  if digits.length < width then .error .malformed
  else match ofHex? digits with
    | none => .error .malformed
    | some n =>
      if n ≤ 0x10ffff then .ok (CodePoint.ofNat n)
      else if n ≤ 0x7fffffff then .error (.fault .badValue)
      else .error (.fault .tooLarge)

/-- The line breaks after one inside quotes, with the indentation between them dropped. A
document marker may not stand there. -/
def quotedBreaks : (fuel : Nat) → Cursor → Except Failure (Text × Cursor)
  | 0, _ => .error .malformed
  | fuel + 1, c =>
    if c.atAnyMarker then .error .malformed
    else
      let c := c.skip fun x => x = ' ' || x = '\t'
      match c.lineBreak with
      | ([], _) => .ok ([], c)
      | (brk, c) => (quotedBreaks fuel c).map fun r => (brk ++ r.1, r.2)

/-- The text of a quoted scalar up to its closing quote, which is passed. -/
def quotedRest (double : Bool) : (fuel : Nat) → Cursor → Except Failure (Text × Cursor)
  | 0, _ => .error .malformed
  | fuel + 1, c =>
    let following := fun (text : Text) (c : Cursor) =>
      (quotedRest double fuel c).map fun r => (text ++ r.1, r.2)
    match c.rest with
    | [] => .error .malformed
    | x :: _ =>
      if x = '\'' && !double then
        if c.peek 1 = some x then following [x] (c.advance 2) else .ok ([], c.next)
      else if x = '"' && double then .ok ([], c.next)
      else if x = '\\' && double then
        let c := c.next
        match c.peek 0 with
        | none => .error .malformed
        | some letter =>
          match escapeCode? letter with
          | some code => following [CodePoint.ofNat code] c.next
          | none =>
            match escapeWidth? letter with
            | some width => do
              let c := c.next
              let point ← escapedPoint (c.rest.take width) width
              following [point] (c.advance width)
            | none =>
              if isBreak letter then do
                let (breaks, c) ← quotedBreaks fuel c.lineBreak.2
                following breaks c
              else .error .malformed
      else if x = ' ' || x = '\t' || isBreak x then
        let (gap, c) := c.span fun x => x = ' ' || x = '\t'
        match c.lineBreak with
        | ([], _) => following gap c
        | (brk, c) => do
          let (breaks, c) ← quotedBreaks fuel c
          following (foldBreaks brk breaks) c
      else following [x] c.next

/-- A quoted scalar, from its opening quote on. -/
def quotedText (double : Bool) (fuel : Nat) (c : Cursor) : Except Failure (Text × Cursor) :=
  quotedRest double fuel c.next

/-! ## Block scalars -/

/-- What becomes of the line breaks at the end of a block. -/
inductive Chomping where
  /-- None is kept. -/
  | strip
  /-- The first is kept. -/
  | clip
  /-- All are kept. -/
  | keep
deriving DecidableEq, Repr

/-- The indicators after a block's first character: chomping and explicit indentation. -/
def blockIndicators (c : Cursor) : Except Failure ((Chomping × Option Nat) × Cursor) := do
  let chomping? := fun (x : Option CodePoint) =>
    if x = some (.char '+') then some Chomping.keep
    else if x = some (.char '-') then some Chomping.strip
    else none
  let digit? := fun (x : Option CodePoint) =>
    x.bind fun d => if d.isDigit then some (d.toNat - 48) else none
  let (indicators, c) :=
    match chomping? (c.peek 0) with
    | some chomping =>
      match digit? (c.peek 1) with
      | some d => ((chomping, some d), c.advance 2)
      | none => ((chomping, none), c.advance 1)
    | none =>
      match digit? (c.peek 0) with
      | some d =>
        match chomping? (c.peek 1) with
        | some chomping => ((chomping, some d), c.advance 2)
        | none => ((.clip, some d), c.advance 1)
      | none => ((.clip, none), c)
  if indicators.2 = some 0 || !atSpace (c.peek 0) then .error .malformed
  else .ok (indicators, c)

/-- Passes the rest of a line that may hold only spaces and a comment. -/
def ignoredLine (c : Cursor) : Except Failure Cursor :=
  let c := c.skipSpaces
  let c := if c.at_ '#' then c.skipLine else c
  if atBreak (c.peek 0) then .ok c.lineBreak.2 else .error .malformed

/-- The empty lines before a block's first line, and the deepest indentation among them
and of that line. -/
def blockStart : (fuel deepest : Nat) → Cursor → Text × Nat × Cursor
  | 0, deepest, c => ([], deepest, c)
  | fuel + 1, deepest, c =>
    if c.at_ ' ' then
      let c := c.next
      blockStart fuel (max deepest c.column) c
    else
      match c.lineBreak with
      | ([], _) => ([], deepest, c)
      | (brk, c) =>
        let (more, deepest, c) := blockStart fuel deepest c
        (brk ++ more, deepest, c)

/-- Passes at most the spaces that bring the cursor to a column. -/
def skipIndent (indent : Nat) (c : Cursor) : Cursor :=
  c.advance (min (indent - c.column) (c.rest.takeWhile (· = (' ' : CodePoint))).length)

/-- The empty lines that come next in a block of this indentation. -/
def blockBreaks (indent : Nat) : (fuel : Nat) → Cursor → Text × Cursor
  | 0, c => ([], c)
  | fuel + 1, c =>
    let c := skipIndent indent c
    match c.lineBreak with
    | ([], _) => ([], c)
    | (brk, c) =>
      let (more, c) := blockBreaks indent fuel c
      (brk ++ more, c)

/-- The lines of a block. `breaks` are the empty lines read before the first of them. What
is left at the end is the last line break and the empty lines after it. -/
def blockLines (folded : Bool) (indent : Nat) :
    (fuel : Nat) → (breaks : Text) → Cursor → (Text × Text × Text) × Cursor
  | 0, breaks, c => (([], [], breaks), c)
  | fuel + 1, breaks, c =>
    if c.column = indent && !c.rest.isEmpty then
      let flush := fun (x : Option CodePoint) => x ≠ some (.char ' ') && x ≠ some (.char '\t')
      let leading := flush (c.peek 0)
      let (line, c) := c.span (!isBreak ·)
      let (brk, c) := c.lineBreak
      let (more, c) := blockBreaks indent fuel c
      if c.column = indent && !c.rest.isEmpty then
        let glue : Text :=
          if folded && brk = "\n" && leading && flush (c.peek 0) then
            if more.isEmpty then " " else []
          else brk
        let ((text, last, tail), c) := blockLines folded indent fuel more c
        ((breaks ++ line ++ glue ++ text, last, tail), c)
      else ((breaks ++ line, brk, more), c)
    else (([], [], breaks), c)

/-- A block scalar, from its indicator on. `parent` is the indentation around it. -/
def blockText (folded : Bool) (parent : Int) (fuel : Nat) (c : Cursor) :
    Except Failure (Text × Cursor) := do
  let ((chomping, increment), c) ← blockIndicators c.next
  let c ← ignoredLine c
  let least := (max (parent + 1) 1).toNat
  let (indent, breaks, c) := match increment with
    | none =>
      let (breaks, deepest, c) := blockStart fuel 0 c
      (max least deepest, breaks, c)
    | some n =>
      let indent := least + n - 1
      let (breaks, c) := blockBreaks indent fuel c
      (indent, breaks, c)
  let ((text, last, tail), c) := blockLines folded indent fuel breaks c
  let ending := match chomping with
    | .strip => []
    | .clip => last
    | .keep => last ++ tail
  .ok (text ++ ending, c)

/-! ## Plain scalars -/

/-- The characters that divide the parts of a flow collection. -/
def isFlowMark (x : CodePoint) : Bool := (",[]\x7b\x7d" : Text).contains x

/-- Whether a plain scalar ends before the character `x` that `after` follows. -/
def endsPlain (inFlow : Bool) (x : CodePoint) (after : Option CodePoint) : Bool :=
  x = ' ' || x = '\t' || isBreak x ||
    (x = ':' && (atGap after || (inFlow && after.any isFlowMark))) ||
    (inFlow && (x = '?' || isFlowMark x))

/-- The longest start of a text without a character that ends a plain scalar. -/
def plainRun (inFlow : Bool) : Text → Text
  | [] => []
  | x :: rest => if endsPlain inFlow x rest.head? then [] else x :: plainRun inFlow rest

/-- The line breaks after one inside a plain scalar, with spaces dropped. Nothing at all is
given when a document marker ends the scalar. -/
def plainBreaks : (fuel : Nat) → Cursor → Option Text × Cursor
  | 0, c => (some [], c)
  | fuel + 1, c =>
    let c := c.skipSpaces
    match c.lineBreak with
    | ([], _) => (some [], c)
    | (brk, c) =>
      if c.atAnyMarker then (none, c)
      else
        let (more, c) := plainBreaks fuel c
        (more.map (brk ++ ·), c)

/-- What stands between two runs of a plain scalar. The flag tells whether a line was
ended; nothing is given when the scalar ends here. -/
def plainGap (fuel : Nat) (c : Cursor) : Option Text × Bool × Cursor :=
  let (spaces, c) := c.span (· = (' ' : CodePoint))
  match c.lineBreak with
  | ([], _) => (if spaces.isEmpty then none else some spaces, false, c)
  | (brk, c) =>
    if c.atAnyMarker then (none, true, c)
    else
      let (more, c) := plainBreaks fuel c
      (more.map (foldBreaks brk), true, c)

/-- A plain scalar. `indent` is the least column that a continuation may start at outside
of flow collections; `gap` is what was read before this run. The flag tells whether the
scalar ended after a line break, where a key may start. -/
def plainText (inFlow : Bool) (indent : Int) :
    (fuel : Nat) → (gap : Text) → (broken : Bool) → Cursor → Text × Bool × Cursor
  | 0, _, broken, c => ([], broken, c)
  | fuel + 1, gap, broken, c =>
    if c.at_ '#' then ([], broken, c)
    else
      let run := plainRun inFlow c.rest
      if run.isEmpty then ([], broken, c)
      else
        let c := c.advance run.length
        let (gap', broken', c) := plainGap fuel c
        match gap' with
        | none => (gap ++ run, broken', c)
        | some gap' =>
          if c.at_ '#' || (!inFlow && (c.column : Int) < indent) then (gap ++ run, broken', c)
          else
            let (text, broken'', c) := plainText inFlow indent fuel gap' broken' c
            (gap ++ run ++ text, broken'', c)

end RouteDocs.Yaml
