import RouteDocs.Yaml.Property
import RouteDocs.Yaml.ScalarText

/-!
# `RouteDocs.Yaml.TokenStream`: a YAML text as tokens

The scanner reads one token after the other. Two things make it more than a loop over
characters. Indentation opens and closes block collections, so it keeps the columns of
those that are open. And a key without a question mark is only known as a key once the
colon after it is reached, so it remembers, for each level of flow nesting, the place
where a key may have started, and puts the key token there when the colon comes. Such a
key has to end on its line and within 1024 characters.

A text that cannot be cut into tokens still has those before the fault: `TokenStream`
holds them and the failure that follows.
-/

set_option autoImplicit false

namespace RouteDocs.Yaml

/-- The tokens of a text, and what stopped the scanner if it did not reach the end. -/
structure TokenStream where
  /-- The tokens in order. -/
  tokens : List Token
  /-- What follows them, other than the end of the text. -/
  failure : Option Failure
deriving DecidableEq, Repr

/-- A place where a key may have started. -/
structure KeyPlace where
  /-- How many tokens were there before it. -/
  number : Nat
  /-- Whether the text is wrong if it turns out to be no key. -/
  required : Bool
  /-- The place. -/
  cursor : Cursor
deriving DecidableEq, Repr

/-- What the scanner knows. -/
structure Scanner where
  /-- The place in the text. -/
  cursor : Cursor
  /-- The tokens so far, the last one first. -/
  emitted : List Token
  /-- How many tokens there are so far. -/
  count : Nat
  /-- How many flow collections are open. -/
  flow : Nat
  /-- The column of the innermost open block collection, -1 for none. -/
  indent : Int
  /-- The columns of the block collections around it, innermost first. -/
  outer : List Int
  /-- Whether a key may start here. -/
  keyAllowed : Bool
  /-- Where a key may have started, by level of flow nesting. -/
  keys : List (Nat × KeyPlace)

namespace Scanner

/-- The scanner at the start of a text. -/
def ofText (s : Text) : Scanner := ⟨Cursor.ofText s, [], 0, 0, -1, [], true, []⟩

/-- Adds a token. -/
def emit (s : Scanner) (t : Token) : Scanner :=
  { s with emitted := t :: s.emitted, count := s.count + 1 }

/-- Adds a token after the first `number` ones, and before those that came since. -/
def emitAt (s : Scanner) (number : Nat) (t : Token) : Scanner :=
  let since := s.count - number
  { s with
    emitted := s.emitted.take since ++ t :: s.emitted.drop since
    count := s.count + 1 }

/-- The tokens so far, in order. -/
def tokens (s : Scanner) : List Token := s.emitted.reverse

/-- Whether the text is inside a flow collection. -/
def inFlow (s : Scanner) : Bool := s.flow != 0

/-- Passes spaces, comments and line breaks. After a line break outside of flow
collections a key may start. -/
def toNextToken : (fuel : Nat) → Scanner → Scanner
  | 0, s => s
  | fuel + 1, s =>
    let c := s.cursor.skipSpaces
    let c := if c.at_ '#' then c.skipLine else c
    match c.lineBreak with
    | ([], _) => { s with cursor := c }
    | (_, c) => toNextToken fuel { s with cursor := c, keyAllowed := s.keyAllowed || !s.inFlow }

/-- Whether a place is too far back for its key to end here. -/
def isStale (s : Scanner) (k : KeyPlace) : Bool :=
  k.cursor.line != s.cursor.line || 1024 < s.cursor.index - k.cursor.index

/-- Forgets the places that are too far back. -/
def dropStale (s : Scanner) : Except Failure Scanner :=
  if s.keys.any fun k => s.isStale k.2 && k.2.required then .error .malformed
  else .ok { s with keys := s.keys.filter fun k => !s.isStale k.2 }

/-- Forgets the place at this level. -/
def dropKey (s : Scanner) : Except Failure Scanner :=
  if s.keys.any fun k => k.1 == s.flow && k.2.required then .error .malformed
  else .ok { s with keys := s.keys.filter fun k => k.1 != s.flow }

/-- Remembers that a key may start here. -/
def saveKey (s : Scanner) : Except Failure Scanner :=
  if s.keyAllowed then do
    let required := !s.inFlow && s.indent == (s.cursor.column : Int)
    let s ← s.dropKey
    .ok { s with keys := (s.flow, ⟨s.count, required, s.cursor⟩) :: s.keys }
  else .ok s

/-- Closes the block collections that are indented further than `column`. -/
def unwind (column : Int) : (outer : List Int) → Scanner → Scanner
  | [], s => s
  | o :: outer, s =>
    if column < s.indent then
      unwind column outer { s.emit .blockEnd with indent := o, outer := outer }
    else s

/-- Closes the block collections that are indented further than `column`, outside of flow
collections. -/
def unwindTo (column : Int) (s : Scanner) : Scanner :=
  if s.inFlow then s else unwind column s.outer s

/-- Whether a block collection at `column` would be a new one. -/
def isDeeper (s : Scanner) (column : Nat) : Bool := s.indent < (column : Int)

/-- Opens a block collection at `column`. -/
def indentTo (s : Scanner) (column : Nat) : Scanner :=
  { s with indent := column, outer := s.indent :: s.outer }

/-- Adds a token of `width` characters and passes them. -/
def take (s : Scanner) (width : Nat) (t : Token) : Scanner :=
  { s.emit t with cursor := s.cursor.advance width }

/-- Ends all block collections, as a directive, a document marker and the end do. -/
def toMargin (s : Scanner) : Except Failure Scanner := do
  let s ← (s.unwindTo (-1)).dropKey
  .ok { s with keyAllowed := false }

/-- An opening bracket or brace. -/
def openFlow (s : Scanner) (t : Token) : Except Failure Scanner := do
  let s ← s.saveKey
  .ok ({ s with flow := s.flow + 1, keyAllowed := true }.take 1 t)

/-- A closing bracket or brace. -/
def closeFlow (s : Scanner) (t : Token) : Except Failure Scanner := do
  let s ← s.dropKey
  .ok ({ s with flow := s.flow - 1, keyAllowed := false }.take 1 t)

/-- A hyphen that starts an element, or a question mark that starts a key. -/
def startEntry (s : Scanner) (opening t : Token) (keyAllowed : Bool) : Except Failure Scanner :=
  if !s.inFlow && !s.keyAllowed then .error .malformed
  else do
    let s :=
      if !s.inFlow && s.isDeeper s.cursor.column then (s.indentTo s.cursor.column).emit opening else s
    let s ← { s with keyAllowed := keyAllowed }.dropKey
    .ok (s.take 1 t)

/-- A colon that starts a value. If a key may have started at this level, it did. -/
def startValue (s : Scanner) : Except Failure Scanner :=
  match s.keys.find? fun k => k.1 == s.flow with
  | some (_, place) =>
    let s := { s with keys := s.keys.filter fun k => k.1 != s.flow }
    let s := s.emitAt place.number .key
    let s :=
      if !s.inFlow && s.isDeeper place.cursor.column then
        (s.indentTo place.cursor.column).emitAt place.number .blockMappingStart
      else s
    .ok ({ s with keyAllowed := false }.take 1 .value)
  | none => s.startEntry .blockMappingStart .value (!s.inFlow)

/-- A token that a key may start with and that reads its own text. -/
def nodeToken (s : Scanner) (read : Cursor → Except Failure (Token × Cursor)) :
    Except Failure Scanner := do
  let s ← s.saveKey
  let (t, c) ← read s.cursor
  .ok { s.emit t with cursor := c, keyAllowed := false }

/-- A block scalar, after which a key may start. -/
def blockToken (s : Scanner) (fuel : Nat) (folded : Bool) : Except Failure Scanner := do
  let s ← { s with keyAllowed := true }.dropKey
  let (text, c) ← blockText folded s.indent fuel s.cursor
  .ok { s.emit (.scalar text false) with cursor := c }

/-- A plain scalar, after which a key may start if it ended with a line. -/
def plainToken (s : Scanner) (fuel : Nat) : Except Failure Scanner := do
  let s ← s.saveKey
  let (text, broken, c) := plainText s.inFlow (s.indent + 1) fuel [] false s.cursor
  .ok { s.emit (.scalar text true) with cursor := c, keyAllowed := broken }

/-- Whether a plain scalar may start with `x`, which `after` follows. -/
def startsPlain (inFlow : Bool) (x : CodePoint) (after : Option CodePoint) : Bool :=
  let special := ("-?:,[]\x7b\x7d#&*!|>'\"%@" : Text).contains x || x.toNat = 0x60 || atGap (some x)
  !special || (!atGap after && (x = '-' || (!inFlow && (x = '?' || x = ':'))))

/-- Reads the token that starts at the cursor with `x`. -/
def tokenAt (s : Scanner) (fuel : Nat) (x : CodePoint) : Except Failure Scanner :=
  let c := s.cursor
  let after := c.peek 1
  if x = '%' && c.column = 0 then do
    let s ← s.toMargin
    let (d, c) ← directiveText s.cursor
    .ok { s.emit (.directive d) with cursor := c }
  else if c.column = 0 && c.atMarker '-' then do
    let s ← s.toMargin
    .ok (s.take 3 .documentStart)
  else if c.column = 0 && c.atMarker '.' then do
    let s ← s.toMargin
    .ok (s.take 3 .documentEnd)
  else if x = '[' then s.openFlow .flowSequenceStart
  else if x = '\x7b' then s.openFlow .flowMappingStart
  else if x = ']' then s.closeFlow .flowSequenceEnd
  else if x = '\x7d' then s.closeFlow .flowMappingEnd
  else if x = ',' then do
    let s ← { s with keyAllowed := true }.dropKey
    .ok (s.take 1 .flowEntry)
  else if x = '-' && atGap after then s.startEntry .blockSequenceStart .blockEntry true
  else if x = '?' && (s.inFlow || atGap after) then
    s.startEntry .blockMappingStart .key (!s.inFlow)
  else if x = ':' && (s.inFlow || atGap after) then s.startValue
  else if x = '*' then s.nodeToken fun c => (anchorName c.next).map fun r => (.alias r.1, r.2)
  else if x = '&' then s.nodeToken fun c => (anchorName c.next).map fun r => (.anchor r.1, r.2)
  else if x = '!' then s.nodeToken fun c => (tagText c).map fun r => (.tag r.1, r.2)
  else if x = '|' && !s.inFlow then s.blockToken fuel false
  else if x = '>' && !s.inFlow then s.blockToken fuel true
  else if x = '\'' || x = '"' then
    s.nodeToken fun c => (quotedText (x = '"') fuel c).map fun r => (.scalar r.1 false, r.2)
  else if startsPlain s.inFlow x after then s.plainToken fuel
  else .error .malformed

/-- Reads the tokens up to and including the one at the next place. Nothing follows the end
of the text. -/
def step (s : Scanner) (fuel : Nat) : Except Failure (Scanner × Bool) := do
  let s ← (s.toNextToken fuel).dropStale
  let s := s.unwindTo s.cursor.column
  match s.cursor.rest with
  | [] => do
    let s ← s.toMargin
    .ok (s.emit .streamEnd, true)
  | x :: _ => do
    let s ← s.tokenAt fuel x
    .ok (s, false)

/-- Reads tokens until the end or a failure. Of a failed text only the tokens count that
can no longer turn out to follow a key. Every token but the last passes a character, so
`fuel` stays above the number of those that are left, and serves each token as well. -/
def run : (fuel : Nat) → Scanner → TokenStream
  | 0, s => ⟨s.tokens, some .malformed⟩
  | fuel + 1, s =>
    match s.step (fuel + 1) with
    | .ok (s, true) => ⟨s.tokens, none⟩
    | .ok (s, false) => run fuel s
    | .error e =>
      let pending := (s.keys.filter fun k => !s.isStale k.2).map fun k => k.2.number
      ⟨s.tokens.take (pending.foldl min s.count), some e⟩

end Scanner

/-- Whether `c` may stand in a YAML text at all. -/
def isAllowed (c : CodePoint) : Bool :=
  let n := c.toNat
  n = 0x9 || n = 0xa || n = 0xd || (0x20 ≤ n && n ≤ 0x7e) || n = 0x85 || (0xa0 ≤ n && n ≤ 0xd7ff) ||
    (0xe000 ≤ n && n ≤ 0xfffd) || 0x10000 ≤ n

/-- The tokens of a text. A byte order mark in front is passed over. -/
def TokenStream.ofText (s : Text) : TokenStream :=
  if !s.all isAllowed then ⟨[], some .malformed⟩
  else
    let start := Scanner.ofText s
    let start :=
      if s.head? = some (CodePoint.ofNat 0xfeff) then { start with cursor := start.cursor.next }
      else start
    start.run (s.length + 2)

end RouteDocs.Yaml
