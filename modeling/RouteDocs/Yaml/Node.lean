import RouteDocs.Yaml.Kind
import RouteDocs.Yaml.TokenStream

/-!
# `RouteDocs.Yaml.Node`: a YAML document as a graph

The tokens of a text are composed into nodes: scalars, sequences and mappings, each with
its kind. The nodes are numbered, and a collection holds the numbers of its parts. An
alias is the number of the node it refers to, which may be one that is not finished yet.
A text holds one document at most, and none at all stands for an empty one.

Composition walks the tokens from left to right, with a unit of fuel for each step down
or along.
-/

set_option autoImplicit false

namespace RouteDocs.Yaml

/-- How deeply collections may be nested. -/
def maxNesting : Nat := 490

/-- A node of a document. Its parts are given by their numbers. -/
inductive Node where
  /-- A scalar. -/
  | scalar (kind : Kind) (text : Text)
  /-- A sequence. -/
  | sequence (kind : Kind) (items : List Nat)
  /-- A mapping, its entries as written. -/
  | mapping (kind : Kind) (entries : List (Nat × Nat))
deriving DecidableEq, Repr

namespace Node

/-- The kind of a node. -/
def kind : Node → Kind
  | .scalar k _ => k
  | .sequence k _ => k
  | .mapping k _ => k

/-- A node that is not written. -/
def empty : Node := .scalar .null []

end Node

/-- What composition knows. -/
structure Composer where
  /-- The tokens still to be read. -/
  tokens : List Token
  /-- What follows them. -/
  failure : Option Failure
  /-- What tag handles stand for. -/
  handles : List (Text × Text)
  /-- The numbers of the nodes with an anchor. -/
  anchors : List (Text × Nat)
  /-- The nodes, by their numbers. One that is still open is a scalar so far. -/
  nodes : Array Node

/-- Steps of composition. -/
abbrev Compose := StateT Composer (Except Failure)

namespace Composer

/-- The next token. -/
def peek : Compose Token := do
  match (← get).tokens with
  | t :: _ => pure t
  | [] => throw ((← get).failure.getD .malformed)

/-- Passes the next token. -/
def advance : Compose Unit := modify fun s => { s with tokens := s.tokens.tail }

/-- Passes the next token if it is `t`, and tells whether it was. -/
def accept (t : Token) : Compose Bool := do
  if (← peek) = t then
    advance
    pure true
  else pure false

/-- Passes `t`, which has to come next. -/
def expect (t : Token) : Compose Unit := do
  if (← accept t) then pure () else throw .malformed

/-- The anchor and the tag in front of a node, in either order. -/
def properties : Compose (Option Text × Option RawTag) := do
  match (← peek) with
  | .anchor a =>
    advance
    match (← peek) with
    | .tag t => do
      advance
      pure (some a, some t)
    | _ => pure (some a, none)
  | .tag t =>
    advance
    match (← peek) with
    | .anchor a => do
      advance
      pure (some a, some t)
    | _ => pure (none, some t)
  | _ => pure (none, none)

/-- The full tag of a node. A lone exclamation mark is no tag. -/
def fullTag? : Option RawTag → Compose (Option Text)
  | none => pure none
  | some t => do
    let full ← match t.handle with
      | none => pure t.suffix
      | some h =>
        match (← get).handles.find? fun e => e.1 == h with
        | none => throw .malformed
        | some (_, replacement) => pure (replacement ++ t.suffix)
    pure (if full = "!" then none else some full)

/-- Gives a node the next number. An anchor names it from then on; no two nodes may share
an anchor. -/
def place (anchor : Option Text) (n : Node) : Compose Nat := do
  let number := (← get).nodes.size
  match anchor with
  | none => pure ()
  | some a =>
    if (← get).anchors.any fun e => e.1 == a then throw .malformed
    else modify fun s => { s with anchors := (a, number) :: s.anchors }
  modify fun s => { s with nodes := s.nodes.push n }
  pure number

/-- Puts a node under a number that was given before. -/
def fill (number : Nat) (n : Node) : Compose Nat := do
  modify fun s => { s with nodes := s.nodes.setIfInBounds number n }
  pure number

/-- A node that is not written. -/
def unwritten : Compose Nat := place none .empty

/-- Refuses a node that is nested too deeply. -/
def checkDepth (depth : Nat) : Compose Unit :=
  if maxNesting < depth then throw (.fault .endless) else pure ()

/-- The kind of a collection: its tag's, or `default` without one. -/
def kindOr (default : Kind) : Option Text → Kind
  | none => default
  | some tag => Kind.ofTag tag

/-- The kind of a scalar. Without a tag, text and quotes decide; a lone exclamation mark in
front makes a quoted scalar count as plain. -/
def scalarKind (tag : Option Text) (marked plain : Bool) (text : Text) : Kind :=
  match tag with
  | some t => Kind.ofTag t
  | none => if plain || marked then Kind.ofPlain text else .str

/-- Whether a token ends the place of a block mapping's key or value. -/
def endsBlockPart : Token → Bool
  | .key | .value | .blockEnd => true
  | _ => false

/-- Whether a token ends the place of a flow collection's key. -/
def endsFlowKey (closing : Token) (t : Token) : Bool := t = .value || t = .flowEntry || t = closing

/-- Whether a token ends the place of a flow collection's value. -/
def endsFlowValue (closing : Token) (t : Token) : Bool := t = .flowEntry || t = closing

mutual

/-- A node inside of `depth` others. `block` admits block collections, `indentless` a sequence
at its parent's column. -/
def node : (fuel depth : Nat) → (block indentless : Bool) → Compose Nat
  | 0, _, _, _ => throw .malformed
  | fuel + 1, depth, block, indentless => do
    checkDepth depth
    match (← peek) with
    | .alias a =>
      advance
      match (← get).anchors.find? fun e => e.1 == a with
      | none => throw .malformed
      | some (_, number) => pure number
    | _ =>
      let (anchor, raw) ← properties
      let tag ← fullTag? raw
      let marked := raw.isSome && tag.isNone
      match (← peek) with
      | .scalar text plain =>
        let number ← place anchor (.scalar (scalarKind tag marked plain text) text)
        advance
        pure number
      | .flowSequenceStart =>
        let number ← place anchor .empty
        advance
        let items ← flowItems fuel (depth + 1) true
        fill number (.sequence (kindOr .seq tag) items)
      | .flowMappingStart =>
        let number ← place anchor .empty
        advance
        let entries ← flowEntries fuel (depth + 1) true
        fill number (.mapping (kindOr .map tag) entries)
      | t =>
        if indentless && t = .blockEntry then
          let number ← place anchor .empty
          let items ← indentlessItems fuel (depth + 1)
          fill number (.sequence (kindOr .seq tag) items)
        else if block && t = .blockSequenceStart then
          let number ← place anchor .empty
          advance
          let items ← blockItems fuel (depth + 1)
          fill number (.sequence (kindOr .seq tag) items)
        else if block && t = .blockMappingStart then
          let number ← place anchor .empty
          advance
          let entries ← blockEntries fuel (depth + 1)
          fill number (.mapping (kindOr .map tag) entries)
        else if anchor.isSome || raw.isSome then
          place anchor (.scalar (scalarKind tag true true []) [])
        else throw .malformed

/-- The elements of a block sequence up to its end. -/
def blockItems : (fuel depth : Nat) → Compose (List Nat)
  | 0, _ => throw .malformed
  | fuel + 1, depth => do
    if (← accept .blockEntry) then
      let t ← peek
      let item ← if t = .blockEntry || t = .blockEnd then unwritten else node fuel depth true false
      let items ← blockItems fuel depth
      pure (item :: items)
    else
      expect .blockEnd
      pure []

/-- The elements of a block sequence without an indentation of its own. -/
def indentlessItems : (fuel depth : Nat) → Compose (List Nat)
  | 0, _ => throw .malformed
  | fuel + 1, depth => do
    if (← accept .blockEntry) then
      let t ← peek
      let item ← if t = .blockEntry || endsBlockPart t then unwritten else node fuel depth true false
      let items ← indentlessItems fuel depth
      pure (item :: items)
    else pure []

/-- The entries of a block mapping up to its end. -/
def blockEntries : (fuel depth : Nat) → Compose (List (Nat × Nat))
  | 0, _ => throw .malformed
  | fuel + 1, depth => do
    if (← accept .key) then
      let key ← if endsBlockPart (← peek) then unwritten else node fuel depth true true
      let value ←
        if (← accept .value) then
          if endsBlockPart (← peek) then unwritten else node fuel depth true true
        else unwritten
      let entries ← blockEntries fuel depth
      pure ((key, value) :: entries)
    else
      expect .blockEnd
      pure []

/-- The elements of a flow sequence up to its end. A key among them starts a mapping of one
entry. -/
def flowItems : (fuel depth : Nat) → (first : Bool) → Compose (List Nat)
  | 0, _, _ => throw .malformed
  | fuel + 1, depth, first => do
    if (← accept .flowSequenceEnd) then pure []
    else
      if !first then expect .flowEntry
      if (← accept .key) then
        let number ← place none .empty
        let key ←
          if endsFlowKey .flowSequenceEnd (← peek) then unwritten else node fuel (depth + 1) false false
        let value ←
          if (← accept .value) then
            if endsFlowValue .flowSequenceEnd (← peek) then unwritten
            else node fuel (depth + 1) false false
          else unwritten
        let _ ← fill number (.mapping .map [(key, value)])
        let items ← flowItems fuel depth false
        pure (number :: items)
      else if (← accept .flowSequenceEnd) then pure []
      else
        let item ← node fuel depth false false
        let items ← flowItems fuel depth false
        pure (item :: items)

/-- The entries of a flow mapping up to its end. A node without a key indicator is a key
without a value. -/
def flowEntries : (fuel depth : Nat) → (first : Bool) → Compose (List (Nat × Nat))
  | 0, _, _ => throw .malformed
  | fuel + 1, depth, first => do
    if (← accept .flowMappingEnd) then pure []
    else
      if !first then expect .flowEntry
      if (← accept .key) then
        let key ← if endsFlowKey .flowMappingEnd (← peek) then unwritten else node fuel depth false false
        let value ←
          if (← accept .value) then
            if endsFlowValue .flowMappingEnd (← peek) then unwritten else node fuel depth false false
          else unwritten
        let entries ← flowEntries fuel depth false
        pure ((key, value) :: entries)
      else if (← accept .flowMappingEnd) then pure []
      else
        let key ← node fuel depth false false
        let value ← unwritten
        let entries ← flowEntries fuel depth false
        pure ((key, value) :: entries)

end

/-- The handles that every document has. -/
def defaultHandles : List (Text × Text) :=
  [("!", "!"), ("!!", coreHandle)]

/-- The directives in front of a document. The version has to be 1, and neither a version
nor a handle may be given twice. -/
def directives : (fuel : Nat) → (versioned : Bool) → (handles : List (Text × Text)) →
    Compose Unit
  | 0, _, _ => throw .malformed
  | fuel + 1, versioned, handles => do
    match (← peek) with
    | .directive (.version major _) =>
      if versioned || major ≠ 1 then throw .malformed
      else
        advance
        directives fuel true handles
    | .directive (.handle name replacement) =>
      if handles.any fun h => h.1 == name then throw .malformed
      else
        advance
        directives fuel versioned (handles ++ [(name, replacement)])
    | .directive .other =>
      advance
      directives fuel versioned handles
    | _ => modify fun s => { s with handles := handles ++ defaultHandles }

/-- Passes document ends. -/
def skipDocumentEnds : (fuel : Nat) → Compose Unit
  | 0 => pure ()
  | fuel + 1 => do
    if (← accept .documentEnd) then skipDocumentEnds fuel else pure ()

/-- Whether a token leaves the document before it empty. -/
def endsDocument : Token → Bool
  | .directive _ | .documentStart | .documentEnd | .streamEnd => true
  | _ => false

/-- The number of the root of the one document of a text, if there is one. -/
def document (fuel : Nat) : Compose (Option Nat) := do
  match (← peek) with
  | .streamEnd => pure none
  | t =>
    let explicit := match t with
      | .directive _ | .documentStart => true
      | _ => false
    let root ←
      if explicit then
        directives fuel false []
        expect .documentStart
        if endsDocument (← peek) then unwritten else node fuel 0 true false
      else node fuel 0 true false
    skipDocumentEnds fuel
    expect .streamEnd
    pure (some root)

end Composer

/-- The nodes of a document. -/
structure NodeGraph where
  /-- The nodes, by their numbers. -/
  nodes : Array Node
  /-- The number of the root. -/
  root : Nat
deriving DecidableEq, Repr

/-- The document of a text as a graph. -/
def NodeGraph.ofText? (s : Text) : Except Failure (Option NodeGraph) := do
  let stream := TokenStream.ofText s
  let start : Composer := ⟨stream.tokens, stream.failure, Composer.defaultHandles, [], #[]⟩
  let (root, composer) ← (Composer.document (2 * stream.tokens.length + 4)).run start
  return root.map fun root => ⟨composer.nodes, root⟩

end RouteDocs.Yaml
