import RouteDocs.Value.Part
import RouteDocs.Value.SetOrder
import RouteDocs.Yaml.Node
import RouteDocs.Yaml.ScalarValue

/-!
# `RouteDocs.Yaml.Content`: the values of nodes

Each node becomes a cell of a graph of values, once, however many aliases refer to it. A
scalar gets its value when it is first met. A collection gets its cell then and its parts
later, in its turn: the collections wait in line in the order in which they were met. So
a value may contain itself, and of several failures the one that is met first counts.

A merge key puts the entries of another mapping, or of several, in front of a mapping's
own, which then win over them. Merging happens to the nodes themselves, and so shows
wherever they are used.
-/

set_option autoImplicit false

namespace RouteDocs.Yaml

/-- Whether a kind is that of a scalar. -/
def Kind.isScalar : Kind → Bool
  | .null | .bool | .int | .float | .binary | .timestamp | .str => true
  | _ => false

/-- What the cell of a collection holds until its turn comes. -/
def Kind.emptyCell? : Kind → Option (View Nat)
  | .seq | .pairs => some (.list [])
  | .set => some (.set [])
  | .map => some (.map [])
  | _ => none

/-- What construction knows. -/
structure Construction where
  /-- The nodes, by their numbers. -/
  nodes : Array Node
  /-- The cells: those of the nodes that were met under the nodes' numbers, then those of
  pairs. -/
  cells : Array (Option (View Nat))
  /-- The collections that wait for their parts, the last one first. -/
  waiting : List Nat
  /-- How many merge keys there are at most. -/
  merges : Nat

/-- Steps of construction. -/
abbrev Construct := StateT Construction (Except Failure)

namespace Construction

/-- The node of a number. -/
def nodeAt (number : Nat) : Construct Node := return ((← get).nodes[number]?).getD .empty

/-- Replaces a node. -/
def setNode (number : Nat) (n : Node) : Construct Unit :=
  modify fun s => { s with nodes := s.nodes.setIfInBounds number n }

/-- Fills a cell. -/
def setCell (number : Nat) (v : View Nat) : Construct Unit :=
  modify fun s => { s with cells := s.cells.setIfInBounds number (some v) }

/-- Adds a cell, and gives its number. -/
def newCell (v : View Nat) : Construct Nat := do
  let number := (← get).cells.size
  modify fun s => { s with cells := s.cells.push (some v) }
  return number

/-! ## Merging -/

/-- The entries of a mapping. Other nodes have none. -/
def entriesOf (number : Nat) : Construct (List (Nat × Nat)) := do
  match ← nodeAt number with
  | .mapping _ entries => return entries
  | _ => return []

/-- Replaces the entries of a mapping. -/
def setEntries (number : Nat) (entries : List (Nat × Nat)) : Construct Unit := do
  match ← nodeAt number with
  | .mapping kind _ => setNode number (.mapping kind entries)
  | _ => return ()

/-- Makes a key that is an equals sign a text. -/
def readAsText (key : Nat) : Construct Unit := do
  match ← nodeAt key with
  | .scalar .value text => setNode key (.scalar .str text)
  | .sequence .value items => setNode key (.sequence .str items)
  | .mapping .value entries => setNode key (.mapping .str entries)
  | _ => return ()

/-- The first entry with a merge key, and the entries without it. -/
def takeMerge : List (Nat × Nat) → Construct (Option (Nat × List (Nat × Nat)))
  | [] => return none
  | (key, value) :: rest => do
    if (← nodeAt key).kind = .merge then return some (value, rest)
    else return (← takeMerge rest).map fun r => (r.1, (key, value) :: r.2)

/-- The mappings that the value of a merge key names, the one that wins last. -/
def mergeTargets (value : Nat) : Construct (List Nat) := do
  match ← nodeAt value with
  | .mapping _ _ => return [value]
  | .sequence _ items => return items.reverse
  | _ => throw .malformed

/-- How long a chain may be by which one mapping merges another, or one value stands for
another. -/
def maxChain : Nat := 980

/-- Takes the merge keys out of a mapping and gives the entries that they stand for. Each
step takes one merge key out of the document, so that `fuel` is at least one more than
there are. The mappings that are merged have merge keys themselves, and there is `room` for so
many of them one behind another. -/
def takeMerges : (fuel room : Nat) → (number : Nat) → Construct (List (Nat × Nat))
  | 0, _, _ => return []
  | fuel + 1, room, number => do
    let entries ← entriesOf number
    for entry in entries do
      readAsText entry.1
    match ← takeMerge entries with
    | none => return []
    | some (value, rest) =>
      setEntries number rest
      -- The mappings of a sequence are prepared from the first to the last.
      let targets ← mergeTargets value
      for target in targets.reverse do
        match ← nodeAt target, room with
        | .mapping _ _, 0 => throw (.fault .endless)
        | .mapping _ _, room + 1 =>
          let merged ← takeMerges fuel room target
          setEntries target (merged ++ (← entriesOf target))
        | _, _ => throw .malformed
      let merged ← targets.mapM entriesOf
      return merged.flatten ++ (← takeMerges fuel room number)

/-- Puts the entries that a mapping merges in front of its own. -/
def merge (number : Nat) : Construct Unit := do
  let merged ← takeMerges ((← get).merges + 1) maxChain number
  setEntries number (merged ++ (← entriesOf number))

/-! ## Parts -/

/-- The text of a node that is to be a scalar: its own, or that of the value which a mapping
marks with an equals sign. There is room for so many values that mark each other; in a circle
they never end. -/
def scalarText : (room : Nat) → (number : Nat) → Construct Text
  | 0, _ => throw (.fault .endless)
  | room + 1, number => do
    match ← nodeAt number with
    | .scalar _ text => return text
    | .sequence _ _ => throw .malformed
    | .mapping _ entries =>
      match ← entries.findM? fun e => return (← nodeAt e.1).kind = .value with
      | some (_, value) => scalarText room value
      | none => throw .malformed

/-- The cell of a node, made when the node is first met. -/
def cellOf (number : Nat) : Construct Nat := do
  match (← get).cells[number]? with
  | some (some _) => return number
  | _ =>
    let n ← nodeAt number
    if n.kind.isScalar then
      let text ← scalarText maxChain number
      match n.kind, n with
      | .timestamp, .mapping _ _ => throw (.fault .wrongKind)
      | kind, _ => setCell number (.scalar (← scalarValue number kind text))
    else
      match n.kind.emptyCell? with
      | none => throw .malformed
      | some cell =>
        setCell number cell
        modify fun s => { s with waiting := number :: s.waiting }
    return number

/-- A key. Collections cannot be keys. -/
def keyOf (number : Nat) : Construct Scalar := do
  let cell ← cellOf number
  match (← get).cells[cell]? with
  | some (some (.scalar s)) => return s
  | _ => throw .malformed

/-- The entries of a mapping node, with its merge keys resolved. -/
def mapEntries (number : Nat) : Construct (List (Scalar × Nat)) := do
  match ← nodeAt number with
  | .mapping _ _ =>
    merge number
    let entries ← (← entriesOf number).mapM fun e => return (← keyOf e.1, ← cellOf e.2)
    return Entries.ofList entries
  | _ => throw .malformed

/-- The cells of the elements of a list of one-entry mappings. -/
def pairOf (number : Nat) : Construct Nat := do
  match ← nodeAt number with
  | .mapping _ [(key, value)] =>
    let key ← cellOf key
    let value ← cellOf value
    newCell (.pair key value)
  | _ => throw .malformed

/-- The parts of a collection whose turn has come. -/
def parts (number : Nat) : Construct (View Nat) := do
  let n ← nodeAt number
  match n.kind, n with
  | .seq, .sequence _ items => return .list (← items.mapM cellOf)
  | .pairs, .sequence _ items => return .list (← items.mapM pairOf)
  | .set, _ => return .set (SetOrder.ofList ((← mapEntries number).map (·.1)))
  | .map, _ => return .map (← mapEntries number)
  | _, _ => throw .malformed

/-- Gives the waiting collections their parts, in turn. Each node waits once at most. `turn`
holds those whose turn comes before the ones that wait. -/
def fillAll : (fuel : Nat) → (turn : List Nat) → Construct Unit
  | 0, _ => return ()
  | fuel + 1, number :: turn => do
    setCell number (← parts number)
    fillAll fuel turn
  | fuel + 1, [] => do
    let waiting := (← get).waiting
    if waiting.isEmpty then return ()
    else
      modify fun s => { s with waiting := [] }
      fillAll fuel waiting.reverse

end Construction

/-- How many entries of mappings have a merge key. -/
def NodeGraph.countMerges (g : NodeGraph) : Nat :=
  g.nodes.foldl (fun n node => match node with
    | .mapping _ entries => n + entries.countP fun e => (g.nodes[e.1]?).any (·.kind = .merge)
    | _ => n) 0

/-- The values of a document's nodes. -/
def NodeGraph.content (g : NodeGraph) : Except Failure Part := do
  let start : Construction :=
    ⟨g.nodes, Array.replicate g.nodes.size none, [], g.countMerges⟩
  let steps : Construct Unit := do
    let _ ← Construction.cellOf g.root
    Construction.fillAll (2 * g.nodes.size + 2) []
  let (_, done) ← steps.run start
  return ⟨done.cells.map (·.getD (.scalar .null)), g.root⟩

/-- Reads the one document of a text. A text without a document gives no value. -/
def read (s : Text) : Except Failure Part := do
  match ← NodeGraph.ofText? s with
  | none => return ⟨#[], 0⟩
  | some g => g.content

end RouteDocs.Yaml
