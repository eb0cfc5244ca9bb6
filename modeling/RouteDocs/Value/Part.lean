import RouteDocs.Value.Basic

/-!
# `RouteDocs.Value.Part`: values that may contain themselves

A document may use one value at several places, and also inside of itself. What it holds
is then not a tree but a graph of cells. `Part` is one cell of such a graph, looked at
level by level with `view`, and `Part.value` is the tree below it: a `loop` stands where
the tree comes round to a cell that it is inside of. Which cell that is depends on where
the tree starts, so a loader keeps to parts as long as it walks down.
-/

set_option autoImplicit false

namespace RouteDocs

/-- The topmost level of a value, with its parts given as `α`. -/
inductive View (α : Type) where
  /-- A value without parts. -/
  | scalar (s : Scalar)
  /-- A list. -/
  | list (items : List α)
  /-- An entry of an ordered list of entries. -/
  | pair (key value : α)
  /-- A collection without order or repetition. -/
  | set (members : List Scalar)
  /-- Values under keys. -/
  | map (entries : List (Scalar × α))
deriving DecidableEq, Repr

/-- The same level with each part replaced. -/
def View.mapParts {α β : Type} (f : α → β) : View α → View β
  | .scalar s => .scalar s
  | .list items => .list (items.map f)
  | .pair key value => .pair (f key) (f value)
  | .set members => .set members
  | .map entries => .map (entries.map fun e => (e.1, f e.2))

/-- Whether the value counts as present. -/
def View.isTruthy {α : Type} : View α → Bool
  | .scalar s => (Value.scalar s).isTruthy
  | .list items => !items.isEmpty
  | .pair _ _ => true
  | .set members => !members.isEmpty
  | .map entries => !entries.isEmpty

/-- A cell of a graph of values. -/
structure Part where
  /-- All cells, each with the numbers of its parts. -/
  cells : Array (View Nat)
  /-- The number of this one. -/
  cell : Nat
deriving DecidableEq, Repr

namespace Part

/-- What a cell holds. -/
def view (p : Part) : View Part :=
  ((p.cells[p.cell]?).getD (.scalar .null)).mapParts fun cell => ⟨p.cells, cell⟩

/-- Whether the value counts as present. -/
def isTruthy (p : Part) : Bool := p.view.isTruthy

/-- The part under a text key of a mapping. -/
def get? (key : String) (p : Part) : Option Part :=
  match p.view with
  | .map entries => Entries.get? (.str key) entries
  | _ => none

/-- The tree below a cell that is inside of the cells `around`. A tree is at most as deep as
there are cells. -/
def unfold (cells : Array (View Nat)) : (fuel : Nat) → (around : List Nat) → (cell : Nat) → Value
  | 0, _, _ => .null
  | fuel + 1, around, cell =>
    let inner := unfold cells fuel (cell :: around)
    let within := around.contains cell
    match (cells[cell]?).getD (.scalar .null) with
    | .scalar s => .scalar s
    | .list items => if within then .loop .list else .list (items.map inner)
    | .pair key value => if within then .loop .pair else .pair (inner key) (inner value)
    | .set members => .set members
    | .map entries =>
      if within then .loop .map else .map (entries.map fun e => (e.1, inner e.2))

/-- The tree below a part. -/
def value (p : Part) : Value := unfold p.cells (p.cells.size + 2) [] p.cell

/-- The tree below a part, made of the trees that start `levels` levels below it. -/
def valueBelow : (levels : Nat) → Part → Value
  | 0, p => p.value
  | levels + 1, p =>
    match p.view with
    | .scalar s => .scalar s
    | .list items => .list (items.map (valueBelow levels))
    | .pair key value => .pair (valueBelow levels key) (valueBelow levels value)
    | .set members => .set members
    | .map entries => .map (entries.map fun e => (e.1, valueBelow levels e.2))

/-- The entries of a mapping, each value as the tree that starts there. -/
def fields? (p : Part) : Option (List (Scalar × Value)) :=
  match p.view with
  | .map entries => some (entries.map fun e => (e.1, e.2.value))
  | _ => none

end Part

end RouteDocs
