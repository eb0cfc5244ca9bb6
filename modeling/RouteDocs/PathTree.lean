import RouteDocs.Number.Reading
import RouteDocs.Text.Lines
import RouteDocs.Value.Literal

/-!
# `RouteDocs.PathTree`: values addressed by dotted paths

Nested examples are collected as values under dotted paths and then put together. A path
is cut at its separator into segments. In a list, a segment that is a number up to 999
addresses an element, at most one past the last, so that `items.0.id` is the field `id` of
the first element of `items`. A segment that does not fit a list turns it into a mapping
with its positions as keys. A new list is only started by the segment `0`.

`setAt` writes a value, `flatten` lists the leaves of a tree under their paths, and
`ofFlat` puts a tree together from such a list. A write that fails half way has changed
what it passed, and `leftAt` tells what it leaves.
-/

set_option autoImplicit false

namespace RouteDocs.PathTree

open Text Number

/-- The greatest position that a segment may address. -/
def maxIndex : Nat := 999

/-- The segments of a path, from separator to separator. Separator characters at either end
do not count. An empty separator cuts nothing. -/
def segments (separator path : Text) : Except Fault (List Text) :=
  if separator.isEmpty then .error .badValue
  else .ok (splitOn separator (trimOf separator path))

/-- The position that a segment of digits addresses in a list, if it is not too great. Digits
that form no decimal number are a fault. -/
def index? (segment : Text) : Except Fault (Option Nat) :=
  if !segment.isEmpty && segment.all isDigit then
    match readInt? segment with
    | none => .error .badValue
    | some i => .ok (if i.toNat ≤ maxIndex then some i.toNat else none)
  else .ok none

/-- The elements of a list under their positions, from `start` on. -/
def numbered (start : Nat) : List Value → List (Scalar × Value)
  | [] => []
  | v :: vs => (.str (natText start), v) :: numbered (start + 1) vs

/-- A place in a container. -/
inductive Slot where
  /-- The value under a key of a mapping. -/
  | field (entries : List (Scalar × Value)) (key : Text)
  /-- The element at a position of a list, or the one to be added at its end. -/
  | element (items : List Value) (index : Nat)
deriving DecidableEq

namespace Slot

/-- What is at a place. -/
def get? : Slot → Option Value
  | .field entries key => Entries.get? (.str key) entries
  | .element items index => items[index]?

/-- The container with a value put at the place. -/
def put (value : Value) : Slot → Value
  | .field entries key => .map (Entries.insert (.str key) value entries)
  | .element items index =>
    .list (if index < items.length then items.set index value else items ++ [value])

end Slot

/-- The place that a segment addresses in a node. A list that cannot take the segment becomes
a mapping; anything that is no container is replaced by a new one. -/
def slot (node : Value) (segment : Text) : Except Fault Slot :=
  match node with
  | .map entries => .ok (.field entries segment)
  | .list items => do
    match ← index? segment with
    | some i =>
      if i ≤ items.length then .ok (.element items i)
      else .ok (.field (numbered 0 items) segment)
    | none => .ok (.field (numbered 0 items) segment)
  | _ => if segment = "0" then .ok (.element [] 0) else .ok (.field [] segment)

/-- Writes a value at a list of segments below a node. -/
def setAt (value : Value) : (node : Value) → List Text → Except Fault Value
  | _, [] => .ok value
  | node, segment :: rest => do
    let place ← slot node segment
    let child ← setAt value (place.get?.getD .null) rest
    .ok (place.put child)

/-- What is left below a node by a write that a later segment refuses: the lists that had
to become mappings on the way are mappings from then on. -/
def leftAt : (node : Value) → List Text → Value
  | node, [] => node
  | node, segment :: rest =>
    match slot node segment with
    | .error _ => node
    | .ok place => place.put (leftAt (place.get?.getD .null) rest)

/-- Writes at a list of segments below a text. A segment that addresses none of its
characters makes a mapping of them; a character cannot be written to. -/
def setInText (value : Value) (s : Text) (keys : List Text) : Except Fault Value := do
  match ← index? (keys.headD []) with
  | some i =>
    if s.length < i then setAt value (.map characters) keys
    else if i < s.length && keys.length ≤ 1 then .error .wrongKind
    else .error .noSuchPart
  | none => setAt value (.map characters) keys
where
  /-- The characters under their positions. -/
  characters : List (Scalar × Value) := numbered 0 (s.map fun c => .str [c])

/-- Writes a value at a path of a tree, which is a mapping or a list. -/
def setAtPath (separator : Text) (tree : Value) (path : Text) (value : Value) :
    Except Fault Value := do
  let keys ← segments separator path
  match tree with
  | .map _ => setAt value tree keys
  | .list _ => setAt value tree keys
  | .scalar (.str s) => setInText value s keys
  | _ => do
    let _ ← index? (keys.headD [])
    .error .wrongKind

/-- The tree that a refused write leaves. A tree that had to become another is left as it
was. -/
def leftAtPath (separator : Text) (tree : Value) (path : Text) : Value :=
  match segments separator path with
  | .error _ => tree
  | .ok keys =>
    match tree, slot tree (keys.headD []) with
    | .map _, _ => leftAt tree keys
    | .list _, .ok (.element _ _) => leftAt tree keys
    | _, _ => tree

/-! ## What later writes do to a value -/

/-- The segments by which a tree has the place of a write: in a list the position, however it
was spelled. -/
def placeOf : (node : Value) → List Text → List Text
  | _, [] => []
  | node, segment :: rest =>
    match slot node segment with
    | .error _ => segment :: rest
    | .ok (.field entries key) => key :: placeOf ((Entries.get? (.str key) entries).getD .null) rest
    | .ok (.element items index) => natText index :: placeOf (items[index]?.getD .null) rest

/-- A sequence of writes to a tree, each with its place in the tree of that moment. -/
def placements (separator : Text) : (tree : Value) → List (Text × Value) →
    Except Fault (List (List Text × Value))
  | _, [] => .ok []
  | tree, (path, value) :: rest => do
    let keys ← segments separator path
    let next ← setAtPath separator tree path value
    return (placeOf tree keys, value) :: (← placements separator next rest)

/-- What becomes of a value at a place by the writes that follow. A write below it goes into
it. A list that has to become a mapping stays behind itself, and only its elements are
reached from then on. A write at its place, or around it, parts it from the tree. -/
def settle : (later : List (List Text × Value)) → (place : List Text) → Value → Value
  | [], _, v => v
  | (target, new) :: later, place, v =>
    if target.isPrefixOf place then v
    else if !place.isPrefixOf target then settle later place v
    else
      let rest := target.drop place.length
      match v, slot v (rest.headD []) with
      | .list items, .ok (.field _ _) =>
        .list ((numbered 0 items).map fun e => match e.1 with
          | .str position => settle later (place ++ [position]) e.2
          | _ => e.2)
      | .list _, .ok _ => settle later place ((setAt new v rest).toOption.getD v)
      | .map _, .ok _ => settle later place ((setAt new v rest).toOption.getD v)
      | _, _ => v

/-- The path of a key below a path. Nothing divides the first segment from the empty path. -/
def join (separator path key : Text) : Text :=
  if path.isEmpty then key else path ++ separator ++ key

mutual

/-- The leaves below a node with their paths, in order. A container without parts is a
leaf. -/
def leaves (separator path : Text) : Value → Except Fault (List (Text × Value))
  | .map (e :: es) => entryLeaves separator path (e :: es)
  | .list (v :: vs) => itemLeaves separator path 0 (v :: vs)
  | v => .ok [(path, v)]

/-- The leaves of the elements of a list, from a position on. -/
def itemLeaves (separator path : Text) :
    (position : Nat) → List Value → Except Fault (List (Text × Value))
  | _, [] => .ok []
  | position, v :: vs => do
    let first ← leaves separator (join separator path (natText position)) v
    let others ← itemLeaves separator path (position + 1) vs
    return first ++ others

/-- The leaves of the entries of a mapping. -/
def entryLeaves (separator path : Text) :
    List (Scalar × Value) → Except Fault (List (Text × Value))
  | [] => .ok []
  | (k, v) :: es => do
    let first ← leaves separator (join separator path (← k.display)) v
    let others ← entryLeaves separator path es
    return first ++ others

end

/-- The leaves of a tree under their paths. An empty tree has none. -/
def flatten (separator : Text) (tree : Value) : Except Fault (List (Text × Value)) :=
  if tree.isTruthy then (leaves separator [] tree).map Entries.ofList else .ok []

/-- The empty tree that a list of paths starts from: a list if the first path starts with the
segment `0`, and a mapping otherwise. -/
def root (separator : Text) (flat : List (Text × Value)) : Except Fault Value := do
  let keys ← segments separator (flat.head?.map (·.1) |>.getD [])
  .ok (if keys.headD [] = "0" then .list [] else .map [])

/-- Puts a tree together from values under paths. -/
def ofFlat (separator : Text) (flat : List (Text × Value)) : Except Fault Value := do
  let tree ← root separator flat
  flat.foldlM (fun tree e => setAtPath separator tree e.1 e.2) tree

end RouteDocs.PathTree
