/-!
# `RouteDocs.Entries`: ordered entries under keys

Mappings keep the order in which their keys were first written, and answers show it.
They are lists of key and value pairs. Writing to a key that is present keeps the key
and its place and replaces the value; writing to a new key adds it at the end.
-/

set_option autoImplicit false

namespace RouteDocs.Entries

variable {κ α β : Type} [BEq κ]

/-- The value under `key`. -/
def get? (key : κ) : List (κ × α) → Option α
  | [] => none
  | (k, v) :: es => if k == key then some v else get? key es

/-- Whether there is a value under `key`. -/
def has (key : κ) (es : List (κ × α)) : Bool := (get? key es).isSome

/-- Writes `value` under `key`. -/
def insert (key : κ) (value : α) : List (κ × α) → List (κ × α)
  | [] => [(key, value)]
  | (k, v) :: es => if k == key then (k, value) :: es else (k, v) :: insert key value es

/-- Writes the entries of `new` one after the other. -/
def insertAll (old new : List (κ × α)) : List (κ × α) :=
  new.foldl (fun es e => insert e.1 e.2 es) old

/-- The entries that a list of writes leaves. -/
def ofList (writes : List (κ × α)) : List (κ × α) := insertAll [] writes

/-- Adds `value` to the list under `key`, which is empty when there is none yet. -/
def append (key : κ) (value : α) : List (κ × List α) → List (κ × List α)
  | [] => [(key, [value])]
  | (k, vs) :: es => if k == key then (k, vs ++ [value]) :: es else (k, vs) :: append key value es

end RouteDocs.Entries
