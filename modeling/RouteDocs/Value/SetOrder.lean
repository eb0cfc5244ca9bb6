import RouteDocs.Value.Basic

/-!
# `RouteDocs.Value.SetOrder`: the order of a set's members

A set has no order of its own, but what lists its members has to choose one. Whole numbers
go by their remainders, so that a set of small ones counts up however it was written.
Members of other kinds stay as they were written.
-/

set_option autoImplicit false

namespace RouteDocs.SetOrder

/-- What remainders are taken by: the least power of two that is above twice the number of
members, and 8 for a few. -/
def modulus.go (count : Nat) : (fuel size : Nat) → Nat
  | 0, size => size
  | fuel + 1, size => if 2 * count < size then size else modulus.go count fuel (2 * size)

/-- What remainders are taken by, for a number of members. -/
def modulus (count : Nat) : Nat := if count ≤ 4 then 8 else modulus.go count count 8

/-- The remainder of a member that is a whole number. -/
def remainder? (size : Nat) (s : Scalar) : Option Nat :=
  match s.key with
  | .scalar (.int i) => some (i % size).toNat
  | _ => none

/-- Puts a member behind those with the same or a smaller remainder. -/
def insert (member : Nat × Scalar) : List (Nat × Scalar) → List (Nat × Scalar)
  | [] => [member]
  | other :: rest =>
    if member.1 < other.1 then member :: other :: rest else other :: insert member rest

/-- The members of a set in the order in which they are listed. -/
def ofList (members : List Scalar) : List Scalar :=
  match members.mapM fun s => (remainder? (modulus members.length) s).map (·, s) with
  | some numbers => (numbers.foldl (fun sorted n => insert n sorted) []).map (·.2)
  | none => members

end RouteDocs.SetOrder
