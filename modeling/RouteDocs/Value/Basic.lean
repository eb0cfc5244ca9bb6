import RouteDocs.Calendar
import RouteDocs.Entries

/-!
# `RouteDocs.Value`: the values that documents are made of

Property blocks, settings, base documents and examples are trees of dynamic values.
`Scalar` has the values that may also be keys; `Value` adds lists, mappings, and the
pairs and sets that a settings file may spell with a tag. A document may also let a
value contain itself. Such a value is kept as the tree down to where it comes round to a
value that it is inside of, and a `loop` stands there.

Keys are compared by what they denote: a truth value, a whole number and a fraction
with the same value are one key, and so are moments at the same instant. `==` on
`Scalar` is this comparison, `=` is equality of the value itself.

Equality of values is decided by `Value.same`, and `Value.same_iff` says that it is right.
-/

set_option autoImplicit false

namespace RouteDocs

/-- A value without parts. -/
inductive Scalar where
  /-- No value. -/
  | null
  /-- A truth value. -/
  | bool (b : Bool)
  /-- A whole number. -/
  | int (i : Int)
  /-- A double-precision number. -/
  | float (x : Binary64)
  /-- A text. -/
  | str (s : Text)
  /-- A sequence of bytes. -/
  | bytes (b : List UInt8)
  /-- A day. -/
  | date (d : Date)
  /-- A day with a time. -/
  | moment (m : Moment)
deriving DecidableEq, Repr

/-- What a scalar is compared by when it is a key. -/
inductive Key where
  /-- A scalar that is only like itself. -/
  | scalar (s : Scalar)
  /-- A point in time, in microseconds. -/
  | instant (microseconds : Int)
deriving DecidableEq, Repr

/-- The key that a scalar is: numbers of one value, and moments of one instant, are the
same key. -/
def Scalar.key : Scalar → Key
  | .bool b => .scalar (.int (if b then 1 else 0))
  | .float x => match x.toInt? with
    | some i => .scalar (.int i)
    | none => .scalar (.float x)
  | .moment m => match m.instant? with
    | some t => .instant t
    | none => .scalar (.moment m)
  | s => .scalar s

/-- Scalars compare as the keys that they are. -/
instance : BEq Scalar := ⟨fun a b => decide (a.key = b.key)⟩

/-- The kinds of value that can come round. -/
inductive Container where
  /-- A list. -/
  | list
  /-- A pair. -/
  | pair
  /-- A mapping. -/
  | map
deriving DecidableEq, Repr

/-- A tree of values. -/
inductive Value where
  /-- A value without parts. -/
  | scalar (s : Scalar)
  /-- A list. -/
  | list (items : List Value)
  /-- An entry of an ordered list of entries. -/
  | pair (key value : Value)
  /-- A collection without order or repetition, as it is listed. -/
  | set (members : List Scalar)
  /-- Values under keys, in the order of first writing. -/
  | map (entries : List (Scalar × Value))
  /-- A value of the given kind that this place is inside of. -/
  | loop (container : Container)

namespace Value

mutual

/-- Whether two values are the same, part by part. -/
def same : Value → Value → Bool
  | .scalar s, .scalar t => decide (s = t)
  | .list xs, .list ys => sameItems xs ys
  | .pair a b, .pair c d => same a c && same b d
  | .set xs, .set ys => decide (xs = ys)
  | .map es, .map fs => sameEntries es fs
  | .loop s, .loop t => decide (s = t)
  | _, _ => false

/-- Whether two lists have the same elements. -/
def sameItems : List Value → List Value → Bool
  | [], [] => true
  | x :: xs, y :: ys => same x y && sameItems xs ys
  | _, _ => false

/-- Whether two mappings have the same entries in the same order. -/
def sameEntries : List (Scalar × Value) → List (Scalar × Value) → Bool
  | [], [] => true
  | (k, v) :: es, (l, w) :: fs => decide (k = l) && same v w && sameEntries es fs
  | _, _ => false

end

mutual

/-- Values are the same exactly when they are equal. -/
theorem same_iff : (a b : Value) → (same a b = true ↔ a = b)
  | .scalar _, b => by cases b <;> simp [same]
  | .list xs, b => by cases b <;> simp [same, sameItems_iff xs]
  | .pair a c, b => by cases b <;> simp [same, same_iff a, same_iff c]
  | .set _, b => by cases b <;> simp [same]
  | .map es, b => by cases b <;> simp [same, sameEntries_iff es]
  | .loop _, b => by cases b <;> simp [same]

/-- Lists have the same elements exactly when they are equal. -/
theorem sameItems_iff : (xs ys : List Value) → (sameItems xs ys = true ↔ xs = ys)
  | [], ys => by cases ys <;> simp [sameItems]
  | x :: xs, ys => by cases ys <;> simp [sameItems, same_iff x, sameItems_iff xs]

/-- Mappings have the same entries exactly when they are equal. -/
theorem sameEntries_iff : (es fs : List (Scalar × Value)) → (sameEntries es fs = true ↔ es = fs)
  | [], fs => by cases fs <;> simp [sameEntries]
  | (k, v) :: es, fs => by
    cases fs with
    | nil => simp [sameEntries]
    | cons f fs => simp [sameEntries, same_iff v, sameEntries_iff es, Prod.ext_iff, and_assoc]

end

/-- Values can be compared, part by part. -/
instance : DecidableEq Value := fun a b => decidable_of_iff _ (same_iff a b)

/-- No value. -/
@[match_pattern] abbrev null : Value := .scalar .null

/-- A truth value. -/
@[match_pattern] abbrev bool (b : Bool) : Value := .scalar (.bool b)

/-- A whole number. -/
@[match_pattern] abbrev int (i : Int) : Value := .scalar (.int i)

/-- A double-precision number. -/
@[match_pattern] abbrev float (x : Binary64) : Value := .scalar (.float x)

/-- A text. -/
@[match_pattern] abbrev str (s : Text) : Value := .scalar (.str s)

/-- There is a value. -/
instance : Inhabited Value := ⟨null⟩

/-- A mapping with keys that are known. -/
def object (fields : List (String × Value)) : Value :=
  .map (fields.map fun f => (.str f.1, f.2))

/-- A mapping whose keys are texts. -/
def ofFields (fields : List (Text × Value)) : Value := .map (fields.map fun f => (.str f.1, f.2))

/-- The value under a text key of a mapping. Other values have none. -/
def get? (key : String) : Value → Option Value
  | .map entries => Entries.get? (.str key) entries
  | _ => none

/-- Whether this is a mapping. -/
def isMap : Value → Bool
  | .map _ => true
  | _ => false

/-- Whether this is no value. -/
def isNull : Value → Bool
  | .null => true
  | _ => false

/-- Whether the value counts as present: absent values, false, zeros and everything
empty do not. -/
def isTruthy : Value → Bool
  | .scalar .null => false
  | .scalar (.bool b) => b
  | .scalar (.int i) => i != 0
  | .scalar (.float x) => !x.isZero
  | .scalar (.str s) => !s.isEmpty
  | .scalar (.bytes b) => !b.isEmpty
  | .scalar (.date _) => true
  | .scalar (.moment _) => true
  | .list items => !items.isEmpty
  | .pair _ _ => true
  | .set members => !members.isEmpty
  | .map entries => !entries.isEmpty
  | .loop _ => true

mutual

/-- How deeply lists and mappings are nested. -/
def depth : Value → Nat
  | .list items => itemsDepth items + 1
  | .pair key value => max (depth key) (depth value) + 1
  | .map entries => entriesDepth entries + 1
  | _ => 0

/-- The greatest depth among the elements of a list. -/
def itemsDepth : List Value → Nat
  | [] => 0
  | v :: vs => max (depth v) (itemsDepth vs)

/-- The greatest depth among the values of a mapping. -/
def entriesDepth : List (Scalar × Value) → Nat
  | [] => 0
  | (_, v) :: es => max (depth v) (entriesDepth es)

end

end Value

end RouteDocs
