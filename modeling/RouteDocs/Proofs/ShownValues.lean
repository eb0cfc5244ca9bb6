import RouteDocs.Value.Literal
import Mathlib.Data.Option.Basic

/-!
# `RouteDocs.Proofs.ShownValues`: values that cannot be shown

A message shows a value with all that it holds, one part after the other. Two kinds of part
have no text: a whole number with too many digits, and whatever has too many values around
it. The first such part decides with which fault the message fails.

`Value.parts` lists what a value holds in the order of showing, each part with the number of
values around it. `literal_eq_error_iff` and `display_eq_error_iff` say of every value and
every fault whether showing the value ends in it (`Value.Unshown`).
-/

set_option autoImplicit false

namespace RouteDocs

open Text Number

/-- The literal of a whole number, unless it has too many digits. -/
theorem Scalar.literal_int (i : Int) :
    Scalar.literal (.int i) = (intText? i).elim (.error .badValue) .ok := by
  -- Unfolding the bound on digits would compute it.
  rw [Scalar.literal.eq_def]
  dsimp only
  cases intText? i <;> rfl

namespace Value

/-! ### Parts -/

/-- The parts of a value: itself, and the parts of what it holds. Keys are parts too. -/
inductive Has : Value → Value → Prop where
  /-- The value itself. -/
  | self (v : Value) : Has v v
  /-- What an element of a list has. -/
  | item {items : List Value} {v w : Value} (hmem : v ∈ items) (h : Has v w) : Has (.list items) w
  /-- What the key of a pair has. -/
  | first {a b w : Value} (h : Has a w) : Has (.pair a b) w
  /-- What the value of a pair has. -/
  | second {a b w : Value} (h : Has b w) : Has (.pair a b) w
  /-- A member of a set. -/
  | member {members : List Scalar} {s : Scalar} (hmem : s ∈ members) :
      Has (.set members) (.scalar s)
  /-- A key of a mapping. -/
  | key {entries : List (Scalar × Value)} {e : Scalar × Value} (hmem : e ∈ entries) :
      Has (.map entries) (.scalar e.1)
  /-- What the value of an entry has. -/
  | value {entries : List (Scalar × Value)} {e : Scalar × Value} {w : Value} (hmem : e ∈ entries)
      (h : Has e.2 w) : Has (.map entries) w

/-- What a part of a value has, the value has. -/
theorem Has.trans {u v w : Value} (huv : u.Has v) (hvw : v.Has w) : u.Has w := by
  induction huv with
  | self => exact hvw
  | item hmem _ ih => exact .item hmem (ih hvw)
  | first _ ih => exact .first (ih hvw)
  | second _ ih => exact .second (ih hvw)
  | member hmem =>
      cases hvw with
      | self => exact .member hmem
  | key hmem =>
      cases hvw with
      | self => exact .key hmem
  | value hmem _ ih => exact .value hmem (ih hvw)

/-- The parts of a scalar: only itself. -/
theorem eq_of_scalar_has {s : Scalar} {w : Value} (h : (Value.scalar s).Has w) :
    w = .scalar s := by
  cases h with
  | self => rfl

/-- The parts of a mapping: itself, its keys, and the parts of its values. -/
theorem map_has_cases {entries : List (Scalar × Value)} {w : Value}
    (h : (Value.map entries).Has w) :
    w = .map entries ∨ (∃ e ∈ entries, w = .scalar e.1) ∨ ∃ e ∈ entries, e.2.Has w := by
  cases h with
  | self => exact .inl rfl
  | key hmem => exact .inr (.inl ⟨_, hmem, rfl⟩)
  | value hmem h => exact .inr (.inr ⟨_, hmem, h⟩)

/-! ### Parts in order -/

mutual

/-- What a value holds, in the order of showing, each with the number of values around it:
`depth` for what it holds itself, and one more on every level below. -/
def parts (depth : Nat) : Value → List (Nat × Value)
  | .scalar _ => []
  | .list items => itemParts depth items
  | .pair a b => (depth, a) :: parts (depth + 1) a ++ (depth, b) :: parts (depth + 1) b
  | .set members => members.map fun m => (depth, .scalar m)
  | .map entries => entryParts depth entries
  | .loop _ => []

/-- List elements, each in front of what it holds. -/
def itemParts (depth : Nat) : List Value → List (Nat × Value)
  | [] => []
  | v :: vs => (depth, v) :: parts (depth + 1) v ++ itemParts depth vs

/-- Keys and values of entries, each value in front of what it holds. -/
def entryParts (depth : Nat) : List (Scalar × Value) → List (Nat × Value)
  | [] => []
  | (k, v) :: es =>
    (depth, .scalar k) :: ((depth, v) :: parts (depth + 1) v ++ entryParts depth es)

end

/-- Whether a value is a whole number with too many digits. -/
def isOverlong : Value → Bool
  | .scalar (.int i) => (intText? i).isNone
  | _ => false

/-- The fault of a part that cannot be shown where it stands, apart from what it holds: too
many values are around it, or it is a number with too many digits. -/
def flaw? : Nat × Value → Option Fault
  | (depth, v) =>
    if maxLiteralDepth < depth then some .endless
    else if v.isOverlong then some .badValue
    else none

/-- Showing a value ends in a fault: it is that of the first part with one. -/
def Unshown (v : Value) (f : Fault) : Prop := ((0, v) :: v.parts 1).findSome? flaw? = some f

/-- A part that is nested too deeply has no text. -/
theorem flaw?_of_lt {depth : Nat} (h : maxLiteralDepth < depth) (v : Value) :
    flaw? (depth, v) = some .endless := if_pos h

/-- Where there is room, only a number can be what is wrong with itself. -/
theorem flaw?_of_le {depth : Nat} (h : depth ≤ maxLiteralDepth) {v : Value}
    (hv : v.isOverlong = false) : flaw? (depth, v) = none := by
  rw [flaw?, if_neg (by omega), hv]
  rfl

/-- Where there is room, a scalar is shown or not by itself. -/
theorem flaw?_scalar {depth : Nat} (h : depth ≤ maxLiteralDepth) {s : Scalar} {f : Fault} :
    flaw? (depth, .scalar s) = some f ↔ s.literal = .error f := by
  rw [flaw?, if_neg (by omega)]
  cases s with
  | int i =>
      rw [isOverlong, Scalar.literal_int]
      cases intText? i <;> simp
  | bool b => cases b <;> exact ⟨nofun, nofun⟩
  | _ => exact ⟨nofun, nofun⟩

/-- Whether a scalar can be shown. -/
theorem unshown_scalar_iff {s : Scalar} {f : Fault} :
    (Value.scalar s).Unshown f ↔ s.literal = .error f := by
  rw [Unshown, parts, List.findSome?_cons]
  rw [← flaw?_scalar (Nat.zero_le _)]
  cases flaw? (0, .scalar s) <;> simp

/-! ### The first fault -/

/-- A result fails as the first of the parts that has a fault. -/
def FailsFirst {α : Type} (ps : List (Nat × Value)) (x : Except Fault α) : Prop :=
  ∀ f, x = .error f ↔ ps.findSome? flaw? = some f

namespace FailsFirst

variable {α β : Type} {p : Nat × Value} {ps qs : List (Nat × Value)} {f : Fault}

/-- Of no parts none has a fault. -/
theorem ok {a : α} : FailsFirst [] (.ok a : Except Fault α) := fun f => by simp

/-- The first part has one. -/
theorem error (h : flaw? p = some f) : FailsFirst (p :: ps) (.error f : Except Fault α) :=
  fun g => by simp [h]

/-- The first part has none. -/
theorem skip {x : Except Fault α} (hp : flaw? p = none) (h : FailsFirst ps x) :
    FailsFirst (p :: ps) x :=
  fun g => by rw [List.findSome?_cons, hp, h g]

/-- What is made of a result fails as the result. -/
theorem map {x : Except Fault α} (h : FailsFirst ps x) (g : α → β) :
    FailsFirst ps (do return g (← x)) := by
  intro f
  rw [← h f]
  cases x with
  | error e => exact ⟨fun h => congrArg _ (Except.error.inj h),
      fun h => congrArg _ (Except.error.inj h)⟩
  | ok a => exact ⟨nofun, nofun⟩

/-- One result after another: the parts of the first come first. -/
theorem bind {x : Except Fault α} {g : α → Except Fault β} (h : FailsFirst ps x)
    (hg : ∀ a, FailsFirst qs (g a)) : FailsFirst (ps ++ qs) (x >>= g) := by
  intro f
  rw [List.findSome?_append]
  cases hx : x with
  | error e =>
      rw [(h e).mp hx]
      exact ⟨fun he => congrArg some (Except.error.inj he),
        fun he => congrArg Except.error (Option.some.inj he)⟩
  | ok a =>
      have hnone : ps.findSome? flaw? = none := by
        by_contra hsome
        obtain ⟨e, he⟩ := Option.ne_none_iff_exists'.mp hsome
        cases hx.symm.trans ((h e).mpr he)
      rw [hnone]
      exact hg a f

/-- A scalar where there is room. -/
theorem literal {depth : Nat} (h : depth ≤ maxLiteralDepth) (s : Scalar) :
    FailsFirst [(depth, .scalar s)] s.literal := by
  intro f
  rw [← flaw?_scalar h, List.findSome?_cons]
  cases flaw? (depth, .scalar s) <;> simp

/-- Scalars one after the other, where there is room. -/
theorem literals {depth : Nat} (h : depth ≤ maxLiteralDepth) (members : List Scalar) :
    FailsFirst (members.map fun m => (depth, .scalar m)) (members.mapM Scalar.literal) := by
  induction members with
  | nil => exact .ok
  | cons m ms ih =>
      rw [List.mapM_cons]
      exact (FailsFirst.literal h m).bind fun shown => ih.map (shown :: ·)

end FailsFirst

mutual

/-- With the room that is left at its depth, a value is shown or fails as its first part with a
fault. -/
theorem literalWithin_failsFirst : (v : Value) → (depth room : Nat) →
    depth + room = maxLiteralDepth →
    FailsFirst ((depth, v) :: v.parts (depth + 1)) (v.literalWithin room)
  | .scalar s, depth, room, h => by
    rw [literalWithin, parts]
    exact .literal (by omega) s
  | .list items, depth, room, h => by
    rw [literalWithin, parts]
    exact .skip (flaw?_of_le (by omega) rfl) ((literalItems_failsFirst items depth room h).map _)
  | .pair a b, depth, 0, h => by
    rw [literalWithin, parts]
    exact .skip (flaw?_of_le (by omega) rfl) (.error (flaw?_of_lt (by omega) a))
  | .pair a b, depth, room + 1, h => by
    rw [literalWithin, parts]
    refine .skip (flaw?_of_le (by omega) rfl) ?_
    refine (literalWithin_failsFirst a (depth + 1) room (by omega)).bind fun key => ?_
    exact (literalWithin_failsFirst b (depth + 1) room (by omega)).map _
  | .set [], depth, room, h => by
    rw [literalWithin, parts]
    exact .skip (flaw?_of_le (by omega) rfl) .ok
  | .set (m :: ms), depth, 0, h => by
    rw [literalWithin, parts]
    exact .skip (flaw?_of_le (by omega) rfl) (.error (flaw?_of_lt (by omega) (.scalar m)))
  | .set (m :: ms), depth, room + 1, h => by
    rw [literalWithin, parts]
    refine .skip (flaw?_of_le (by omega) rfl) ?_
    exact (FailsFirst.literals (by omega) (m :: ms)).map _
  | .map entries, depth, room, h => by
    rw [literalWithin, parts]
    exact .skip (flaw?_of_le (by omega) rfl)
      ((literalEntries_failsFirst entries depth room h).map _)
  | .loop c, depth, room, h => by
    rw [literalWithin, parts]
    exact .skip (flaw?_of_le (by omega) rfl) .ok

/-- List elements are shown one after the other. -/
theorem literalItems_failsFirst : (items : List Value) → (depth room : Nat) →
    depth + room = maxLiteralDepth →
    FailsFirst (itemParts (depth + 1) items) (literalItems room items)
  | [], _, _, _ => by
    rw [literalItems, itemParts]
    exact .ok
  | v :: vs, depth, 0, h => by
    rw [literalItems, itemParts]
    exact .error (flaw?_of_lt (by omega) v)
  | v :: vs, depth, room + 1, h => by
    rw [literalItems, itemParts]
    refine (literalWithin_failsFirst v (depth + 1) room (by omega)).bind fun shown => ?_
    exact (literalItems_failsFirst vs depth (room + 1) h).map _

/-- Of every entry the key is shown, and then the value. -/
theorem literalEntries_failsFirst : (entries : List (Scalar × Value)) → (depth room : Nat) →
    depth + room = maxLiteralDepth →
    FailsFirst (entryParts (depth + 1) entries) (literalEntries room entries)
  | [], _, _, _ => by
    rw [literalEntries, entryParts]
    exact .ok
  | (k, v) :: es, depth, 0, h => by
    rw [literalEntries, entryParts]
    exact .error (flaw?_of_lt (by omega) (.scalar k))
  | (k, v) :: es, depth, room + 1, h => by
    rw [literalEntries, entryParts]
    refine (FailsFirst.literal (by omega) k).bind fun key => ?_
    refine (literalWithin_failsFirst v (depth + 1) room (by omega)).bind fun shown => ?_
    exact (literalEntries_failsFirst es depth (room + 1) h).map _

end

/-- A value has no literal exactly when one of its parts cannot be shown, and the first of
these decides the fault. -/
theorem literal_eq_error_iff {v : Value} {f : Fault} : v.literal = .error f ↔ v.Unshown f :=
  literalWithin_failsFirst v 0 maxLiteralDepth (Nat.zero_add _) f

/-- Where a text is wanted, it is the same. -/
theorem display_eq_error_iff {v : Value} {f : Fault} : v.display = .error f ↔ v.Unshown f := by
  rw [← literal_eq_error_iff]
  cases v with
  | scalar s =>
      rw [literal, literalWithin]
      cases s with
      -- Texts, dates and moments have two forms, and always both.
      | str _ => exact ⟨nofun, nofun⟩
      | date _ => exact ⟨nofun, nofun⟩
      | moment _ => exact ⟨nofun, nofun⟩
      | _ => exact Iff.rfl
  | _ => exact Iff.rfl

end Value

/-- A scalar where a text is wanted fails as it does when it is shown. -/
theorem Scalar.display_eq_error_iff {s : Scalar} {f : Fault} :
    s.display = .error f ↔ (Value.scalar s).Unshown f :=
  Value.display_eq_error_iff (v := .scalar s)

end RouteDocs
