import RouteDocs.Proofs.Coupling
import RouteDocs.Proofs.PathMaps

/-!
# `RouteDocs.Proofs.RepeatedWrites`: the last write at a path wins

A write at a path may start containers, add to a list, and make a mapping of a list that
cannot take a segment. A second write at the same path then walks a tree of another shape than
the first one did. `setAtPath_setAtPath` says that it arrives at the same slot all the same:
what it leaves is the tree that it would have left without the first write, down to the order
of the keys, and it succeeds whenever the first one did. No condition is put on the segments,
so numerals with zeros in front and empty segments are included.

The step is `slot_put`. A segment that has found a place finds it again in the container with
something put there, and putting twice is putting once. `setAt_setAt` follows the segments with
it.
-/

set_option autoImplicit false

namespace RouteDocs.PathTree

open Text Number

variable {node : Value} {s : Text} {place : Slot}

/-- An element at most one past the last is found again, once it is there. -/
theorem slot_put_element {items : List Value} {i : Nat} (hi : i ≤ items.length)
    (hindex : index? s = .ok (some i)) (v : Value) :
    ∃ again, slot ((Slot.element items i).put v) s = .ok again ∧ again.get? = some v ∧
      ∀ w, again.put w = (Slot.element items i).put w := by
  by_cases hlt : i < items.length
  · have hput : ∀ w, (Slot.element items i).put w = .list (items.set i w) := fun w => by
      rw [Slot.put, if_pos hlt]
    have hlength : i ≤ (items.set i v).length := by rw [List.length_set]; exact hi
    refine ⟨.element (items.set i v) i, ?_, ?_, fun w => ?_⟩
    · rw [hput, slot_list_of_index? _ hindex, Option.elim_some, if_pos hlength]
    · rw [Slot.get?, List.getElem?_set_self hlt]
    · rw [hput, Slot.put, if_pos (by rwa [List.length_set]), List.set_set]
  · -- The element was added at the end, where it now stands.
    obtain rfl : i = items.length := by omega
    have hput : ∀ w, (Slot.element items items.length).put w = .list (items ++ [w]) := fun w => by
      rw [Slot.put, if_neg hlt]
    have hlength : items.length < (items ++ [v]).length := by simp
    refine ⟨.element (items ++ [v]) items.length, ?_, ?_, fun w => ?_⟩
    · rw [hput, slot_list_of_index? _ hindex, Option.elim_some, if_pos (Nat.le_of_lt hlength)]
    · rw [Slot.get?, List.getElem?_concat_length]
    · rw [hput, Slot.put, if_pos hlength, List.set_append_right _ _ (Nat.le_refl _), Nat.sub_self,
        List.set_cons_zero]

/-- What was put under a key is found there, also where a list had to become a mapping for it. -/
theorem slot_put_field (es : List (Scalar × Value)) (s : Text) (v : Value) :
    ∃ again, slot ((Slot.field es s).put v) s = .ok again ∧ again.get? = some v ∧
      ∀ w, again.put w = (Slot.field es s).put w := by
  refine ⟨.field (Entries.insert (.str s) v es) s, rfl, ?_, fun w => ?_⟩
  · rw [Slot.get?, Entries.get?_insert_self]
  · rw [Slot.put, Slot.put, Entries.insert_insert_self]

/-- The segment finds the place again in the container that has a value there: the value is
what it finds, and another one put there takes its place. -/
theorem slot_put (h : slot node s = .ok place) (v : Value) :
    ∃ again, slot (place.put v) s = .ok again ∧ again.get? = some v ∧
      ∀ w, again.put w = place.put w := by
  -- Where there is no container, the segment `0` starts a list, and any other a mapping.
  have hnew : (if s = ("0" : Text) then .ok (.element [] 0) else .ok (.field [] s) :
        Except Fault Slot) = .ok place →
      ∃ again, slot (place.put v) s = .ok again ∧ again.get? = some v ∧
        ∀ w, again.put w = place.put w := by
    intro h
    by_cases hzero : s = ("0" : Text)
    · rw [if_pos hzero] at h
      cases h
      exact slot_put_element (Nat.zero_le _) (hzero ▸ by decide) v
    · rw [if_neg hzero] at h
      cases h
      exact slot_put_field [] s v
  cases node with
  | map es =>
      cases h
      exact slot_put_field es s v
  | list items =>
      rcases slot_list_eq_ok h with rfl | ⟨i, rfl, hi, hindex⟩
      · exact slot_put_field (numbered 0 items) s v
      · exact slot_put_element hi hindex v
  | scalar _ => exact hnew h
  | pair _ _ => exact hnew h
  | set _ => exact hnew h
  | loop _ => exact hnew h

/-- A write below a node, made again with another value, leaves what the second write alone
would have left. -/
theorem setAt_setAt {v node written : Value} {segs : List Text}
    (h : setAt v node segs = .ok written) (w : Value) :
    ∃ result, setAt w written segs = .ok result ∧ setAt w node segs = .ok result := by
  induction segs generalizing node written with
  | nil => exact ⟨w, by rw [setAt], by rw [setAt]⟩
  | cons s rest ih =>
      obtain ⟨place, child, hplace, hchild, rfl⟩ := setAt_cons_eq_ok h
      obtain ⟨again, hagain, hget, hput⟩ := slot_put hplace child
      obtain ⟨result, hsecond, hdirect⟩ := ih hchild
      refine ⟨place.put result, ?_, ?_⟩
      · rw [setAt, hagain]
        show (setAt w (again.get?.getD .null) rest >>= fun c => .ok (again.put c)) = _
        rw [hget, Option.getD_some, hsecond]
        exact congrArg Except.ok (hput result)
      · rw [setAt, hplace]
        show (setAt w (place.get?.getD .null) rest >>= fun c => .ok (place.put c)) = _
        rw [hdirect]
        rfl

/-- A write into a text that succeeds is a write below the mapping of its characters. -/
theorem setInText_eq_setAt {v written : Value} {s : Text} {keys : List Text}
    (h : setInText v s keys = .ok written) (w : Value) :
    setInText w s keys = setAt w (.map (setInText.characters s)) keys := by
  obtain ⟨position, hindex, h⟩ := exists_of_bind_eq_ok h
  rw [setInText, hindex]
  cases position with
  | none => rfl
  | some i =>
      by_cases hi : s.length < i
      · show (if s.length < i then _ else _) = _
        rw [if_pos hi]
      · -- A character cannot be written to.
        simp only [if_neg hi] at h
        split at h <;> cases h

/-- Where a write at a path succeeds, every write at that path is one at its segments, below a
node that does not depend on the value. -/
theorem exists_setAt_of_setAtPath {separator path : Text} {tree written v : Value}
    (h : setAtPath separator tree path v = .ok written) :
    ∃ node keys, segments separator path = .ok keys ∧
      ∀ w, setAtPath separator tree path w = setAt w node keys := by
  obtain ⟨keys, hkeys, h⟩ := exists_of_bind_eq_ok h
  cases tree with
  | map es => exact ⟨.map es, keys, hkeys, fun w => setAtPath_of_segments w (.inl ⟨_, rfl⟩) hkeys⟩
  | list vs => exact ⟨.list vs, keys, hkeys, fun w => setAtPath_of_segments w (.inr ⟨_, rfl⟩) hkeys⟩
  | scalar a =>
      cases a with
      | str s =>
          refine ⟨.map (setInText.characters s), keys, hkeys, fun w => ?_⟩
          rw [setAtPath, hkeys]
          exact setInText_eq_setAt h w
      | _ =>
          obtain ⟨position, -, h⟩ := exists_of_bind_eq_ok h
          cases h
  | _ =>
      obtain ⟨position, -, h⟩ := exists_of_bind_eq_ok h
      cases h

/-- The last write at a path wins: after a write that succeeds, a write of another value at the
same path succeeds too, and leaves exactly the tree that it leaves without the first. -/
theorem setAtPath_setAtPath {separator path : Text} {tree written v : Value}
    (h : setAtPath separator tree path v = .ok written) (w : Value) :
    ∃ result, setAtPath separator written path w = .ok result ∧
      setAtPath separator tree path w = .ok result := by
  obtain ⟨node, keys, hkeys, hwrite⟩ := exists_setAt_of_setAtPath h
  obtain ⟨first, rest, rfl⟩ := exists_cons_of_segments hkeys
  rw [hwrite] at h
  obtain ⟨result, hsecond, hdirect⟩ := setAt_setAt h w
  refine ⟨result, ?_, (hwrite w).trans hdirect⟩
  rw [setAtPath_of_segments w (isTree_setAt h) hkeys, hsecond]

/-- A list whose first element is a list. -/
def listOfLists : Value := .list [.list [.int 10], .int 20]

/-- The path finds the inner list by a numeral with a zero in front, makes a mapping of it, and
starts a list below an empty segment. -/
theorem setAtPath_setAtPath_listOfLists :
    setAtPath "." listOfLists "00.7..0" (.int 1)
        = .ok (.list [.map [(.str "0", .int 10),
            (.str "7", .map [(.str "", .list [.int 1])])], .int 20]) ∧
      ∃ result,
        setAtPath "." (.list [.map [(.str "0", .int 10),
            (.str "7", .map [(.str "", .list [.int 1])])], .int 20]) "00.7..0" (.map [])
          = .ok result ∧
        setAtPath "." listOfLists "00.7..0" (.map []) = .ok result := by
  have hfirst : setAtPath "." listOfLists "00.7..0" (.int 1)
      = .ok (.list [.map [(.str "0", .int 10),
          (.str "7", .map [(.str "", .list [.int 1])])], .int 20]) := by
    rfl
  exact ⟨hfirst, setAtPath_setAtPath hfirst (.map [])⟩

end RouteDocs.PathTree
