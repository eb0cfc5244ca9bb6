import RouteDocs.Proofs.Draws
import RouteDocs.Proofs.PathMaps

/-!
# `RouteDocs.Proofs.PathReads`: what trees have at a path

The values of a nested schema are written into one tree, each at the path of its field. Two runs
write at the same paths, and where they write the same they are to leave the same. But a value
that is made up may be written into one that the author gives. This module says which parts of
two trees are the same, whatever is made up.

`readAt` tells what a tree has at a list of segments. In a list `1` and `01` are one position,
so paths are compared up to the spelling of positions: a path `Meets` another one if it may lead
to the place of that one, or below it. Two facts are proved of writes that two runs make alike.

* A path that no made-up value meets has the same in both trees (`readAt_setAt` for one write,
  `readAt_ofFlat` for all).
* A value ends up the same if the later writes that go into it write the same (`settle_congr`).
-/

set_option autoImplicit false

namespace RouteDocs

open Text Number Synthesis

namespace Synthesis

/-- The segments of a path. -/
def keysOf (path : Text) : List Text := splitOn separator (trimOf separator path)

/-- With the separator of field paths a path always has segments. -/
theorem segments_separator (path : Text) :
    PathTree.segments separator path = .ok (keysOf path) := rfl

end Synthesis

namespace PathTree

/-! ### Reading -/

section
variable {D G : Scalar → Scalar → Prop}

/-- What a value has under a segment: a mapping by its name, and a list by the position that the
segment is read as. -/
def partAt (v : Value) (segment : Text) : Option Value :=
  match v with
  | .map entries => Entries.get? (.str segment) entries
  | .list items =>
    match index? segment with
    | .ok (some i) => items[i]?
    | _ => Entries.get? (.str segment) (numbered 0 items)
  | _ => none

/-- What a value has at a list of segments. -/
def readAt : Value → List Text → Option Value
  | v, [] => some v
  | v, segment :: rest => (partAt v segment).bind fun child => readAt child rest

/-- Values that are alike have under a segment what is alike, or both have nothing. -/
theorem partAt_alike {v w : Value} (h : Alike D G .sample v w) (segment : Text) :
    Option.Rel (Alike D G .sample) (partAt v segment) (partAt w segment) := by
  cases h with
  | map h =>
      have hentries := matched_sample_iff.mp (.map h)
      exact hentries.get? (Entries.respects_const _) (.str segment)
  | list h =>
      have hitems := Alike.list_iff.mp (.list h)
      rw [partAt, partAt]
      split
      · exact rel_getElem? hitems _
      · exact (numbered_matched hitems 0).get? (Entries.respects_const _) (.str segment)
  | scalar _ => exact .none
  | pair => exact .none
  | set => exact .none
  | loop => exact .none

/-- Values that are alike have at the same segments what is alike, or both have nothing. -/
theorem readAt_alike {v w : Value} (h : Alike D G .sample v w) (keys : List Text) :
    Option.Rel (Alike D G .sample) (readAt v keys) (readAt w keys) := by
  induction keys generalizing v w with
  | nil => exact .some h
  | cons segment rest ih =>
      have hpart := partAt_alike h segment
      rw [readAt, readAt]
      generalize partAt v segment = a, partAt w segment = b at hpart ⊢
      cases hpart with
      | none => exact .none
      | some hvw => exact ih hvw

end

/-! ### Paths that meet -/

/-- Two segments that may lead to one part of a value: one segment, or two spellings of a
position. -/
def SameSegment (r s : Text) : Prop :=
  r = s ∨ ∃ i, index? r = .ok (some i) ∧ index? s = .ok (some i)

/-- A path that may lead to the place of another path, or below it. -/
def Meets (above path : List Text) : Prop :=
  List.Forall₂ SameSegment above (path.take above.length)

namespace SameSegment

variable {r s t : Text}

/-- A segment addresses what it addresses. -/
theorem refl (s : Text) : SameSegment s s := .inl rfl

/-- The relation does not depend on the order of the two. -/
theorem symm (h : SameSegment r s) : SameSegment s r := by
  obtain rfl | ⟨i, hr, hs⟩ := h
  · exact .refl _
  · exact .inr ⟨i, hs, hr⟩

/-- Segments that address what a third one does address the same: they are equal, or they are read
as one number. -/
theorem trans (h : SameSegment r s) (h' : SameSegment s t) : SameSegment r t := by
  obtain rfl | ⟨i, hr, hs⟩ := h
  · exact h'
  obtain rfl | ⟨j, hs', ht⟩ := h'
  · exact .inr ⟨i, hr, hs⟩
  · rw [hs] at hs'
    cases hs'
    exact .inr ⟨i, hr, ht⟩

/-- A position is the same segment as its numeral. -/
theorem natText {i : Nat} (h : index? s = .ok (some i)) : SameSegment s (natText i) :=
  .inr ⟨i, h, index?_natText (exists_readInt?_of_index? h).2⟩

/-- A segment is the same as the name of the place that it leads to. -/
theorem key {node : Value} {place : Slot} (h : slot node s = .ok place) :
    SameSegment s place.key := by
  cases node with
  | map es =>
      cases h
      exact .refl s
  | list items =>
      -- A list may be taken as a mapping by names.
      obtain rfl | ⟨i, rfl, -, hindex⟩ := slot_list_eq_ok h
      · exact .refl s
      · exact natText hindex
  | scalar _ | pair _ _ | set _ | loop _ =>
      rw [slot] at h
      · split at h
        · rename_i hs
          cases h
          exact .inl hs
        · cases h
          exact .refl s
      · simp
      · simp

end SameSegment

/-- Every path goes through the value at the top. -/
@[simp] theorem meets_nil (path : List Text) : Meets [] path := by
  rw [Meets]
  exact .nil

/-- Behind segments that address the same, paths meet if what follows does. -/
theorem meets_cons {r s : Text} {above path : List Text} (h : SameSegment r s)
    (hrest : Meets above path) : Meets (r :: above) (s :: path) := by
  rw [Meets, List.length_cons, List.take_succ_cons]
  exact .cons h hrest

/-- Spellings of two paths, one of them a prefix of the other. -/
theorem meets_of_prefix {above path place target : List Text}
    (habove : List.Forall₂ SameSegment above place) (hpath : List.Forall₂ SameSegment path target)
    (h : place <+: target) : Meets above path := by
  -- The first segments of the longer path spell the same place as the shorter one.
  have htaken := List.forall₂_take place.length hpath
  rw [← List.prefix_iff_eq_take.mp h] at htaken
  rw [Meets, habove.length_eq]
  exact Entries.forall₂_join (fun _ _ _ h h' => h.trans h'.symm) habove htaken

/-- A path is spelt as the place that it leads to. -/
theorem sameSegment_placeOf (node : Value) (segs : List Text) :
    List.Forall₂ SameSegment segs (placeOf node segs) := by
  induction segs generalizing node with
  | nil => exact .nil
  | cons s rest ih =>
      cases hplace : slot node s with
      | error f =>
          rw [placeOf, hplace]
          exact List.forall₂_same.mpr fun s _ => .refl s
      | ok place =>
          rw [placeOf_cons rest hplace]
          exact .cons (.key hplace) (ih _)

/-! ### What is read after one write -/

namespace Slot

/-- A segment that leads to a place, once something is put there. -/
def Takes : Slot → Text → Prop
  | .field _ key, segment => segment = key
  | .element _ index, segment => index? segment = .ok (some index)

/-- Places that are alike are taken by the same segments. -/
theorem Alike.takes_iff {D G : Scalar → Scalar → Prop} {place place' : Slot}
    (h : Slot.Alike D G place place') (segment : Text) :
    place.Takes segment ↔ place'.Takes segment := by
  cases h <;> exact Iff.rfl

/-- A segment that leads to a place is the same as the one that was written to. -/
theorem Takes.sameSegment {node : Value} {place : Slot} {r s : Text} (h : slot node s = .ok place)
    (hr : place.Takes r) : SameSegment r s := by
  have hkey := SameSegment.key h
  cases place with
  | field es key =>
      rw [show r = key from hr]
      exact hkey.symm
  | element items i => exact (SameSegment.natText hr).trans hkey.symm

end Slot

/-- What a list has under a name is the element whose position is that numeral. -/
theorem exists_of_get?_numbered {start : Nat} {vs : List Value} {s : Text} {x : Value}
    (h : Entries.get? (.str s) (numbered start vs) = some x) :
    ∃ i, s = natText (start + i) ∧ vs[i]? = some x := by
  induction vs generalizing start with
  | nil => cases h
  | cons v vs ih =>
      rw [numbered, Entries.get?_cons, Scalar.str_beq_str] at h
      split at h
      · rename_i hs
        exact ⟨0, (of_decide_eq_true hs).symm, h⟩
      · obtain ⟨i, hs, hi⟩ := ih h
        exact ⟨i + 1, by rw [hs]; congr 1; omega, hi⟩

/-- What a value has under a name it has under the segment. -/
theorem partAt_of_get? {v : Value} {s : Text} {x : Value}
    (h : Entries.get? (.str s) (parts v) = some x) : partAt v s = some x := by
  cases v with
  | map es => exact h
  | list items =>
      rw [partAt]
      split
      · rename_i i hindex
        obtain ⟨j, rfl, hj⟩ := exists_of_get?_numbered h
        -- The numeral of a position is read as this position, if it is read at all.
        obtain ⟨⟨n, hread, rfl⟩, -⟩ := exists_readInt?_of_index? hindex
        rw [eq_of_readInt?_natText hread, Nat.zero_add]
        exact hj
      · exact h
  | scalar _ | pair _ _ | set _ | loop _ => cases h

section
variable {node : Value} {s r : Text} {place : Slot}

/-- A place under a name is one in the parts of the value. -/
theorem slot_eq_field {es : List (Scalar × Value)} {key : Text}
    (h : slot node s = .ok (.field es key)) : parts node = es := by
  cases node with
  | map _ =>
      cases h
      rfl
  | list items =>
      obtain h | ⟨i, h, -, -⟩ := slot_list_eq_ok h <;> cases h
      rfl
  | scalar _ | pair _ _ | set _ | loop _ =>
      rw [slot] at h
      · split at h <;> cases h
        rfl
      · simp
      · simp

/-- A place at a position is one in the list, or the first one of a new list. -/
theorem slot_eq_element {items : List Value} {i : Nat}
    (h : slot node s = .ok (.element items i)) :
    i ≤ items.length ∧ i ≤ maxIndex ∧ (node = .list items ∨ items = []) := by
  cases node with
  | map _ => cases h
  | list vs =>
      obtain h | ⟨j, h, hj, hindex⟩ := slot_list_eq_ok h <;> cases h
      exact ⟨hj, (exists_readInt?_of_index? hindex).2, .inl rfl⟩
  | scalar _ | pair _ _ | set _ | loop _ =>
      rw [slot] at h
      · split at h <;> cases h
        exact ⟨Nat.le_refl 0, Nat.zero_le _, .inr rfl⟩
      · simp
      · simp

/-- A segment that leads to a place reads what is put there, and read what was there. -/
theorem partAt_put_of_takes (h : slot node s = .ok place) (hr : place.Takes r) :
    (∀ c, partAt (place.put c) r = some c) ∧ ∀ x, place.get? = some x → partAt node r = some x := by
  cases place with
  | field es key =>
      obtain rfl : r = key := hr
      refine ⟨fun c => Entries.get?_insert_self _ c es, fun x hx => partAt_of_get? ?_⟩
      rw [slot_eq_field h]
      exact hx
  | element items i =>
      have hindex : index? r = .ok (some i) := hr
      obtain ⟨hle, -, hnode⟩ := slot_eq_element h
      -- A position is in the list, or is the next one after its end.
      constructor
      · intro c
        rw [Slot.put, partAt, hindex]
        dsimp only
        split
        · rename_i hlt
          exact List.getElem?_set_self hlt
        · obtain rfl : i = items.length := by omega
          exact List.getElem?_concat_length
      · intro x hx
        obtain rfl | rfl := hnode
        · rw [partAt, hindex]
          exact hx
        · cases hx

/-- Any other segment reads what it read before, or nothing. -/
theorem partAt_put_of_not_takes (h : slot node s = .ok place) (hr : ¬ place.Takes r) {c x : Value}
    (hx : partAt (place.put c) r = some x) : partAt node r = some x := by
  cases place with
  | field es key =>
      have hne : (Scalar.str key == Scalar.str r) = false := by
        simpa using fun heq => hr heq.symm
      rw [Slot.put, partAt, Entries.get?_insert, hne] at hx
      exact partAt_of_get? (slot_eq_field h ▸ hx)
  | element items i =>
      obtain ⟨hle, hmax, hnode⟩ := slot_eq_element h
      -- Every position but the one that is written to has what it had.
      have hother : ∀ j : Nat, j ≠ i → (if i < items.length then items.set i c else items ++ [c])[j]?
          = some x → items[j]? = some x := by
        intro j hj hx
        split at hx
        · rwa [List.getElem?_set_ne (Ne.symm hj)] at hx
        · obtain ⟨hlt, -⟩ := List.getElem?_eq_some_iff.mp hx
          rw [List.length_append, List.length_singleton] at hlt
          rwa [List.getElem?_append_left (by omega)] at hx
      have hlist : ∀ j : Nat, items[j]? = some x → node = .list items := by
        intro j hj
        obtain rfl | rfl := hnode
        · rfl
        · cases hj
      rw [Slot.put, partAt] at hx
      split at hx
      · rename_i j hindex
        have hj := hother j (fun heq => hr (heq ▸ hindex)) hx
        rw [hlist j hj, partAt, hindex]
        exact hj
      · obtain ⟨j, rfl, hj⟩ := exists_of_get?_numbered hx
        rw [Nat.zero_add] at hr ⊢
        have hget := hother j (fun heq => hr (by rw [heq]; exact index?_natText hmax)) hj
        rw [hlist j hget]
        apply partAt_of_get?
        have hnumbered := get?_numbered 0 j items
        rw [Nat.zero_add] at hnumbered
        exact hnumbered.trans hget

end

/-- Written values that are the same, or examples that differ by draws, are alike. -/
theorem alike_of_same_or_drawn {D : Scalar → Scalar → Prop} {a b : Value} {P : Prop}
    (h : a = b ∨ ExamplesAlike D a b ∧ P) : Alike D D .sample a b := by
  obtain rfl | ⟨h, -⟩ := h
  · exact .refl .sample a
  · exact h.alike

/-- Parts that are there in both values, and were there before, go on as they did. -/
theorem bind_eq_bind_of_rel {α β : Type} {R : α → α → Prop} {o o' p p' : Option α}
    {f : α → Option β} (h : Option.Rel R o o') (ho : ∀ x, o = some x → p = some x)
    (ho' : ∀ x, o' = some x → p' = some x) (hp : p.bind f = p'.bind f) : o.bind f = o'.bind f := by
  cases h with
  | none => rfl
  | some _ =>
      rw [ho _ rfl, ho' _ rfl] at hp
      exact hp

/-- Two runs put alike children at a place, in trees that are alike. A segment that leads to
another place reads on as before, in both. -/
theorem bind_partAt_put_of_not_takes {D : Scalar → Scalar → Prop} {β : Type} {node node' : Value}
    {s r : Text} {place place' : Slot} {child child' : Value} {f : Value → Option β}
    (hplace : slot node s = .ok place) (hplace' : slot node' s = .ok place')
    (hslots : Slot.Alike D D place place') (hchildren : Alike D D .sample child child')
    (hr : ¬ place.Takes r) (hread : (partAt node r).bind f = (partAt node' r).bind f) :
    (partAt (place.put child) r).bind f = (partAt (place'.put child') r).bind f := by
  have hr' := fun h => hr ((hslots.takes_iff r).mpr h)
  exact bind_eq_bind_of_rel (partAt_alike (hslots.put hchildren) r)
    (fun _ hx => partAt_put_of_not_takes hplace hr hx)
    (fun _ hy => partAt_put_of_not_takes hplace' hr' hy) hread

/-- Two runs write into trees that have the same at a path, and the values that they write are
the same, or none of them is written to this path or below it. Then the trees that they leave
have the same at the path. -/
theorem readAt_setAt {D : Scalar → Scalar → Prop} {a b v w v' w' : Value} {above path : List Text}
    (hvw : Alike D D .sample v w)
    (hab : a = b ∨ ExamplesAlike D a b ∧ ¬ Meets above path)
    (hread : readAt v above = readAt w above) (hv : setAt a v path = .ok v')
    (hw : setAt b w path = .ok w') : readAt v' above = readAt w' above := by
  -- The induction follows the path of the write, and the path that is read along with it.
  induction path generalizing above v w v' w' with
  | nil =>
      cases hv
      cases hw
      obtain rfl | ⟨hexamples, hmeets⟩ := hab
      · rfl
      cases above with
      | nil => exact absurd (meets_nil []) hmeets
      | cons r rest =>
          -- A value that is drawn is a scalar, which has no parts.
          cases hexamples <;> rfl
  | cons s path ih =>
      cases above with
      | nil =>
          obtain rfl | ⟨-, hmeets⟩ := hab
          · rw [Option.some.inj hread, hw] at hv
            rw [Except.ok.inj hv]
          · exact absurd (meets_nil _) hmeets
      | cons r above =>
          obtain ⟨place, child, hplace, hchild, rfl⟩ := setAt_cons_eq_ok hv
          obtain ⟨place', child', hplace', hchild', rfl⟩ := setAt_cons_eq_ok hw
          have hslots := agree_slot hvw s
          rw [hplace, hplace'] at hslots
          obtain ⟨hslots⟩ := hslots
          rw [readAt] at hread ⊢
          rw [readAt] at hread ⊢
          by_cases htakes : place.Takes r
          · -- The path goes through what is written, and the question is about the child.
            obtain ⟨hput, hget⟩ := partAt_put_of_takes hplace htakes
            obtain ⟨hput', hget'⟩ := partAt_put_of_takes hplace' ((hslots.takes_iff r).mp htakes)
            rw [hput, hput']
            refine ih hslots.getD (hab.imp_right fun h => ⟨h.1, fun hmeets =>
              h.2 (meets_cons (htakes.sameSegment hplace) hmeets)⟩) ?_ hchild hchild'
            have hinner := hslots.get?
            generalize place.get? = o, place'.get? = o' at hinner hget hget'
            cases hinner with
            | none => rfl
            | some _ =>
                rw [hget _ rfl, hget' _ rfl] at hread
                exact hread
          · -- The path leads past what is written.
            have hagree := agree_setAt (alike_of_same_or_drawn hab) hslots.getD path
            rw [hchild, hchild'] at hagree
            obtain ⟨hchildren⟩ := hagree
            exact bind_partAt_put_of_not_takes hplace hplace' hslots hchildren htakes hread

/-! ### Whole trees -/

section
variable {D : Scalar → Scalar → Prop} {R : Text → Value → Value → Prop}
  {flat flat' : List (Text × Value)} {v w : Value}

/-- Trees of values under paths have the same at a path, if the values are the same, or none of
them stands at this path or below it. -/
theorem readAt_ofFlat {above : List Text}
    (h : Entries.Matched (fun path a b =>
      a = b ∨ ExamplesAlike D a b ∧ ¬ Meets above (keysOf path)) flat flat')
    (hv : ofFlat separator flat = .ok v) (hw : ofFlat separator flat' = .ok w) :
    readAt v above = readAt w above := by
  -- What all writes preserve: trees that are alike, with the same at the path.
  have hagree : Agree (fun v w => Alike D D .sample v w ∧ IsTree v ∧ readAt v above = readAt w above)
      (ofFlat separator flat) (ofFlat separator flat') := by
    rw [ofFlat, ofFlat, ← root_congr h]
    cases hroot : root separator flat with
    | error f => exact .error f
    | ok tree =>
        refine Agree.foldlM ?_ h ⟨.refl .sample tree, isTree_root hroot, rfl⟩
        rintro v w ⟨path, a⟩ ⟨_, b⟩ ⟨hvw, htree, hread⟩ ⟨rfl, hab⟩
        refine (agree_setAtPath (alike_of_same_or_drawn hab) hvw htree separator
          path).with_results.mono ?_
        rintro v' w' ⟨⟨hvw', htree'⟩, hv, hw⟩
        -- The other tree is of the same form.
        have hother : IsTree w := by
          obtain ⟨es, rfl⟩ | ⟨vs, rfl⟩ := htree <;> cases hvw
          · exact .inl ⟨_, rfl⟩
          · exact .inr ⟨_, rfl⟩
        rw [setAtPath_of_segments _ htree (segments_separator path)] at hv
        rw [setAtPath_of_segments _ hother (segments_separator path)] at hw
        exact ⟨hvw', htree', readAt_setAt hvw hab hread hv hw⟩
  rw [hv, hw] at hagree
  obtain ⟨-, -, hread⟩ := hagree
  exact hread

/-- The places of writes spell their paths. -/
theorem placements_spelt {tree : Value} {placed : List (List Text × Value)}
    (h : placements separator tree flat = .ok placed) :
    List.Forall₂ (fun e w => List.Forall₂ SameSegment (keysOf e.1) w.1 ∧ w.2 = e.2) flat placed := by
  induction flat generalizing tree placed with
  | nil =>
      cases h
      exact .nil
  | cons e flat ih =>
      obtain ⟨keys, hkeys, h⟩ := exists_of_bind_eq_ok h
      obtain ⟨next, -, h⟩ := exists_of_bind_eq_ok h
      obtain ⟨others, hothers, h⟩ := exists_of_bind_eq_ok h
      cases h
      cases hkeys
      exact .cons ⟨sameSegment_placeOf tree _, rfl⟩ (ih hothers)

/-- Later writes do the same to a value, if those that go into it write the same. -/
theorem settle_congr {later later' : List (List Text × Value)} {place : List Text}
    (h : Entries.Matched (fun target a b => place <+: target → a = b) later later') (v : Value) :
    settle later place v = settle later' place v := by
  induction later generalizing later' place v with
  | nil =>
      cases h
      rfl
  | cons e later ih =>
      cases h with
      | @cons _ f _ later' hef hrest =>
          obtain ⟨target, a⟩ := e
          obtain ⟨_, b⟩ := f
          obtain ⟨rfl, hab⟩ := hef
          rw [settle, settle]
          -- A later write to the place itself replaces the value in both.
          split
          · rfl
          split
          · exact ih hrest v
          rename_i hprefix
          obtain rfl : a = b := hab (by simpa using hprefix)
          have hdeeper : ∀ position, Entries.Matched
              (fun target a b => place ++ [position] <+: target → a = b) later later' := by
            intro position
            refine hrest.imp fun _ _ hef => ⟨hef.1, fun hposition => hef.2 ?_⟩
            exact (List.prefix_append place [position]).trans hposition
          -- Only lists and mappings are written into, and a list may have to become a mapping.
          dsimp only
          split
          · refine congrArg Value.list (List.map_congr_left fun e _ => ?_)
            split
            · exact ih (hdeeper _) _
            · rfl
          · exact ih hrest _
          · exact ih hrest _
          · rfl

end

end PathTree

end RouteDocs
