import RouteDocs.Proofs.Alike
import RouteDocs.Proofs.Coupling
import RouteDocs.Proofs.PathTree

/-!
# `RouteDocs.Proofs.AlikeTree`: trees put together from values that are alike

A tree is put together by writing values at paths. Which places the paths lead to depends
on the tree so far: a list takes positions, a mapping takes names, and anything else makes
way for a new container. A drawn value is always of the last kind, whatever was drawn, so
writes to trees that are alike go to the same places and leave trees that are alike.

`agree_setAt` is the step and `agree_ofFlat` is the run. `settle_alike` says the same of
what later writes do to a value that was put into the tree before them.
-/

set_option autoImplicit false

namespace RouteDocs.PathTree

open Text Number

variable {D G : Scalar → Scalar → Prop}

/-- Two places in containers that are alike. -/
inductive Slot.Alike (D G : Scalar → Scalar → Prop) : Slot → Slot → Prop where
  | field {es fs : List (Scalar × Value)} (key : Text)
      (h : Entries.Matched (fun _ => RouteDocs.Alike D G .sample) es fs) :
      Slot.Alike D G (.field es key) (.field fs key)
  | element {vs ws : List Value} (index : Nat)
      (h : List.Forall₂ (RouteDocs.Alike D G .sample) vs ws) :
      Slot.Alike D G (.element vs index) (.element ws index)

/-- In an example every key leads to a place of the example. -/
theorem matched_sample_iff {es fs : List (Scalar × Value)} :
    Alike D G .sample (.map es) (.map fs)
      ↔ Entries.Matched (fun _ => Alike D G .sample) es fs :=
  Alike.map_iff

/-- The items of lists that are alike, under their positions from a start on, as a list becomes
a mapping. -/
theorem numbered_matched {vs ws : List Value} (h : List.Forall₂ (Alike D G .sample) vs ws)
    (start : Nat) :
    Entries.Matched (fun _ => Alike D G .sample) (numbered start vs) (numbered start ws) := by
  induction h generalizing start with
  | nil => exact .nil
  | cons h _ ih => exact .cons ⟨rfl, h⟩ (ih (start + 1))

/-- The elements of two lists at one position. -/
theorem rel_getElem? {α β : Type} {R : α → β → Prop} {vs : List α} {ws : List β}
    (h : List.Forall₂ R vs ws) (i : Nat) : Option.Rel R vs[i]? ws[i]? := by
  induction h generalizing i with
  | nil => exact .none
  | cons h _ ih =>
      cases i with
      | zero => exact .some h
      | succ i => exact ih i

/-- Two lists after related values were put at one position. -/
theorem forall₂_set {α β : Type} {R : α → β → Prop} {vs : List α} {ws : List β}
    (h : List.Forall₂ R vs ws) (i : Nat) {a : α} {b : β} (hab : R a b) :
    List.Forall₂ R (vs.set i a) (ws.set i b) := by
  induction h generalizing i with
  | nil => exact .nil
  | cons h htail ih =>
      cases i with
      | zero => exact .cons hab htail
      | succ i => exact .cons h (ih i)

/-- Containers that are alike have like places under one segment. -/
theorem agree_slot {v w : Value} (h : Alike D G .sample v w) (segment : Text) :
    Agree (Slot.Alike D G) (slot v segment) (slot w segment) := by
  cases h with
  | map h => exact .ok (.field segment (matched_sample_iff.mp (.map h)))
  | list h =>
      rename_i vs ws
      have hitems := Alike.list_iff.mp (Alike.list h)
      rw [slot, slot]
      refine (Agree.same (index? segment)).bind ?_
      rintro i _ rfl
      cases i with
      | none => exact .ok (.field segment (numbered_matched hitems 0))
      | some i =>
          -- Whether the position fits depends on the length alone.
          dsimp only
          rw [hitems.length_eq]
          split
          · exact .ok (.element i hitems)
          · exact .ok (.field segment (numbered_matched hitems 0))
  | scalar h =>
      -- A scalar makes way for a new container, whatever scalar it is.
      rw [slot, slot]
      · split
        · exact .ok (.element 0 .nil)
        · exact .ok (.field segment .nil)
      all_goals simp
  | _ => exact .refl (fun place => by
      cases place with
      | field es key => exact .field key (matched_sample_iff.mp (.refl .sample _))
      | element vs i => exact .element i (Alike.list_iff.mp (.refl .sample _))) _

/-- Places that are alike hold values that are alike, or both hold nothing. -/
theorem Slot.Alike.get? {place place' : Slot} (h : Slot.Alike D G place place') :
    Option.Rel (RouteDocs.Alike D G .sample) place.get? place'.get? := by
  cases h with
  | field key h => exact h.get? (Entries.respects_const _) (.str key)
  | element i h => exact rel_getElem? h i

/-- What two places hold, or nothing. -/
theorem Slot.Alike.getD {place place' : Slot} (h : Slot.Alike D G place place') :
    RouteDocs.Alike D G .sample (place.get?.getD .null) (place'.get?.getD .null) :=
  Entries.getD_of_rel h.get? (.refl .sample _)

/-- Values that are alike, put into places that are alike, leave containers that are alike. -/
theorem Slot.Alike.put {place place' : Slot} (h : Slot.Alike D G place place') {v w : Value}
    (hvw : RouteDocs.Alike D G .sample v w) :
    RouteDocs.Alike D G .sample (place.put v) (place'.put w) := by
  cases h with
  | field key h =>
      exact matched_sample_iff.mpr (h.insert (Entries.respects_const _) hvw)
  | element i h =>
      rw [Slot.put, Slot.put, Alike.list_iff, h.length_eq]
      split
      · exact forall₂_set h i hvw
      · exact List.rel_append h (.cons hvw .nil)

/-- Writes of values that are alike, at the same segments of values that are alike. -/
theorem agree_setAt {a b v w : Value} (hnew : Alike D G .sample a b) (h : Alike D G .sample v w)
    (keys : List Text) : Agree (Alike D G .sample) (setAt a v keys) (setAt b w keys) := by
  induction keys generalizing v w with
  | nil => exact .ok hnew
  | cons segment rest ih =>
      rw [setAt, setAt]
      -- The same place, the same write below it, and the containers around it are alike again.
      refine (agree_slot h segment).bind fun place place' hplace => ?_
      exact (ih hplace.getD).bind fun child child' hchild => .ok (hplace.put hchild)

/-! ### Paths -/

/-- Writes at one path of trees that are alike. What they leave are trees again. -/
theorem agree_setAtPath {a b v w : Value} (hnew : Alike D G .sample a b)
    (h : Alike D G .sample v w) (htree : IsTree v) (separator path : Text) :
    Agree (fun v w => Alike D G .sample v w ∧ IsTree v)
      (setAtPath separator v path a) (setAtPath separator w path b) := by
  have hset : ∀ keys, segments separator path = .ok keys →
      Agree (fun v w => Alike D G .sample v w ∧ IsTree v) (setAt a v keys) (setAt b w keys) := by
    intro keys hkeys
    obtain ⟨segment, rest, rfl⟩ := exists_cons_of_segments hkeys
    exact (agree_setAt hnew h _).with_left fun tree htree => isTree_setAt htree
  rw [setAtPath, setAtPath]
  cases hkeys : segments separator path with
  | error f => exact .error f
  | ok keys =>
      obtain ⟨es, rfl⟩ | ⟨vs, rfl⟩ := htree <;> cases h <;> exact hset keys hkeys

/-- A tree starts from what the first path says, and the values have no part in that. -/
theorem root_congr {R : Text → Value → Value → Prop} {flat flat' : List (Text × Value)}
    (h : Entries.Matched R flat flat') {separator : Text} :
    root separator flat = root separator flat' := by
  cases h with
  | nil => rfl
  | cons hef =>
      rw [root, root, List.head?_cons, List.head?_cons, Option.map_some, Option.map_some, hef.1]

/-- A tree starts as an empty container, whichever the first path asks for. -/
theorem isTree_root {separator : Text} {flat : List (Text × Value)} {tree : Value}
    (h : root separator flat = .ok tree) : IsTree tree := by
  rw [root] at h
  cases hkeys : segments separator ((flat.head?.map (·.1)).getD []) with
  | error f => simp [hkeys, bind, Except.bind] at h
  | ok keys =>
      simp only [hkeys, bind, Except.bind, Except.ok.injEq] at h
      subst h
      split
      · exact .inr ⟨_, rfl⟩
      · exact .inl ⟨_, rfl⟩

/-- The tree of values under paths depends on the values as little as they differ. -/
theorem agree_ofFlat {flat flat' : List (Text × Value)}
    (h : Entries.Matched (fun _ => Alike D G .sample) flat flat') (separator : Text) :
    Agree (Alike D G .sample) (ofFlat separator flat) (ofFlat separator flat') := by
  rw [ofFlat, ofFlat, ← root_congr h]
  cases hroot : root separator flat with
  | error f => exact .error f
  | ok tree =>
      refine (Agree.foldlM (S := fun v w => Alike D G .sample v w ∧ IsTree v) ?_ h
        ⟨.refl .sample tree, isTree_root hroot⟩).mono fun _ _ h => h.1
      -- Trees stay trees, so every write goes to a mapping or a list.
      rintro v w e f ⟨hvw, hv⟩ ⟨hpath, hvalue⟩
      rw [← hpath]
      exact agree_setAtPath hvalue hvw hv separator e.1

/-! ### What later writes do to a value -/

/-- Trees that are alike have one place for a list of segments. -/
theorem placeOf_eq {v w : Value} (h : Alike D G .sample v w) (keys : List Text) :
    placeOf v keys = placeOf w keys := by
  induction keys generalizing v w with
  | nil => rfl
  | cons segment rest ih =>
      have hslot := agree_slot h segment
      rw [placeOf, placeOf]
      generalize slot v segment = x, slot w segment = y at hslot
      cases hslot with
      | error f => rfl
      | ok hplace =>
          cases hplace with
          | field key hm => exact congrArg _ (ih (Slot.Alike.getD (.field key hm)))
          | element i hm => exact congrArg _ (ih (Slot.Alike.getD (.element i hm)))

/-- The places that a row of writes goes to, one after the other, with what they write. Each is
looked up in the tree that the writes before it left. -/
theorem agree_placements {flat flat' : List (Text × Value)}
    (h : Entries.Matched (fun _ => Alike D G .sample) flat flat') {v w : Value}
    (hvw : Alike D G .sample v w) (hv : IsTree v) (separator : Text) :
    Agree (Entries.Matched fun _ => Alike D G .sample)
      (placements separator v flat) (placements separator w flat') := by
  induction h generalizing v w with
  | nil => exact .ok .nil
  -- The trees change from write to write, so the induction is over all pairs that are alike.
  | @cons e f flat flat' hef _ ih =>
      obtain ⟨path, a⟩ := e
      obtain ⟨path', b⟩ := f
      obtain ⟨rfl, hab⟩ := hef
      rw [placements, placements]
      cases segments separator path with
      | error f => exact .error f
      | ok keys =>
          refine (agree_setAtPath hab hvw hv separator path).bind fun next next' hnext => ?_
          refine (ih hnext.1 hnext.2).bind fun rest rest' hrest => ?_
          exact .ok (.cons ⟨placeOf_eq hvw keys, hab⟩ hrest)

/-- Later writes do to values that are alike what is alike. -/
theorem settle_alike {later later' : List (List Text × Value)}
    (hlater : Entries.Matched (fun _ => Alike D G .sample) later later') (place : List Text)
    {v w : Value} (h : Alike D G .sample v w) :
    Alike D G .sample (settle later place v) (settle later' place w) := by
  induction hlater generalizing place v w with
  | nil => exact h
  | @cons e f later later' hef _ ih =>
      obtain ⟨target, a⟩ := e
      obtain ⟨target', b⟩ := f
      obtain ⟨rfl, hab⟩ := hef
      rw [settle, settle]
      split
      · exact h
      split
      · exact ih place h
      dsimp only
      have hset := (agree_setAt hab h (target.drop place.length)).getD h
      have hslot := agree_slot h ((target.drop place.length).headD [])
      -- Only lists and mappings are written into, and a list may have to become a mapping.
      cases h with
      | @list _ vs ws hitems =>
          generalize slot (.list vs) _ = x, slot (.list ws) _ = y at hslot
          cases hslot with
          | error f => exact .list hitems
          | ok hplace =>
              cases hplace with
              | element i hm => exact ih place hset
              | field key hm =>
                  have hparts := numbered_matched (Alike.list_iff.mp (.list hitems)) 0
                  refine Alike.list_iff.mpr (List.rel_map ?_ hparts)
                  rintro ⟨k, v⟩ ⟨l, w⟩ ⟨rfl, hvw⟩
                  cases k with
                  | str position => exact ih _ hvw
                  | _ => exact hvw
      | map hentries => exact ih place hset
      | scalar h => exact .scalar h
      | pair => exact .pair _ _ _
      | set => exact .set _ _
      | loop => exact .loop _ _

end RouteDocs.PathTree
