import Mathlib.Algebra.Order.BigOperators.Group.List
import RouteDocs.Proofs.TreePaths

/-!
# `RouteDocs.Proofs.PathMaps`: path maps and the trees they make

A path map gives leaves under paths. `PathTree.ofFlat` makes a tree of it, and
`PathTree.flatten` lists the leaves of the tree. The map comes back, in whatever order it
was given, if no path leads through another and no position of a list is misspelt.

The second condition is there because a list forgets how its positions were written. Where
the names below a path are so far `0`, `1`, … in this order, the tree has a list, and the
next name is read as a number: `01` and `٠` are positions too, and come back as `1` and
`0`, while `²` is refused. `Misread` is that condition on the map alone, without the tree,
and `flatten_ofFlat_iff` says that it is exact: the map comes back if and only if none of
its paths is misread after those before it.

Three facts about one write carry the proof, each by induction on the segments.

* `keepsRest_setAt`: the leaves after a write are the written one, at the place that
  the tree has for it, and some of those before; all of them if none is in its way.
* `misspellings_placeOf`: the place of a write has fewer misspelt numbers than its path,
  unless it is the path. Their number can only fall along the writes, so a map with a
  misread path does not come back.
* `Shaped.setAt`: which containers of the tree are lists is known from the paths written
  so far, so a path that is not misread is its own place.
-/

set_option autoImplicit false

namespace RouteDocs.PathTree

open Text Number Synthesis

/-! ### Containers as entries under names -/

/-- The parts of a value under their names. The elements of a list are under their
positions. -/
def parts : Value → List (Scalar × Value)
  | .map es => es
  | .list items => numbered 0 items
  | _ => []

/-- The leaves of a container that is not empty are those below its entries. -/
theorem leafPaths_of_parts_ne_nil {v : Value} (h : parts v ≠ []) :
    leafPaths v = entryPaths (parts v) := by
  match v with
  | .map (e :: es) => rw [leafPaths]; rfl
  | .list (v :: vs) => rw [leafPaths, itemPaths_eq]; rfl
  | .map [] | .list [] | .scalar _ | .pair _ _ | .set _ | .loop _ => exact absurd rfl h

/-- A value without parts is a leaf itself, at the empty path. An empty container is one too. -/
theorem leafPaths_of_parts_eq_nil {v : Value} (h : parts v = []) : leafPaths v = [([], v)] := by
  match v with
  | .map (e :: es) => exact nomatch h
  | .list (v :: vs) => exact nomatch h
  | .map [] | .list [] | .scalar _ | .pair _ _ | .set _ | .loop _ => simp [leafPaths]

/-- A leaf below a name of a container. -/
theorem mem_entryPaths_of_get? {es : List (Scalar × Value)} {key : Text} {v : Value}
    (h : Entries.get? (.str key) es = some v) {w : List Text × Value} (hw : w ∈ leafPaths v) :
    (key :: w.1, w.2) ∈ entryPaths es := by
  induction es with
  | nil => simp at h
  | cons e es ih =>
      rw [Entries.get?_cons] at h
      rw [entryPaths, List.mem_append]
      split at h
      · rename_i hkey
        rw [Scalar.beq_str_iff] at hkey
        cases h
        rw [hkey, nameOf_str]
        exact .inl (List.mem_map_of_mem hw)
      · exact .inr (ih h)

/-- A write under a name changes the leaves below this name and no others. They stand where
the old ones stood, and at the end if there were none. -/
theorem exists_entryPaths_insert (key : Text) (es : List (Scalar × Value)) :
    ∃ before after, (∀ v, entryPaths (Entries.insert (.str key) v es)
        = before ++ under key (leafPaths v) ++ after) ∧
      entryPaths es = before
        ++ ((Entries.get? (.str key) es).elim [] fun v => under key (leafPaths v)) ++ after := by
  induction es with
  | nil => exact ⟨[], [], fun v => by simp [Entries.insert, entryPaths], by simp [entryPaths]⟩
  | cons e es ih =>
      by_cases hkey : (e.1 == Scalar.str key) = true
      · refine ⟨[], entryPaths es, fun v => ?_, ?_⟩
        · rw [Entries.insert_cons, if_pos hkey, entryPaths, (Scalar.beq_str_iff _ _).mp hkey]
          rfl
        · rw [Entries.get?_cons, if_pos hkey, entryPaths, (Scalar.beq_str_iff _ _).mp hkey]
          rfl
      · obtain ⟨before, after, hinsert, hget⟩ := ih
        refine ⟨under (nameOf e.1) (leafPaths e.2) ++ before, after, fun v => ?_, ?_⟩
        · rw [Entries.insert_cons, if_neg hkey, entryPaths, hinsert]
          simp only [List.append_assoc]
        · rw [Entries.get?_cons, if_neg hkey, entryPaths, hget]
          simp only [List.append_assoc]

/-- The positions of a second list go on where those of the first end. -/
theorem numbered_append (start : Nat) (vs us : List Value) :
    numbered start (vs ++ us) = numbered start vs ++ numbered (start + vs.length) us := by
  induction vs generalizing start with
  | nil => rfl
  | cons v vs ih =>
      rw [List.cons_append, numbered, numbered, ih, List.length_cons, List.cons_append]
      congr 3
      omega

/-- The names of the items of a list are the numerals from the start on. -/
theorem map_fst_numbered (start : Nat) (vs : List Value) :
    (numbered start vs).map Prod.fst
      = ((List.range' start vs.length).map natText).map Scalar.str := by
  induction vs generalizing start with
  | nil => rfl
  | cons v vs ih => rw [numbered, List.map_cons, ih, List.length_cons, List.range'_succ]; rfl

/-- The element at a position is found under its numeral. -/
theorem get?_numbered (start i : Nat) (vs : List Value) :
    Entries.get? (.str (natText (start + i))) (numbered start vs) = vs[i]? := by
  induction vs generalizing start i with
  | nil => rfl
  | cons v vs ih =>
      rw [numbered, Entries.get?_cons, Scalar.str_beq_str]
      cases i with
      | zero => simp
      | succ i =>
          rw [if_neg (by simp [natText_inj]), List.getElem?_cons_succ, ← ih (start + 1) i]
          congr 3
          omega

/-- Replacing the element at a position is writing under its numeral. -/
theorem numbered_set {start i : Nat} {vs : List Value} (h : i < vs.length) (v : Value) :
    numbered start (vs.set i v) = Entries.insert (.str (natText (start + i))) v (numbered start vs) := by
  induction vs generalizing start i with
  | nil => simp at h
  | cons u vs ih =>
      rw [numbered, Entries.insert_cons, Scalar.str_beq_str]
      cases i with
      | zero => rw [if_pos (by simp), List.set_cons_zero, numbered]
      | succ i =>
          rw [if_neg (by simp [natText_inj]), List.set_cons_succ, numbered,
            ih (by simpa using h)]
          congr 4
          omega

/-! ### One place -/

namespace Slot

/-- The name by which the container has the place. -/
def key : Slot → Text
  | .field _ key => key
  | .element _ index => natText index

end Slot

/-- What a segment addresses in a list, when it is known how the segment is read: a position up to
the next one is an element, and anything else makes a mapping of the list. -/
theorem slot_list_of_index? (items : List Value) {s : Text} {position : Option Nat}
    (h : index? s = .ok position) :
    slot (.list items) s = .ok (position.elim (.field (numbered 0 items) s) fun i =>
      if i ≤ items.length then .element items i else .field (numbered 0 items) s) := by
  rw [slot, h]
  cases position with
  | none => rfl
  | some i =>
      show (if i ≤ items.length then _ else _) = _
      rw [Option.elim_some]
      split <;> rfl

/-- In a list a segment addresses the position that it is read as, or else it makes a mapping
of the list and addresses a key. -/
theorem slot_list_eq_ok {items : List Value} {s : Text} {place : Slot}
    (h : slot (.list items) s = .ok place) :
    place = .field (numbered 0 items) s ∨
      ∃ i, place = .element items i ∧ i ≤ items.length ∧ index? s = .ok (some i) := by
  cases hindex : index? s with
  | error f => simp [slot, hindex, bind, Except.bind] at h
  | ok position =>
      rw [slot_list_of_index? items hindex, Except.ok.injEq] at h
      subst h
      cases position with
      | none => exact .inl rfl
      | some i =>
          rw [Option.elim_some]
          split
          · rename_i hi
            exact .inr ⟨i, rfl, hi, rfl⟩
          · exact .inl rfl

/-- The facts about the place that a segment addresses: what is there is found under the
name of the place, and a value that is put there is written under that name. -/
theorem slot_cases {node : Value} {s : Text} {place : Slot} (h : slot node s = .ok place) :
    place.get? = Entries.get? (.str place.key) (parts node) ∧
      ∀ v, parts (place.put v) = Entries.insert (.str place.key) v (parts node) := by
  -- Where there is no container, a new one is started, and it is empty.
  have hnew : (if s = ("0" : Text) then .ok (.element [] 0) else .ok (.field [] s) :
        Except Fault Slot) = .ok place → parts node = [] →
      place.get? = Entries.get? (.str place.key) (parts node) ∧
        ∀ v, parts (place.put v) = Entries.insert (.str place.key) v (parts node) := by
    intro h hparts
    rw [hparts]
    split at h <;> cases h <;> exact ⟨rfl, fun v => rfl⟩
  cases node with
  | map es =>
      cases h
      exact ⟨rfl, fun v => rfl⟩
  | list items =>
      rcases slot_list_eq_ok h with rfl | ⟨i, rfl, hi, -⟩
      · exact ⟨rfl, fun v => rfl⟩
      · have hget := get?_numbered 0 i items
        rw [Nat.zero_add] at hget
        refine ⟨hget.symm, fun v => ?_⟩
        show numbered 0 (if i < items.length then _ else _) = _
        by_cases hlt : i < items.length
        · rw [if_pos hlt, numbered_set hlt, Nat.zero_add]
          rfl
        · have hlast : i = items.length := by omega
          subst hlast
          rw [List.getElem?_eq_none (Nat.le_refl _)] at hget
          rw [if_neg hlt, numbered_append, Nat.zero_add]
          exact (Entries.insert_eq_append hget v).symm
  | scalar _ => exact hnew h rfl
  | pair _ _ => exact hnew h rfl
  | set _ => exact hnew h rfl
  | loop _ => exact hnew h rfl

/-- A write is a place and a write below it. -/
theorem setAt_cons_eq_ok {value node result : Value} {s : Text} {rest : List Text}
    (h : setAt value node (s :: rest) = .ok result) :
    ∃ place child, slot node s = .ok place ∧
      setAt value (place.get?.getD .null) rest = .ok child ∧ result = place.put child := by
  rw [setAt] at h
  cases hplace : slot node s with
  | error f => simp [hplace, bind, Except.bind] at h
  | ok place =>
      cases hchild : setAt value (place.get?.getD .null) rest with
      | error f => simp [hplace, hchild, bind, Except.bind] at h
      | ok child =>
          simp only [hplace, hchild, bind, Except.bind, Except.ok.injEq] at h
          exact ⟨place, child, rfl, hchild, h.symm⟩

/-- The place of a path is the name of its first place, and the place of the rest below. -/
theorem placeOf_cons {node : Value} {s : Text} {place : Slot} (rest : List Text)
    (h : slot node s = .ok place) :
    placeOf node (s :: rest) = place.key :: placeOf (place.get?.getD .null) rest := by
  rw [placeOf, h]
  cases place <;> rfl

/-- A write leaves entries. -/
theorem insert_ne_nil (key : Scalar) (v : Value) (es : List (Scalar × Value)) :
    Entries.insert key v es ≠ [] := by
  cases es with
  | nil => simp [Entries.insert]
  | cons e es =>
      rw [Entries.insert_cons]
      split <;> simp

/-- A write below a value leaves a container that is not empty. -/
theorem parts_ne_nil_of_setAt {value node result : Value} {segs : List Text} (hne : segs ≠ [])
    (h : setAt value node segs = .ok result) : parts result ≠ [] := by
  obtain ⟨s, rest, rfl⟩ := List.exists_cons_of_ne_nil hne
  obtain ⟨place, child, hplace, -, rfl⟩ := setAt_cons_eq_ok h
  rw [(slot_cases hplace).2]
  exact insert_ne_nil _ _ _

/-! ### What one write does to the leaves -/

/-- Neither of two paths leads through the other. -/
def Apart (p q : List Text) : Prop := ¬ p <+: q ∧ ¬ q <+: p

/-- Whether two paths are apart can be decided. -/
instance (p q : List Text) : Decidable (Apart p q) := inferInstanceAs (Decidable (_ ∧ _))

/-- That neither path leads through the other is said of both of them alike. -/
theorem Apart.symm {p q : List Text} (h : Apart p q) : Apart q p := ⟨h.2, h.1⟩

/-- Behind one and the same segment paths are apart if what follows is. -/
theorem apart_cons_iff {s : Text} {p q : List Text} : Apart (s :: p) (s :: q) ↔ Apart p q := by
  simp [Apart, List.cons_prefix_cons]

/-- Every path leads through the empty one. -/
theorem not_apart_nil_left (q : List Text) : ¬ Apart [] q := fun h => h.1 (List.nil_prefix)

/-- The same with the sides changed. -/
theorem not_apart_nil_right (p : List Text) : ¬ Apart p [] := fun h => h.2 (List.nil_prefix)

/-- A write of a leaf at a path takes the leaves `old` to `new`: the written one and some of the old
ones. All of them are left, if none is in the way of the path or behind it. -/
def KeepsRest (path : List Text) (value : Value) (old new : List (List Text × Value)) : Prop :=
  ∃ kept, kept.Sublist old ∧ new.Perm ((path, value) :: kept) ∧
    ((∀ w ∈ old, Apart w.1 path) → kept = old)

/-- A leaf under a name replaces all that was below the name. -/
theorem keepsRest_insert_leaf {value : Value} (hleaf : IsLeaf value) (key : Text)
    (es : List (Scalar × Value)) :
    KeepsRest [key] value (entryPaths es) (entryPaths (Entries.insert (.str key) value es)) := by
  obtain ⟨before, after, hinsert, hold⟩ := exists_entryPaths_insert key es
  refine ⟨before ++ after, ?_, ?_, fun hapart => ?_⟩
  · rw [hold, List.append_assoc]
    exact (List.Sublist.refl before).append (List.sublist_append_right _ _)
  · rw [hinsert, hleaf.leafPaths_eq, List.append_assoc]
    exact List.perm_middle
  · cases hv : Entries.get? (.str key) es with
    | none =>
        rw [hold, hv]
        simp
    | some v =>
        -- Any leaf below the name is behind the path.
        obtain ⟨w, ws, hws⟩ := List.exists_cons_of_ne_nil (leafPaths_ne_nil v)
        have hmem := mem_entryPaths_of_get? hv (hws ▸ List.mem_cons_self (a := w))
        exact absurd (apart_cons_iff.mp (hapart _ hmem)) (not_apart_nil_right _)

/-- The leaves below a name are those of the parts there, unless a leaf is right at the name. -/
theorem under_leafPaths_cases (key : Text) (found : Option Value) :
    (found.elim [] fun v => under key (leafPaths v))
        = under key (entryPaths (parts (found.getD .null))) ∨
      ∃ v, found = some v ∧ parts v = [] := by
  cases found with
  | none => exact .inl rfl
  | some v =>
      by_cases hparts : parts v = []
      · exact .inr ⟨v, rfl, hparts⟩
      · left
        rw [Option.elim_some, leafPaths_of_parts_ne_nil hparts, Option.getD_some]

/-- A write below a name leaves all leaves alone that are not below the name. -/
theorem KeepsRest.insert {key : Text} {es : List (Scalar × Value)} {path : List Text}
    {value child : Value} (hchild : parts child ≠ [])
    (h : KeepsRest path value (entryPaths (parts ((Entries.get? (.str key) es).getD .null)))
      (entryPaths (parts child))) :
    KeepsRest (key :: path) value (entryPaths es)
      (entryPaths (Entries.insert (.str key) child es)) := by
  obtain ⟨kept, hsub, hperm, hkept⟩ := h
  obtain ⟨before, after, hinsert, hold⟩ := exists_entryPaths_insert key es
  -- In front of the entry and behind it nothing changes.
  have hnew : (entryPaths (Entries.insert (.str key) child es)).Perm
      ((key :: path, value) :: (before ++ under key kept ++ after)) := by
    rw [hinsert, leafPaths_of_parts_ne_nil hchild]
    have hunder := hperm.map fun w : List Text × Value => (key :: w.1, w.2)
    refine ((hunder.append_left before).append_right after).trans ?_
    rw [List.map_cons, List.append_assoc, List.cons_append, List.append_assoc]
    exact List.perm_middle
  obtain hbelow | ⟨v, hv, hparts⟩ := under_leafPaths_cases key (Entries.get? (.str key) es)
  · rw [hold, hbelow]
    refine ⟨_, ?_, hnew, fun hapart => ?_⟩
    · exact ((List.Sublist.refl before).append (hsub.map _)).append (List.Sublist.refl after)
    · rw [hkept fun w hw => apart_cons_iff.mp (hapart (key :: w.1, w.2) ?_)]
      exact List.mem_append_left _ (List.mem_append_right _ (List.mem_map_of_mem hw))
  · -- A leaf right at the name is in the way, and nothing is kept below the name.
    rw [hv, Option.getD_some, hparts] at hsub
    rw [hold, hv, Option.elim_some, leafPaths_of_parts_eq_nil hparts]
    refine ⟨_, ?_, hnew, fun hapart => ?_⟩
    · rw [List.sublist_nil.mp hsub]
      exact ((List.Sublist.refl before).append (List.nil_sublist _)).append (List.Sublist.refl after)
    · have hmem : ([key], v) ∈ before ++ under key [([], v)] ++ after :=
        List.mem_append_left _ (List.mem_append_right _ (List.mem_singleton.mpr rfl))
      exact absurd (apart_cons_iff.mp (hapart _ hmem)) (not_apart_nil_left _)

/-- After a write the leaves are the written one at its place, and some of those that were
there. All of them are, if none is in the way of the place or behind it. -/
theorem keepsRest_setAt {value : Value} (hleaf : IsLeaf value) {segs : List Text}
    (hne : segs ≠ []) {node result : Value} (h : setAt value node segs = .ok result) :
    KeepsRest (placeOf node segs) value (entryPaths (parts node)) (entryPaths (parts result)) := by
  induction segs generalizing node result with
  | nil => exact absurd rfl hne
  | cons s rest ih =>
      obtain ⟨place, child, hplace, hchild, rfl⟩ := setAt_cons_eq_ok h
      obtain ⟨hget, hput⟩ := slot_cases hplace
      rw [hput, placeOf_cons rest hplace]
      by_cases hrest : rest = []
      · subst hrest
        cases hchild
        exact keepsRest_insert_leaf hleaf place.key (parts node)
      · have hbelow := ih hrest hchild
        rw [hget] at hbelow ⊢
        exact hbelow.insert (parts_ne_nil_of_setAt hrest hchild)

/-! ### Misspelt numbers -/

/-- One for a number that is not written as its numeral, and nothing for any other text. -/
def misspelling (s : Text) : Nat :=
  match readInt? s with
  | some i => if s = natText i.toNat then 0 else 1
  | none => 0

/-- How many segments of a path are misspelt numbers. -/
def misspellings (segs : List Text) : Nat := (segs.map misspelling).sum

/-- The misspelt numbers of a path, the first segment and the others. -/
theorem misspellings_cons (s : Text) (rest : List Text) :
    misspellings (s :: rest) = misspelling s + misspellings rest := by
  simp [misspellings]

/-- A segment that addresses a position is a number, and the position is not beyond the last
that can be addressed. -/
theorem exists_readInt?_of_index? {s : Text} {i : Nat} (h : index? s = .ok (some i)) :
    (∃ n : Int, readInt? s = some n ∧ n.toNat = i) ∧ i ≤ maxIndex := by
  rw [index?] at h
  split at h
  · cases hread : readInt? s with
    | none => simp [hread] at h
    | some n =>
        simp only [hread, Except.ok.injEq] at h
        split at h
        · rename_i hle
          cases h
          exact ⟨⟨n, rfl, rfl⟩, hle⟩
        · cases h
  · cases h

/-- A numeral is not misspelt. The bound keeps it short enough to be read as a number at all. -/
theorem misspelling_natText {i : Nat} (h : i ≤ maxIndex) : misspelling (natText i) = 0 := by
  obtain ⟨⟨n, hread, hn⟩, -⟩ := exists_readInt?_of_index? (index?_natText h)
  simp [misspelling, hread, hn]

/-- The name of a place is the segment that addresses it, or the numeral of a position that
the segment misspells. -/
theorem key_eq_or_misspelt {node : Value} {s : Text} {place : Slot}
    (h : slot node s = .ok place) :
    place.key = s ∨ ∃ i ≤ maxIndex, place.key = natText i ∧ misspelling s = 1 := by
  cases node with
  | map es =>
      cases h
      exact .inl rfl
  | list items =>
      rcases slot_list_eq_ok h with rfl | ⟨i, rfl, -, hindex⟩
      · exact .inl rfl
      · obtain ⟨⟨n, hread, hn⟩, hmax⟩ := exists_readInt?_of_index? hindex
        by_cases hs : s = natText i
        · exact .inl hs.symm
        · exact .inr ⟨i, hmax, rfl, by simp [misspelling, hread, hn, hs]⟩
  | scalar _ | pair _ _ | set _ | loop _ =>
      -- What is no container becomes one, a list if the segment is `0`.
      rw [slot] at h
      · split at h
        · rename_i hs
          cases h
          exact .inl hs.symm
        · cases h
          exact .inl rfl
      · simp
      · simp

/-- The place of a write has fewer misspelt numbers than its path, unless it is the path. -/
theorem misspellings_placeOf {value node result : Value} {segs : List Text}
    (h : setAt value node segs = .ok result) :
    placeOf node segs = segs ∨ misspellings (placeOf node segs) < misspellings segs := by
  induction segs generalizing node result with
  | nil => exact .inl (by simp [placeOf])
  | cons s rest ih =>
      obtain ⟨place, child, hplace, hchild, rfl⟩ := setAt_cons_eq_ok h
      rw [placeOf_cons rest hplace, misspellings_cons, misspellings_cons]
      rcases key_eq_or_misspelt hplace with hkey | ⟨i, hmax, hkey, hs⟩
      · rcases ih hchild with hrest | hrest
        · exact .inl (by rw [hkey, hrest])
        · exact .inr (by rw [hkey]; omega)
      · have hkey := hkey ▸ misspelling_natText hmax
        rcases ih hchild with hrest | hrest
        · exact .inr (by rw [hrest]; omega)
        · exact .inr (by omega)

/-- The misspelt numbers in the paths of a list of leaves. -/
def weight (ws : List (List Text × Value)) : Nat := (ws.map fun w => misspellings w.1).sum

/-- The misspelt numbers of leaves, the first and the others. -/
theorem weight_cons (w : List Text × Value) (ws : List (List Text × Value)) :
    weight (w :: ws) = misspellings w.1 + weight ws := by
  simp [weight]

/-- Fewer leaves have no more misspelt numbers. -/
theorem weight_le_of_sublist {ws us : List (List Text × Value)} (h : ws.Sublist us) :
    weight ws ≤ weight us :=
  (h.map _).sum_le_sum fun _ _ => Nat.zero_le _

/-- One write adds no more misspelt numbers than its path has, and fewer if its place is not
its path. -/
theorem weight_setAt {value : Value} (hleaf : IsLeaf value) {segs : List Text} (hne : segs ≠ [])
    {node result : Value} (h : setAt value node segs = .ok result) :
    weight (entryPaths (parts result)) ≤ misspellings segs + weight (entryPaths (parts node)) ∧
      (placeOf node segs ≠ segs →
        weight (entryPaths (parts result)) < misspellings segs + weight (entryPaths (parts node))) := by
  obtain ⟨kept, hsub, hperm, -⟩ := keepsRest_setAt hleaf hne h
  have hkept := weight_le_of_sublist hsub
  have hresult : weight (entryPaths (parts result))
      = misspellings (placeOf node segs) + weight kept := by
    rw [← weight_cons (placeOf node segs, value), weight, weight]
    exact (hperm.map _).sum_eq
  rcases misspellings_placeOf h with heq | hlt
  · exact ⟨by rw [hresult, heq]; omega, fun hne => absurd heq hne⟩
  · exact ⟨by omega, fun _ => by omega⟩

/-! ### What the paths so far tell about the tree -/

/-- The first segments of paths, in the order in which they are first mentioned. -/
def firstNames (ps : List (List Text)) : List Text := (ps.filterMap List.head?).eraseDups

/-- What remains of the paths that start with a segment. -/
def pathsBelow (s : Text) (ps : List (List Text)) : List (List Text) :=
  ps.filterMap fun p => if p.head? = some s then some p.tail else none

/-- The names are the positions of a list, in order: `0`, `1`, and so on. -/
def ArePositions (names : List Text) : Prop :=
  names ≠ [] ∧ names.length ≤ maxIndex + 1 ∧ names = (List.range names.length).map natText

/-- In a list of `count` elements the segment is no position, though it is made of digits, or
it is taken for a position, the next one included, that it is not the numeral of. -/
def IsMisspelt (count : Nat) (s : Text) : Prop :=
  index? s = .error .badValue ∨ ∃ i ≤ count, index? s = .ok (some i) ∧ s ≠ natText i

/-- Somewhere along the path a segment is misspelt, at a place where the paths before have
named nothing but the positions of a list. -/
def Misread : (before : List (List Text)) → (path : List Text) → Prop
  | _, [] => False
  | before, s :: rest =>
    (ArePositions (firstNames before) ∧ IsMisspelt (firstNames before).length s) ∨
      Misread (pathsBelow s before) rest

/-- Whether names are the positions of a list can be decided. -/
instance (names : List Text) : Decidable (ArePositions names) :=
  inferInstanceAs (Decidable (_ ∧ _ ∧ _))

/-- Whether a segment is misspelt can be decided. -/
instance (count : Nat) (s : Text) : Decidable (IsMisspelt count s) :=
  inferInstanceAs (Decidable (_ ∨ _))

/-- Whether a path is misread can be decided, by recursion on its segments. -/
instance Misread.decidable : (before : List (List Text)) → (path : List Text) →
    Decidable (Misread before path)
  | _, [] => inferInstanceAs (Decidable False)
  | before, s :: rest =>
    have := Misread.decidable (pathsBelow s before) rest
    inferInstanceAs (Decidable (_ ∨ _))

/-- A name is mentioned if a path starts with it. -/
theorem mem_firstNames_iff {s : Text} {ps : List (List Text)} :
    s ∈ firstNames ps ↔ ∃ rest, s :: rest ∈ ps := by
  rw [firstNames, List.mem_eraseDups, List.mem_filterMap]
  constructor
  · rintro ⟨p, hp, hhead⟩
    obtain ⟨rest, rfl⟩ := List.head?_eq_some_iff.mp hhead
    exact ⟨rest, hp⟩
  · rintro ⟨rest, hp⟩
    exact ⟨_, hp, rfl⟩

/-- One more path adds its first segment, unless it was mentioned before. -/
theorem firstNames_append (ps : List (List Text)) (s : Text) (rest : List Text) :
    firstNames (ps ++ [s :: rest])
      = if s ∈ firstNames ps then firstNames ps else firstNames ps ++ [s] := by
  have hmem : s ∈ firstNames ps ↔ s ∈ ps.filterMap List.head? := by
    rw [firstNames, List.mem_eraseDups]
  have hlast : [s :: rest].filterMap List.head? = [s] := rfl
  rw [firstNames, List.filterMap_append, List.eraseDups_append, ← firstNames, hlast,
    List.removeAll, List.filter_cons, List.filter_nil]
  by_cases hs : s ∈ firstNames ps
  · rw [if_neg (by simpa using hmem.mp hs), if_pos hs, List.eraseDups_nil, List.append_nil]
  · rw [if_pos (by simpa using mt hmem.mpr hs), if_neg hs, List.eraseDups_cons, List.filter_nil,
      List.eraseDups_nil]

/-- What remains below a segment are the rests of the paths that start with it. -/
theorem mem_pathsBelow_iff {s : Text} {rest : List Text} {ps : List (List Text)} :
    rest ∈ pathsBelow s ps ↔ s :: rest ∈ ps := by
  rw [pathsBelow, List.mem_filterMap]
  constructor
  · rintro ⟨p, hp, h⟩
    split at h
    · rename_i hhead
      obtain ⟨tail, rfl⟩ := List.head?_eq_some_iff.mp hhead
      cases h
      exact hp
    · cases h
  · intro hp
    exact ⟨_, hp, by simp⟩

/-- One more path adds its rest below its own first segment, and nothing below the others. -/
theorem pathsBelow_append (ps : List (List Text)) (s t : Text) (rest : List Text) :
    pathsBelow t (ps ++ [s :: rest]) = pathsBelow t ps ++ if s = t then [rest] else [] := by
  by_cases h : s = t <;> simp [pathsBelow, h]

/-- Below a segment that no path starts with, nothing remains. -/
theorem pathsBelow_eq_nil {s : Text} {ps : List (List Text)} (h : s ∉ firstNames ps) :
    pathsBelow s ps = [] := by
  refine List.eq_nil_iff_forall_not_mem.mpr fun rest hrest => ?_
  exact h (mem_firstNames_iff.mpr ⟨rest, mem_pathsBelow_iff.mp hrest⟩)

/-- Paths that are not empty mention a name. -/
theorem firstNames_ne_nil {ps : List (List Text)} (hne : ps ≠ []) (h : ∀ p ∈ ps, p ≠ []) :
    firstNames ps ≠ [] := by
  obtain ⟨p, ps, rfl⟩ := List.exists_cons_of_ne_nil hne
  obtain ⟨s, rest, rfl⟩ := List.exists_cons_of_ne_nil (h p List.mem_cons_self)
  exact List.ne_nil_of_mem (mem_firstNames_iff.mpr ⟨rest, List.mem_cons_self⟩)

/-- A single name is the positions of a list if it is the numeral of zero. -/
theorem arePositions_singleton_iff (s : Text) : ArePositions [s] ↔ s = natText 0 := by
  simp [ArePositions, maxIndex]

/-- One name more is the next position, if there is one. -/
theorem arePositions_append_iff {names : List Text} (hne : names ≠ []) (s : Text) :
    ArePositions (names ++ [s])
      ↔ ArePositions names ∧ names.length ≤ maxIndex ∧ s = natText names.length := by
  rw [ArePositions, ArePositions, List.length_append, List.length_singleton, List.range_succ,
    List.map_append, List.map_singleton]
  constructor
  · rintro ⟨-, hlength, heq⟩
    obtain ⟨hnames, hs⟩ := List.append_inj heq (by simp)
    exact ⟨⟨hne, by omega, hnames⟩, by omega, List.singleton_inj.mp hs⟩
  · rintro ⟨⟨-, -, hnames⟩, hlength, rfl⟩
    refine ⟨by simp, by omega, ?_⟩
    rw [← hnames]

/-- A name among positions is the numeral of one. -/
theorem ArePositions.exists_of_mem {names : List Text} (h : ArePositions names) {s : Text}
    (hs : s ∈ names) : ∃ i < names.length, i ≤ maxIndex ∧ s = natText i := by
  rw [h.2.2] at hs
  obtain ⟨i, hi, rfl⟩ := List.mem_map.mp hs
  rw [List.mem_range] at hi
  exact ⟨i, hi, by have := h.2.1; omega, rfl⟩

/-- Among the names that are positions are the numerals of all of them. -/
theorem ArePositions.mem {names : List Text} (h : ArePositions names) {i : Nat}
    (hi : i < names.length) : natText i ∈ names := by
  rw [h.2.2]
  exact List.mem_map_of_mem (List.mem_range.mpr hi)

/-- The tree is what the paths have made, as far as names and lists go: it has the names that
were mentioned, in their order, and is a list where these are positions. Where no path led
there is nothing yet. -/
inductive Shaped : Value → List (List Text) → Prop where
  | mk {node : Value} {ps : List (List Text)}
      (fresh : ps = [] → node = .null)
      (names : (parts node).map Prod.fst = (firstNames ps).map Scalar.str)
      (listed : parts node ≠ [] → ((∃ items, node = .list items) ↔ ArePositions (firstNames ps)))
      (inner : ∀ s v, Entries.get? (.str s) (parts node) = some v → Shaped v (pathsBelow s ps)) :
      Shaped node ps

/-- What no path was written to is nothing yet. -/
theorem shaped_null : Shaped .null [] :=
  .mk (fun _ => rfl) rfl (fun h => absurd rfl h) (fun _ _ h => nomatch h)

/-- A leaf has no parts. -/
theorem parts_eq_nil_of_isLeaf {v : Value} (h : IsLeaf v) : parts v = [] := by
  cases v with
  | map es => cases h; rfl
  | list items => cases h; rfl
  | _ => rfl

/-- A leaf is what one write to the empty path leaves. -/
theorem shaped_leaf {v : Value} (h : IsLeaf v) : Shaped v [[]] := by
  have hparts := parts_eq_nil_of_isLeaf h
  refine .mk (fun h => nomatch h) (by rw [hparts]; rfl) (fun h => absurd hparts h) ?_
  intro s v hv
  rw [hparts] at hv
  exact nomatch hv

/-- The elements of a list have the names that the paths mention, so there are as many. -/
theorem firstNames_eq_of_names {items : List Value} {ps : List (List Text)}
    (h : (numbered 0 items).map Prod.fst = (firstNames ps).map Scalar.str) :
    firstNames ps = (List.range items.length).map natText := by
  rw [map_fst_numbered, ← List.range_eq_range'] at h
  exact (List.map_injective_iff.mpr (fun _ _ h => Scalar.str.inj h) h).symm

/-- A text of digits that is no number is refused as a position in one way only. -/
theorem eq_badValue_of_index? {s : Text} {f : Fault} (h : index? s = .error f) : f = .badValue := by
  rw [index?] at h
  split at h
  · split at h
    · exact (Except.error.inj h).symm
    · cases h
  · cases h

/-- A value put under a key makes a mapping. -/
theorem not_list_of_field (es : List (Scalar × Value)) (key : Text) (v : Value) :
    ¬ ∃ items, (Slot.field es key).put v = .list items :=
  fun ⟨_, h⟩ => nomatch h

/-- What a segment addresses in a list. Either it is misspelt, and then it is refused or stands
for another name, or it has a place under its own name. In the second case the list stays a
list exactly if the segment is the numeral of a position, the next one included. -/
theorem slot_list_cases (items : List Value) (s : Text) :
    (IsMisspelt items.length s ∧ ∀ place, slot (.list items) s = .ok place → place.key ≠ s) ∨
      (¬ IsMisspelt items.length s ∧ ∃ place, slot (.list items) s = .ok place ∧ place.key = s ∧
        ∀ v, ((∃ vs, place.put v = .list vs)
          ↔ ∃ i ≤ items.length, i ≤ maxIndex ∧ s = natText i)) := by
  cases hindex : index? s with
  | error f =>
      cases eq_badValue_of_index? hindex
      refine .inl ⟨.inl hindex, fun place hplace => ?_⟩
      simp [slot, hindex, bind, Except.bind] at hplace
  | ok position =>
      have hslot := slot_list_of_index? items hindex
      have hnumeral : ∀ i, i ≤ maxIndex → s = natText i → position = some i := by
        rintro i hmax rfl
        rw [index?_natText hmax] at hindex
        cases hindex
        rfl
      by_cases hfits : ∃ i ≤ items.length, position = some i
      · obtain ⟨i, hi, rfl⟩ := hfits
        rw [Option.elim_some, if_pos hi] at hslot
        -- The position is there or next, and the segment is its numeral or misspells it.
        by_cases hs : s = natText i
        · refine .inr ⟨?_, .element items i, hslot, hs.symm, fun v => ⟨fun _ => ?_, fun _ => ⟨_, rfl⟩⟩⟩
          · rintro (hbad | ⟨j, -, hj, hne⟩)
            · simp [hindex] at hbad
            · rw [hindex, Except.ok.injEq, Option.some.injEq] at hj
              exact hne (hj ▸ hs)
          · exact ⟨i, hi, (exists_readInt?_of_index? hindex).2, hs⟩
        · refine .inl ⟨.inr ⟨i, hi, hindex, hs⟩, fun place hplace => ?_⟩
          rw [hslot] at hplace
          cases hplace
          exact fun hkey => hs hkey.symm
      · -- No position, or one with a gap before it: the list becomes a mapping.
        have hfield : slot (.list items) s = .ok (.field (numbered 0 items) s) := by
          cases position with
          | none => exact hslot
          | some i => rw [hslot, Option.elim_some, if_neg fun hi => hfits ⟨i, hi, rfl⟩]
        refine .inr ⟨?_, _, hfield, rfl, fun v => ?_⟩
        · rintro (hbad | ⟨j, hj, hjs, -⟩)
          · simp [hindex] at hbad
          · rw [hindex, Except.ok.injEq] at hjs
            exact hfits ⟨j, hj, hjs⟩
        · refine ⟨fun hlist => absurd hlist (not_list_of_field _ _ _), ?_⟩
          rintro ⟨i, hi, hmax, hs⟩
          exact absurd ⟨i, hi, hnumeral i hmax hs⟩ hfits

/-- Positions with one name more are positions, if the name is one of them or the next. -/
theorem ArePositions.with_name_iff {names : List Text} (h : ArePositions names) (s : Text) :
    ArePositions (if s ∈ names then names else names ++ [s])
      ↔ ∃ i ≤ names.length, i ≤ maxIndex ∧ s = natText i := by
  by_cases hs : s ∈ names
  · obtain ⟨i, hi, hmax, rfl⟩ := h.exists_of_mem hs
    rw [if_pos hs]
    exact ⟨fun _ => ⟨i, Nat.le_of_lt hi, hmax, rfl⟩, fun _ => h⟩
  · rw [if_neg hs, arePositions_append_iff h.1]
    constructor
    · rintro ⟨-, hmax, rfl⟩
      exact ⟨_, Nat.le_refl _, hmax, rfl⟩
    · rintro ⟨i, hi, hmax, rfl⟩
      have hlast : i = names.length := by
        by_contra hne
        exact hs (h.mem (by omega))
      exact ⟨h, hlast ▸ hmax, by rw [hlast]⟩

/-- What a segment addresses in a tree of known shape. Either it is misspelt, and then it is
refused or stands for another name, or it has a place under its own name. In the second case
the container stays or becomes a list exactly if the names are positions with it. -/
theorem Shaped.slot_cases {node : Value} {ps : List (List Text)} (h : Shaped node ps)
    (hps : ∀ p ∈ ps, p ≠ []) (s : Text) (rest : List Text) :
    ((ArePositions (firstNames ps) ∧ IsMisspelt (firstNames ps).length s) ∧
        ∀ place, slot node s = .ok place → place.key ≠ s) ∨
      (¬ (ArePositions (firstNames ps) ∧ IsMisspelt (firstNames ps).length s) ∧
        ∃ place, slot node s = .ok place ∧ place.key = s ∧ ∀ v,
          ((∃ items, place.put v = .list items) ↔ ArePositions (firstNames (ps ++ [s :: rest])))) := by
  obtain ⟨fresh, names, listed, -⟩ := h
  rw [firstNames_append]
  by_cases hnil : ps = []
  · -- The segment starts a container, and a list only if it is `0`.
    subst hnil
    rw [fresh rfl, if_neg (by simp [firstNames]), show firstNames [] ++ [s] = [s] from rfl,
      arePositions_singleton_iff]
    refine .inr ⟨fun hpos => hpos.1.1 rfl, ?_⟩
    by_cases hs : s = natText 0
    · exact ⟨.element [] 0, by rw [hs]; rfl, hs.symm, fun v => ⟨fun _ => hs, fun _ => ⟨_, rfl⟩⟩⟩
    · refine ⟨.field [] s, if_neg hs, rfl, fun v => ?_⟩
      exact ⟨fun hlist => absurd hlist (not_list_of_field _ _ _), fun h => absurd h hs⟩
  have hfirst := firstNames_ne_nil hnil hps
  have hparts : parts node ≠ [] := by
    intro hparts
    rw [hparts] at names
    exact hfirst (List.map_eq_nil_iff.mp names.symm)
  by_cases hpos : ArePositions (firstNames ps)
  -- A list has as many positions as there are names.
  · obtain ⟨items, rfl⟩ := (listed hparts).mpr hpos
    have hlength : (firstNames ps).length = items.length := by
      rw [firstNames_eq_of_names names]
      simp
    rw [hpos.with_name_iff, hlength]
    rcases slot_list_cases items s with ⟨hbad, hkey⟩ | ⟨hgood, hplace⟩
    · exact .inl ⟨⟨hpos, hbad⟩, hkey⟩
    · exact .inr ⟨fun h => hgood h.2, hplace⟩
  · -- A mapping stays one: with one name more its names are still no positions.
    have hmap : ∃ es, node = .map es := by
      match node with
      | .map es => exact ⟨es, rfl⟩
      | .list items => exact absurd ((listed hparts).mp ⟨items, rfl⟩) hpos
      | .scalar _ | .pair _ _ | .set _ | .loop _ => exact absurd rfl hparts
    obtain ⟨es, rfl⟩ := hmap
    refine .inr ⟨fun h => hpos h.1, .field es s, rfl, rfl, fun v => ?_⟩
    refine ⟨fun hlist => absurd hlist (not_list_of_field _ _ _), fun hafter => absurd ?_ hpos⟩
    split at hafter
    · exact hafter
    · exact ((arePositions_append_iff hfirst s).mp hafter).1

/-- A write leaves the names as they are if its own is among them, and adds it at the end if
it is not. -/
theorem map_fst_insert (key : Scalar) (v : Value) (es : List (Scalar × Value)) :
    (Entries.insert key v es).map Prod.fst
      = if (Entries.get? key es).isSome then es.map Prod.fst else es.map Prod.fst ++ [key] := by
  induction es with
  | nil => rfl
  | cons e es ih =>
      rw [Entries.insert_cons, Entries.get?_cons]
      split
      · rfl
      · rw [List.map_cons, ih, List.map_cons]
        split <;> rfl

/-- Something is found under a text if the text is one of the names. -/
theorem isSome_get?_iff (key : Text) (es : List (Scalar × Value)) :
    (Entries.get? (.str key) es).isSome = true ↔ Scalar.str key ∈ es.map Prod.fst := by
  induction es with
  | nil => simp
  | cons e es ih =>
      rw [Entries.get?_cons, List.map_cons, List.mem_cons]
      by_cases hkey : (e.1 == Scalar.str key) = true
      · rw [if_pos hkey]
        simp [(Scalar.beq_str_iff _ _).mp hkey]
      · have hne : Scalar.str key ≠ e.1 := fun h => hkey ((Scalar.beq_str_iff _ _).mpr h.symm)
        rw [if_neg hkey, ih]
        simp [hne]

/-- A value put at a place of its own name: the tree is shaped by the paths with one more. -/
theorem Shaped.put {node child : Value} {ps : List (List Text)} (h : Shaped node ps) {s : Text}
    {rest : List Text} {place : Slot} (hplace : slot node s = .ok place) (hkey : place.key = s)
    (hlist : (∃ items, place.put child = .list items)
      ↔ ArePositions (firstNames (ps ++ [s :: rest])))
    (hchild : Shaped child (pathsBelow s ps ++ [rest])) :
    Shaped (place.put child) (ps ++ [s :: rest]) := by
  obtain ⟨-, names, -, inner⟩ := h
  have hput := (PathTree.slot_cases hplace).2 child
  rw [hkey] at hput
  refine .mk (fun hnil => absurd hnil (by simp)) ?_ (fun _ => hlist) ?_
  · have hmem : (Entries.get? (.str s) (parts node)).isSome = true ↔ s ∈ firstNames ps := by
      rw [isSome_get?_iff, names]
      simp
    rw [hput, map_fst_insert, firstNames_append, names]
    by_cases hs : s ∈ firstNames ps
    · rw [if_pos (hmem.mpr hs), if_pos hs]
    · rw [if_neg (mt hmem.mp hs), if_neg hs, List.map_append]
      rfl
  -- Below the name there is one path more, and below others what was there.
  · intro t v hv
    rw [hput, Entries.get?_insert, Scalar.str_beq_str] at hv
    rw [pathsBelow_append]
    by_cases ht : s = t
    · subst ht
      simp only [decide_true, if_true, Option.some.injEq] at hv
      rw [if_pos rfl, ← hv]
      exact hchild
    · rw [if_neg (by simpa using ht)] at hv
      rw [if_neg ht, List.append_nil]
      exact inner t v hv

/-- What is under a name in a tree of known shape is shaped by what the paths say there. -/
theorem Shaped.getD {node : Value} {ps : List (List Text)} (h : Shaped node ps) (s : Text) :
    Shaped ((Entries.get? (.str s) (parts node)).getD .null) (pathsBelow s ps) := by
  obtain ⟨-, names, -, inner⟩ := h
  cases hv : Entries.get? (.str s) (parts node) with
  | some v => exact inner s v hv
  | none =>
      have hs : s ∉ firstNames ps := by
        intro hs
        have := (isSome_get?_iff s (parts node)).mpr (names ▸ List.mem_map_of_mem hs)
        rw [hv] at this
        cases this
      rw [pathsBelow_eq_nil hs]
      exact shaped_null

/-- A write to a tree of known shape, at a path that is apart from those so far. If the path
is misread, the write is refused or has another place. Otherwise it has its path as its
place, and leaves a tree that is shaped by the paths with this one. -/
theorem Shaped.setAt {value : Value} (hleaf : IsLeaf value) {segs : List Text} (hne : segs ≠ [])
    {node : Value} {ps : List (List Text)} (h : Shaped node ps) (hapart : ∀ p ∈ ps, Apart p segs) :
    (Misread ps segs → ∀ result, setAt value node segs = .ok result → placeOf node segs ≠ segs) ∧
      (¬ Misread ps segs → ∃ result, PathTree.setAt value node segs = .ok result ∧
        placeOf node segs = segs ∧ Shaped result (ps ++ [segs])) := by
  induction segs generalizing node ps with
  | nil => exact absurd rfl hne
  | cons s rest ih =>
      have hps : ∀ p ∈ ps, p ≠ [] := fun p hp hnil => not_apart_nil_left _ (hnil ▸ hapart p hp)
      rw [Misread]
      -- The first segment is misread, or else it leads to the place that it spells.
      rcases h.slot_cases hps s rest with ⟨hbad, hkey⟩ | ⟨hgood, place, hplace, hkey, hlist⟩
      · refine ⟨fun _ result hset => ?_, fun hno => absurd (.inl hbad) hno⟩
        obtain ⟨place, child, hplace, -, -⟩ := setAt_cons_eq_ok hset
        rw [placeOf_cons rest hplace]
        exact fun heq => hkey place hplace (List.cons.inj heq).1
      · rw [placeOf_cons rest hplace, hkey]
        have hget := (PathTree.slot_cases hplace).1
        rw [hkey] at hget
        have hbelow : ∀ p ∈ pathsBelow s ps, Apart p rest := fun p hp =>
          apart_cons_iff.mp (hapart _ (mem_pathsBelow_iff.mp hp))
        by_cases hrest : rest = []
        · -- The last segment is well read, and no path so far goes on below it.
          subst hrest
          have hnil : pathsBelow s ps = [] :=
            List.eq_nil_iff_forall_not_mem.mpr fun p hp => not_apart_nil_right p (hbelow p hp)
          refine ⟨?_, fun _ => ⟨place.put value, ?_, by rw [placeOf], ?_⟩⟩
          · rintro (hbad | hbelow)
            · exact absurd hbad hgood
            · exact hbelow.elim
          · rw [PathTree.setAt, hplace]
            rfl
          · exact h.put hplace hkey (hlist value) (by rw [hnil]; exact shaped_leaf hleaf)
        · -- A path whose first segment is well read is misread just if its rest is, below it.
          have hold := h.getD s
          rw [← hget] at hold
          obtain ⟨hmisread, hread⟩ := ih hrest hold hbelow
          refine ⟨?_, fun hno => ?_⟩
          · rintro (hbad | hbad) result hset
            · exact absurd hbad hgood
            · obtain ⟨place', child, hplace', hchild, -⟩ := setAt_cons_eq_ok hset
              rw [hplace] at hplace'
              cases hplace'
              exact fun heq => hmisread hbad child hchild (List.cons.inj heq).2
          · obtain ⟨child, hchild, hsame, hshape⟩ := hread fun hbad => hno (.inr hbad)
            refine ⟨place.put child, ?_, by rw [hsame], h.put hplace hkey (hlist child) hshape⟩
            rw [PathTree.setAt, hplace]
            show (PathTree.setAt value (place.get?.getD .null) rest).bind _ = _
            rw [hchild]
            rfl

/-! ### All writes -/

/-- The paths of a map are apart from each other. -/
def PrefixFree (ws : List (List Text × Value)) : Prop := ws.Pairwise fun w v => Apart w.1 v.1

/-- Whether none of the paths leads through another can be decided. -/
instance (ws : List (List Text × Value)) : Decidable (PrefixFree ws) :=
  inferInstanceAs (Decidable (List.Pairwise _ _))

/-- Paths of which none leads through another are distinct. -/
theorem PrefixFree.nodup {ws : List (List Text × Value)} (h : PrefixFree ws) :
    (ws.map Prod.fst).Nodup := by
  rw [List.Nodup, List.pairwise_map]
  refine h.imp fun {w v} hapart heq => hapart.1 ?_
  exact heq ▸ List.prefix_rfl

/-- The entries are leaves, under paths that are not empty. -/
def AreLeaves (ws : List (List Text × Value)) : Prop := ∀ w ∈ ws, w.1 ≠ [] ∧ IsLeaf w.2

/-- Some path is misread after those before it, `before` being written already. -/
def SomeMisread (before : List (List Text)) (ws : List (List Text × Value)) : Prop :=
  ∃ first w later, ws = first ++ w :: later ∧ Misread (before ++ first.map Prod.fst) w.1

/-- One of several paths is misread if the first is, after those before, or if one of the others
is, after those and the first. -/
theorem someMisread_cons_iff {before : List (List Text)} {w : List Text × Value}
    {ws : List (List Text × Value)} :
    SomeMisread before (w :: ws) ↔ Misread before w.1 ∨ SomeMisread (before ++ [w.1]) ws := by
  constructor
  · rintro ⟨first, v, later, heq, hbad⟩
    cases first with
    | nil =>
        cases heq
        exact .inl (by simpa using hbad)
    | cons u first =>
        cases heq
        exact .inr ⟨first, v, later, rfl, by simpa using hbad⟩
  · rintro (hbad | ⟨first, v, later, rfl, hbad⟩)
    · exact ⟨[], w, ws, rfl, by simpa using hbad⟩
    · exact ⟨w :: first, v, later, rfl, by simpa using hbad⟩

/-- Writes at paths that are not misread all succeed, and the leaves are then the written
ones. -/
theorem exists_writeAll_of_not_misread {ws before : List (List Text × Value)} {tree : Value}
    (hleaves : AreLeaves ws) (hfree : PrefixFree (before ++ ws))
    (hshape : Shaped tree (before.map Prod.fst)) (hperm : (entryPaths (parts tree)).Perm before)
    (hread : ¬ SomeMisread (before.map Prod.fst) ws) :
    ∃ result, writeAll ws tree = .ok result ∧ (entryPaths (parts result)).Perm (before ++ ws) := by
  induction ws generalizing before tree with
  | nil => exact ⟨tree, rfl, by simpa using hperm⟩
  | cons w ws ih =>
      rw [someMisread_cons_iff, not_or] at hread
      have hw := hleaves w List.mem_cons_self
      have hbefore : ∀ v ∈ before, Apart v.1 w.1 := fun v hv =>
        (List.pairwise_append.mp hfree).2.2 v hv w List.mem_cons_self
      have hapart : ∀ p ∈ before.map Prod.fst, Apart p w.1 := by
        intro p hp
        obtain ⟨v, hv, rfl⟩ := List.mem_map.mp hp
        exact hbefore v hv
      obtain ⟨next, hset, hplace, hnext⟩ := (hshape.setAt hw.2 hw.1 hapart).2 hread.1
      obtain ⟨kept, -, hleaf, hkept⟩ := keepsRest_setAt hw.2 hw.1 hset
      rw [hplace] at hleaf hkept
      -- No leaf is lost, since none is at a path that leads through the new one.
      have hall := hkept fun v hv => hbefore v (hperm.subset hv)
      have hperm' : (entryPaths (parts next)).Perm (before ++ [w]) := by
        refine hleaf.trans ?_
        rw [hall]
        exact (hperm.cons w).trans (List.perm_append_singleton w before).symm
      have hfree' : PrefixFree ((before ++ [w]) ++ ws) := by simpa using hfree
      obtain ⟨result, hrun, hresult⟩ := ih (fun v hv => hleaves v (List.mem_cons_of_mem _ hv)) hfree'
        (by simpa using hnext) hperm' (by simpa using hread.2)
      refine ⟨result, ?_, by simpa using hresult⟩
      rw [writeAll_cons, hset]
      exact hrun

/-- Writes one after the other: the first, and the others in the tree that it leaves. -/
theorem exists_of_writeAll_cons {w : List Text × Value} {ws : List (List Text × Value)}
    {tree result : Value} (h : writeAll (w :: ws) tree = .ok result) :
    ∃ next, setAt w.2 tree w.1 = .ok next ∧ writeAll ws next = .ok result := by
  rw [writeAll_cons] at h
  cases hset : setAt w.2 tree w.1 with
  | error f => simp [hset, Except.bind] at h
  | ok next => exact ⟨next, rfl, by rwa [hset] at h⟩

/-- Writes add no more misspelt numbers than their paths have. -/
theorem weight_writeAll {ws : List (List Text × Value)} (hleaves : AreLeaves ws)
    {tree result : Value} (h : writeAll ws tree = .ok result) :
    weight (entryPaths (parts result)) ≤ weight ws + weight (entryPaths (parts tree)) := by
  induction ws generalizing tree with
  | nil =>
      cases h
      simp [weight]
  | cons w ws ih =>
      obtain ⟨next, hset, hrest⟩ := exists_of_writeAll_cons h
      have hw := hleaves w List.mem_cons_self
      have hstep := (weight_setAt hw.2 hw.1 hset).1
      have hafter := ih (fun v hv => hleaves v (List.mem_cons_of_mem _ hv)) hrest
      rw [weight_cons]
      omega

/-- Writes add fewer misspelt numbers than their paths have, if one of the paths is misread. -/
theorem weight_writeAll_of_misread {ws before : List (List Text × Value)} {tree result : Value}
    (hleaves : AreLeaves ws) (hfree : PrefixFree (before ++ ws))
    (hshape : Shaped tree (before.map Prod.fst)) (hbad : SomeMisread (before.map Prod.fst) ws)
    (h : writeAll ws tree = .ok result) :
    weight (entryPaths (parts result)) < weight ws + weight (entryPaths (parts tree)) := by
  induction ws generalizing before tree with
  | nil =>
      obtain ⟨first, w, later, heq, -⟩ := hbad
      simp at heq
  | cons w ws ih =>
      obtain ⟨next, hset, hrest⟩ := exists_of_writeAll_cons h
      have hw := hleaves w List.mem_cons_self
      have hleaves' : AreLeaves ws := fun v hv => hleaves v (List.mem_cons_of_mem _ hv)
      have hapart : ∀ p ∈ before.map Prod.fst, Apart p w.1 := by
        intro p hp
        obtain ⟨v, hv, rfl⟩ := List.mem_map.mp hp
        exact (List.pairwise_append.mp hfree).2.2 v hv w List.mem_cons_self
      have hstep := weight_setAt hw.2 hw.1 hset
      rw [weight_cons]
      by_cases hmisread : Misread (before.map Prod.fst) w.1
      · -- This write loses a misspelling, and the later ones gain none.
        have hlt := hstep.2 ((hshape.setAt hw.2 hw.1 hapart).1 hmisread next hset)
        have hle := weight_writeAll hleaves' hrest
        omega
      -- This write has its own path as its place, so a later one is misread.
      · obtain ⟨next', hset', -, hnext⟩ := (hshape.setAt hw.2 hw.1 hapart).2 hmisread
        rw [hset] at hset'
        cases hset'
        have hfree' : PrefixFree ((before ++ [w]) ++ ws) := by simpa using hfree
        have hlt := ih hleaves' hfree' (by simpa using hnext)
          (by simpa using (someMisread_cons_iff.mp hbad).resolve_left hmisread) hrest
        have hle := hstep.1
        omega

/-! ### Names and segments of a written tree -/

/-- The elements have only texts as keys exactly if the entries under their positions do. -/
theorem itemsHaveNames_iff (start : Nat) (vs : List Value) :
    ItemsHaveNames vs ↔ EntriesHaveNames (numbered start vs) := by
  induction vs generalizing start with
  | nil => simp [ItemsHaveNames, EntriesHaveNames, numbered]
  | cons v vs ih =>
      rw [ItemsHaveNames, numbered, EntriesHaveNames, ih (start + 1)]
      simp

/-- All keys of a value are texts exactly if those of its parts are. -/
theorem hasNames_iff (v : Value) : HasNames v ↔ EntriesHaveNames (parts v) := by
  match v with
  | .map es => rw [HasNames, parts]
  | .list items => rw [HasNames, parts, itemsHaveNames_iff 0]
  | .scalar _ | .pair _ _ | .set _ | .loop _ => simp [HasNames, parts, EntriesHaveNames]

/-- What is found under a key has only texts as keys. -/
theorem EntriesHaveNames.get? {es : List (Scalar × Value)} (h : EntriesHaveNames es) {key : Scalar}
    {v : Value} (hv : Entries.get? key es = some v) : HasNames v := by
  induction es with
  | nil => simp at hv
  | cons e es ih =>
      rw [EntriesHaveNames] at h
      rw [Entries.get?_cons] at hv
      split at hv
      · cases hv
        exact h.2.1
      · exact ih h.2.2 hv

/-- A write under a text leaves only texts as keys, if what is written has only such keys. -/
theorem EntriesHaveNames.insert {es : List (Scalar × Value)} (h : EntriesHaveNames es) (key : Text)
    {v : Value} (hv : HasNames v) : EntriesHaveNames (Entries.insert (.str key) v es) := by
  induction es with
  | nil => exact ⟨⟨key, rfl⟩, hv, trivial⟩
  | cons e es ih =>
      rw [EntriesHaveNames] at h
      rw [Entries.insert_cons]
      split
      · exact ⟨h.1, hv, h.2.2⟩
      · exact ⟨h.1, h.2.1, ih h.2.2⟩

/-- A write of a leaf at a path leaves only texts as keys, at every depth. The induction is on
the path. -/
theorem hasNames_setAt {value : Value} (hleaf : IsLeaf value) {segs : List Text}
    {node result : Value} (hnode : HasNames node) (h : setAt value node segs = .ok result) :
    HasNames result := by
  induction segs generalizing node result with
  | nil =>
      cases h
      rw [hasNames_iff, parts_eq_nil_of_isLeaf hleaf]
      trivial
  | cons s rest ih =>
      obtain ⟨place, child, hplace, hchild, rfl⟩ := setAt_cons_eq_ok h
      obtain ⟨hget, hput⟩ := slot_cases hplace
      rw [hasNames_iff] at hnode
      rw [hasNames_iff, hput]
      refine hnode.insert _ (ih ?_ hchild)
      rw [hget]
      cases hv : Entries.get? (.str place.key) (parts node) with
      | none => exact trivial
      | some v => exact hnode.get? hv

/-- The place of a path of segments is one. -/
theorem isSegment_placeOf {value node result : Value} {segs : List Text}
    (h : setAt value node segs = .ok result) (hsegs : ∀ s ∈ segs, IsSegment dot s) :
    ∀ s ∈ placeOf node segs, IsSegment dot s := by
  induction segs generalizing node result with
  | nil => simp [placeOf]
  | cons s rest ih =>
      obtain ⟨place, child, hplace, hchild, rfl⟩ := setAt_cons_eq_ok h
      rw [List.forall_mem_cons] at hsegs
      rw [placeOf_cons rest hplace, List.forall_mem_cons]
      refine ⟨?_, ih hchild hsegs.2⟩
      rcases key_eq_or_misspelt hplace with hkey | ⟨i, -, hkey, -⟩
      · exact hkey ▸ hsegs.1
      · exact hkey ▸ isSegment_natText i

/-- A tree that writes have made: its keys are texts, and the paths of its leaves are made of
segments. -/
structure IsWritten (tree : Value) : Prop where
  names : HasNames tree
  segments : ∀ w ∈ entryPaths (parts tree), ∀ s ∈ w.1, IsSegment dot s

/-- Nothing yet is a tree that writes have made, of no writes at all. -/
theorem isWritten_null : IsWritten .null := ⟨trivial, by simp [parts, entryPaths]⟩

/-- A write of a leaf at a path of segments leaves a tree that writes have made. -/
theorem IsWritten.setAt {value : Value} (hleaf : IsLeaf value) {segs : List Text} (hne : segs ≠ [])
    (hsegs : ∀ s ∈ segs, IsSegment dot s) {node result : Value} (hnode : IsWritten node)
    (h : setAt value node segs = .ok result) : IsWritten result := by
  refine ⟨hasNames_setAt hleaf hnode.names h, fun w hw => ?_⟩
  obtain ⟨kept, hsub, hperm, -⟩ := keepsRest_setAt hleaf hne h
  rcases List.mem_cons.mp (hperm.subset hw) with rfl | hw
  · exact isSegment_placeOf h hsegs
  · exact hnode.segments w (hsub.subset hw)

/-- So do several writes, by the step for one of them. -/
theorem IsWritten.writeAll {ws : List (List Text × Value)} (hleaves : AreLeaves ws)
    (hsegs : ∀ w ∈ ws, ∀ s ∈ w.1, IsSegment dot s) {tree result : Value} (htree : IsWritten tree)
    (h : writeAll ws tree = .ok result) : IsWritten result := by
  induction ws generalizing tree with
  | nil =>
      cases h
      exact htree
  | cons w ws ih =>
      obtain ⟨next, hset, hrest⟩ := exists_of_writeAll_cons h
      have hw := hleaves w List.mem_cons_self
      exact ih (fun v hv => hleaves v (List.mem_cons_of_mem _ hv))
        (fun v hv => hsegs v (List.mem_cons_of_mem _ hv))
        (htree.setAt hw.2 hw.1 (hsegs w List.mem_cons_self) hset) hrest

/-- A written tree that has parts is flattened into its leaves under their joined paths. Of
leaves with one path the last counts. -/
theorem IsWritten.flatten_eq {tree : Value} (h : IsWritten tree) (hparts : parts tree ≠ []) :
    flatten "." tree = .ok (Entries.ofList (flatOf (entryPaths (parts tree)))) := by
  have htrue : tree.isTruthy = true := by
    match tree with
    | .map (e :: es) => rfl
    | .list (v :: vs) => rfl
    | .map [] | .list [] | .scalar _ | .pair _ _ | .set _ | .loop _ => exact absurd rfl hparts
  have hflat : joinedFrom [] (entryPaths (parts tree)) = flatOf (entryPaths (parts tree)) :=
    List.map_congr_left fun w hw => by rw [joinFrom_nil (h.segments w hw)]
  rw [flatten, if_pos htrue, leaves_eq tree h.names, leafPaths_of_parts_ne_nil hparts, hflat]
  rfl

/-! ### The round trip -/

/-- The map comes back from its tree: it has a tree, and the leaves of the tree are its
entries, in some order. -/
def ComesBack (ws : List (List Text × Value)) : Prop :=
  ∃ flat, (ofFlat "." (flatOf ws) >>= flatten ".") = .ok flat ∧ flat.Perm (flatOf ws)

/-- A map whose writes make a tree comes back if the leaves of the tree are its entries. -/
theorem comesBack_of_perm {ws : List (List Text × Value)} {tree : Value}
    (htree : ofFlat "." (flatOf ws) = .ok tree) (hwritten : IsWritten tree)
    (hparts : parts tree ≠ []) (hnodup : (ws.map Prod.fst).Nodup)
    (hperm : (entryPaths (parts tree)).Perm ws) : ComesBack ws := by
  have hsegs : ∀ w ∈ entryPaths (parts tree), w.1 ≠ [] ∧ ∀ s ∈ w.1, IsSegment dot s :=
    fun w hw => ⟨ne_nil_of_mem_entryPaths hw, hwritten.segments w hw⟩
  refine ⟨flatOf (entryPaths (parts tree)), ?_, hperm.map _⟩
  rw [htree]
  show flatten "." tree = _
  rw [hwritten.flatten_eq hparts, Entries.ofList_eq_self
    (pairwise_flatOf hsegs ((hperm.map Prod.fst).nodup_iff.mpr hnodup))]

/-- A map that comes back has all its paths among the leaves of its tree, so there are at
least as many misspelt numbers in the tree. -/
theorem weight_le_of_comesBack {ws : List (List Text × Value)}
    (hsegs : ∀ w ∈ ws, w.1 ≠ [] ∧ ∀ s ∈ w.1, IsSegment dot s) {tree : Value}
    (htree : ofFlat "." (flatOf ws) = .ok tree) (hwritten : IsWritten tree)
    (hparts : parts tree ≠ []) (hnodup : (ws.map Prod.fst).Nodup) (h : ComesBack ws) :
    weight ws ≤ weight (entryPaths (parts tree)) := by
  obtain ⟨flat, hflat, hperm⟩ := h
  rw [htree] at hflat
  replace hflat : flatten "." tree = .ok flat := hflat
  rw [hwritten.flatten_eq hparts, Except.ok.injEq] at hflat
  -- Each path of the map comes back, and so is the path of a leaf.
  have hsubset : ws.map Prod.fst ⊆ (entryPaths (parts tree)).map Prod.fst := by
    intro p hp
    obtain ⟨w, hw, rfl⟩ := List.mem_map.mp hp
    have hmem : (joined w.1, w.2) ∈ flat := hperm.symm.subset (List.mem_map_of_mem hw)
    rw [← hflat] at hmem
    obtain ⟨e, he, heq⟩ := List.mem_map.mp (Entries.mem_keys_ofList hmem)
    obtain ⟨u, hu, rfl⟩ := List.mem_map.mp he
    have hsame := joined_injective (hwritten.segments u hu) (hsegs w hw).2
      (ne_nil_of_mem_entryPaths hu) (hsegs w hw).1 heq
    exact List.mem_map.mpr ⟨u, hu, hsame⟩
  -- The paths are distinct, so each of them is counted once among those of the leaves.
  obtain ⟨paths, hsame, hsub⟩ := List.subperm_of_subset hnodup hsubset
  have hweight : ∀ us : List (List Text × Value),
      weight us = ((us.map Prod.fst).map misspellings).sum := by
    intro us
    rw [weight, List.map_map]
    rfl
  rw [hweight, hweight, ← (hsame.map misspellings).sum_eq]
  exact (hsub.map misspellings).sum_le_sum fun _ _ => Nat.zero_le _

/-- After a write at a path there is a container with parts. -/
theorem parts_ne_nil_of_writeAll {w : List Text × Value} {ws : List (List Text × Value)}
    (hleaves : AreLeaves (w :: ws)) {tree result : Value}
    (h : writeAll (w :: ws) tree = .ok result) : parts result ≠ [] := by
  induction ws generalizing w tree with
  | nil =>
      obtain ⟨next, hset, hrest⟩ := exists_of_writeAll_cons h
      cases hrest
      exact parts_ne_nil_of_setAt (hleaves w List.mem_cons_self).1 hset
  | cons v ws ih =>
      obtain ⟨next, -, hrest⟩ := exists_of_writeAll_cons h
      exact ih (fun u hu => hleaves u (List.mem_cons_of_mem _ hu)) hrest

/-- The first path and the others come back if none of them is misread. This is the round trip for
paths that are not empty, in terms of the list itself. -/
theorem comesBack_iff {w : List Text × Value} {ws : List (List Text × Value)}
    (hsegs : ∀ v ∈ w :: ws, v.1 ≠ [] ∧ ∀ s ∈ v.1, IsSegment dot s)
    (hleaf : ∀ v ∈ w :: ws, IsLeaf v.2) (hfree : PrefixFree (w :: ws)) :
    ComesBack (w :: ws) ↔ ¬ SomeMisread [] (w :: ws) := by
  have hleaves : AreLeaves (w :: ws) := fun v hv => ⟨(hsegs v hv).1, hleaf v hv⟩
  have hwrites : ofFlat "." (flatOf (w :: ws)) = writeAll (w :: ws) .null := by
    rw [writeAll_null_eq_rootOf (hsegs w List.mem_cons_self).1]
    exact ofFlat_eq_writeAll (areWrites_flatOf hsegs)
  have hwritten : ∀ {tree}, writeAll (w :: ws) .null = .ok tree → IsWritten tree :=
    isWritten_null.writeAll hleaves fun v hv => (hsegs v hv).2
  constructor
  · intro hback hbad
    cases htree : writeAll (w :: ws) .null with
    | error f =>
        obtain ⟨flat, hflat, -⟩ := hback
        simp [hwrites, htree, bind, Except.bind] at hflat
    | ok tree =>
        -- The tree has all the misspelt numbers of the paths, and fewer.
        have hle := weight_le_of_comesBack hsegs (hwrites.trans htree) (hwritten htree)
          (parts_ne_nil_of_writeAll hleaves htree) hfree.nodup hback
        have hlt := @weight_writeAll_of_misread (w :: ws) [] .null tree hleaves hfree shaped_null
          hbad htree
        have hnull : weight (entryPaths (parts .null)) = 0 := by simp [weight, parts, entryPaths]
        omega
  · intro hread
    obtain ⟨tree, htree, hperm⟩ := @exists_writeAll_of_not_misread (w :: ws) [] .null hleaves hfree
      shaped_null (by simp [parts, entryPaths]) hread
    exact comesBack_of_perm (hwrites.trans htree) (hwritten htree)
      (parts_ne_nil_of_writeAll hleaves htree) hfree.nodup hperm

/-- The empty path stands alone in its map, and comes back as the empty name. -/
theorem comesBack_singleton_nil {v : Value} (hleaf : IsLeaf v) : ComesBack [([], v)] := by
  refine ⟨[([], v)], ?_, List.Perm.refl _⟩
  have htree : ofFlat "." (flatOf [([], v)]) = .ok (.map [(.str [], v)]) := rfl
  have hleaves : leaves "." [] v = .ok [([], v)] := by
    cases v with
    | scalar s => simp [leaves]
    | map es =>
        cases hleaf
        simp [leaves]
    | list items =>
        cases hleaf
        simp [leaves]
    | _ => exact hleaf.elim
  rw [htree]
  show flatten "." (.map [(.str [], v)]) = _
  simp only [flatten, Value.isTruthy, List.isEmpty_cons, Bool.not_false, if_true, leaves,
    entryLeaves, Scalar.display, bind, Except.bind]
  rw [show join "." [] [] = [] from rfl, hleaves]
  rfl

/-- A path map whose paths are apart comes back from its tree, as the same entries in some
order, if and only if none of its paths is misread after the ones before it. -/
theorem flatten_ofFlat_iff (ws : List (List Text × Value))
    (hsegs : ∀ w ∈ ws, ∀ s ∈ w.1, IsSegment dot s) (hleaf : ∀ w ∈ ws, IsLeaf w.2)
    (hfree : PrefixFree ws) :
    (∃ flat, (ofFlat "." (flatOf ws) >>= flatten ".") = .ok flat ∧ flat.Perm (flatOf ws))
      ↔ ∀ before w after, ws = before ++ w :: after → ¬ Misread (before.map Prod.fst) w.1 := by
  -- To say that no path is misread, and that not some path is.
  have hread : (∀ before w after, ws = before ++ w :: after → ¬ Misread (before.map Prod.fst) w.1)
      ↔ ¬ SomeMisread [] ws := by
    simp [SomeMisread]
  rw [hread]
  change ComesBack ws ↔ _
  by_cases hempty : ∃ w ∈ ws, w.1 = []
  · -- The empty path leads to every other, so it is the only one.
    obtain ⟨w, hw, hnil⟩ := hempty
    have hone : ws = [w] := by
      obtain ⟨before, after, rfl⟩ := List.append_of_mem hw
      obtain ⟨-, hafter, hbefore⟩ := List.pairwise_append.mp hfree
      have hb : before = [] := List.eq_nil_iff_forall_not_mem.mpr fun v hv =>
        not_apart_nil_right v.1 (hnil ▸ hbefore v hv w List.mem_cons_self)
      have ha : after = [] := List.eq_nil_iff_forall_not_mem.mpr fun v hv =>
        not_apart_nil_left v.1 (hnil ▸ (List.pairwise_cons.mp hafter).1 v hv)
      rw [hb, ha, List.nil_append]
    obtain ⟨segs, v⟩ := w
    cases hnil
    subst hone
    refine ⟨fun _ hbad => ?_, fun _ => comesBack_singleton_nil (hleaf _ hw)⟩
    rcases someMisread_cons_iff.mp hbad with hbad | ⟨first, u, later, heq, -⟩
    · exact hbad
    · simp at heq
  · have hsegs' : ∀ w ∈ ws, w.1 ≠ [] ∧ ∀ s ∈ w.1, IsSegment dot s := fun w hw =>
      ⟨fun hnil => hempty ⟨w, hw, hnil⟩, hsegs w hw⟩
    cases ws with
    | nil =>
        refine ⟨fun _ => ?_, fun _ => ⟨[], rfl, List.Perm.nil⟩⟩
        rintro ⟨first, w, later, heq, -⟩
        simp at heq
    | cons w ws => exact comesBack_iff hsegs' hleaf hfree

/-- Names, positions in and out of order, and a number that is no numeral. The last stands
where no list is, so all of them come back. -/
def mixedMap : List (List Text × Value) :=
  [(["0", "a"], .int 1), (["1", "07"], .null), (["1", "0"], .list []), (["x"], .str "b"),
   (["0", "b", "1"], .map []), (["0", "b", "0"], .bool true)]

/-- A map with lists and mappings meets the conditions, and comes back. -/
theorem flatten_ofFlat_mixedMap :
    (∀ w ∈ mixedMap, ∀ s ∈ w.1, IsSegment dot s) ∧ (∀ w ∈ mixedMap, IsLeaf w.2) ∧
      PrefixFree mixedMap ∧
      ∃ flat, (ofFlat "." (flatOf mixedMap) >>= flatten ".") = .ok flat ∧
        flat.Perm (flatOf mixedMap) := by
  have hsegs : ∀ w ∈ mixedMap, ∀ s ∈ w.1, IsSegment dot s := by decide
  have hleaf : ∀ w ∈ mixedMap, IsLeaf w.2 := by decide
  have hfree : PrefixFree mixedMap := by decide
  refine ⟨hsegs, hleaf, hfree, (flatten_ofFlat_iff mixedMap hsegs hleaf hfree).mpr ?_⟩
  -- Each path is looked at after those before it.
  have hread : ∀ i : Fin mixedMap.length,
      ¬ Misread ((mixedMap.take i).map Prod.fst) (mixedMap.get i).1 := by decide
  intro before w after heq
  have hlength : before.length < mixedMap.length := by
    rw [heq]
    simp
  have hat := hread ⟨before.length, hlength⟩
  simpa [heq] using hat

/-- Two spellings of one position. -/
def twoZeros : List (List Text × Value) := [(["0"], .int 1), (["00"], .int 2)]

/-- The second of two spellings of a position is written over the first. -/
theorem not_flatten_ofFlat_twoZeros :
    ((∀ w ∈ twoZeros, ∀ s ∈ w.1, IsSegment dot s) ∧ (∀ w ∈ twoZeros, IsLeaf w.2) ∧
        PrefixFree twoZeros) ∧
      ¬ ∃ flat, (ofFlat "." (flatOf twoZeros) >>= flatten ".") = .ok flat ∧
        flat.Perm (flatOf twoZeros) := by
  refine ⟨⟨by decide, by decide, by decide⟩, ?_⟩
  rintro ⟨flat, hflat, hperm⟩
  have hone : (ofFlat "." (flatOf twoZeros) >>= flatten ".") = .ok [("0", .int 2)] := by decide
  rw [hone, Except.ok.injEq] at hflat
  rw [← hflat] at hperm
  exact absurd hperm.length_eq (by decide)

end RouteDocs.PathTree
