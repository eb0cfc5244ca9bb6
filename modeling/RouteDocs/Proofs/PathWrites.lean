import RouteDocs.Proofs.PathMaps

/-!
# `RouteDocs.Proofs.PathWrites`: what a write leaves as it was

A write at a path may put values where others were, start lists and mappings, add to a list,
and make a mapping of a list that cannot take a segment. `flatten_setAtPath` says what
all this comes to: the leaves of the tree afterwards are those of the written value, below the
path, and those from before whose paths neither lead to the path nor go on from it. So a list
that becomes a mapping, at the root or on the way, neither loses nor renames an element,
whatever its length.

Digits in the path have to be numerals. A list reads `01` as the position `1`, and then it is
not at the path that the value arrives (see `RouteDocs.Proofs.PathMaps`).

The argument is about segments. `entryPaths_insert` is one write under a name, which changes
the leaves below this name and no others; `entryPaths_setAt` follows the segments with it.
-/

set_option autoImplicit false

namespace RouteDocs.PathTree

open Text Number Synthesis

/-! ### Trees that paths lead through -/

mutual

/-- A tree of mappings, lists and scalars, in which every key is a segment of a path and no
mapping has a key twice. -/
def IsNamed : Value → Prop
  | .scalar _ => True
  | .list items => ItemsAreNamed items
  | .map es => AreNamed es
  | _ => False

/-- The elements are such trees. -/
def ItemsAreNamed : List Value → Prop
  | [] => True
  | v :: vs => IsNamed v ∧ ItemsAreNamed vs

/-- The entries are such trees under distinct segments. -/
def AreNamed : List (Scalar × Value) → Prop
  | [] => True
  | (k, v) :: es =>
    (∃ s, k = .str s ∧ IsSegment dot s) ∧ (∀ e ∈ es, e.1 ≠ k) ∧ IsNamed v ∧ AreNamed es

end

/-- Elements are under the numerals of their positions, which are distinct segments. -/
theorem itemsAreNamed_iff (start : Nat) (vs : List Value) :
    ItemsAreNamed vs ↔ AreNamed (numbered start vs) := by
  induction vs generalizing start with
  | nil => simp [ItemsAreNamed, AreNamed, numbered]
  | cons v vs ih =>
      have hnew : ∀ e ∈ numbered (start + 1) vs, e.1 ≠ .str (natText start) := by
        intro e he heq
        have hmem := List.mem_map_of_mem he (f := Prod.fst)
        simp only [heq, map_fst_numbered, List.map_map, List.mem_map, List.mem_range'_1,
          Function.comp_apply, Scalar.str.injEq, natText_inj] at hmem
        omega
      rw [ItemsAreNamed, numbered, AreNamed, ih (start + 1), and_iff_right hnew]
      exact (and_iff_right ⟨_, rfl, isSegment_natText start⟩).symm

/-- The parts of such a tree are such trees under distinct segments. Those of a list are under
their numerals. -/
theorem IsNamed.parts {v : Value} (h : IsNamed v) : AreNamed (parts v) := by
  match v with
  | .map es => exact h
  | .list items => exact (itemsAreNamed_iff 0 items).mp h
  | .scalar _ => trivial
  | .pair _ _ | .set _ | .loop _ => exact h.elim

/-- A tree is of this kind if its parts are. -/
theorem isNamed_of_parts {v : Value} (htree : IsTree v) (h : AreNamed (PathTree.parts v)) :
    IsNamed v := by
  obtain ⟨es, rfl⟩ | ⟨items, rfl⟩ := htree
  · exact h
  · exact (itemsAreNamed_iff 0 items).mpr h

mutual

/-- The keys of such a tree are texts. -/
theorem IsNamed.hasNames : (v : Value) → IsNamed v → HasNames v
  | .scalar _, _ => trivial
  | .list items, h => ItemsAreNamed.hasNames items h
  | .map es, h => AreNamed.hasNames es h
  | .pair _ _, h | .set _, h | .loop _, h => h.elim

/-- So are those of such trees in a list. -/
theorem ItemsAreNamed.hasNames : (vs : List Value) → ItemsAreNamed vs → ItemsHaveNames vs
  | [], _ => trivial
  | v :: vs, h => ⟨IsNamed.hasNames v h.1, ItemsAreNamed.hasNames vs h.2⟩

/-- So are those of such trees under segments, and the segments are texts themselves. -/
theorem AreNamed.hasNames : (es : List (Scalar × Value)) → AreNamed es → EntriesHaveNames es
  | [], _ => trivial
  | (_, v) :: es, ⟨⟨s, hs, _⟩, _, hv, hes⟩ =>
      ⟨⟨s, hs⟩, IsNamed.hasNames v hv, AreNamed.hasNames es hes⟩

end

/-- What is found under a key is such a tree. -/
theorem AreNamed.get? {es : List (Scalar × Value)} (h : AreNamed es) {key : Scalar} {v : Value}
    (hv : Entries.get? key es = some v) : IsNamed v := by
  induction es with
  | nil => simp at hv
  | cons e es ih =>
      obtain ⟨-, -, he, hes⟩ := h
      rw [Entries.get?_cons] at hv
      split at hv
      · cases hv
        exact he
      · exact ih hes hv

/-- A write of such a tree under a segment keeps the entries of this kind. -/
theorem AreNamed.insert {es : List (Scalar × Value)} (h : AreNamed es) {key : Text}
    (hkey : IsSegment dot key) {v : Value} (hv : IsNamed v) :
    AreNamed (Entries.insert (.str key) v es) := by
  induction es with
  | nil => exact ⟨⟨key, rfl, hkey⟩, by simp, hv, trivial⟩
  | cons e es ih =>
      obtain ⟨hname, hnew, he, hes⟩ := h
      rw [Entries.insert_cons]
      split
      · exact ⟨hname, hnew, hv, hes⟩
      · rename_i hne
        refine ⟨hname, fun f hf heq => ?_, he, ih hes⟩
        rcases Entries.mem_keys_insert hf with hfkey | hfold
        · exact hne ((Scalar.beq_str_iff _ _).mpr (heq ▸ hfkey))
        · obtain ⟨g, hg, hgkey⟩ := List.mem_map.mp hfold
          exact hnew g hg (hgkey.trans heq)

/-! ### The leaves of such trees -/

/-- What stands under a position is an element. -/
theorem snd_mem_of_mem_numbered {start : Nat} {vs : List Value} {e : Scalar × Value}
    (h : e ∈ numbered start vs) : e.2 ∈ vs := by
  induction vs generalizing start with
  | nil => simp [numbered] at h
  | cons v vs ih =>
      rcases List.mem_cons.mp h with rfl | h
      · exact List.mem_cons_self
      · exact List.mem_cons_of_mem _ (ih h)

/-- Leaves at distinct paths, all made of segments. -/
structure ArePaths (ws : List (List Text × Value)) : Prop where
  segments : ∀ w ∈ ws, ∀ s ∈ w.1, IsSegment dot s
  nodup : (ws.map Prod.fst).Nodup

/-- Whether a path starts with a name. -/
def StartsWith (name : Text) (w : List Text × Value) : Prop := w.1.head? = some name

/-- Whether a path starts with a name can be decided. -/
instance (name : Text) : DecidablePred (StartsWith name) := fun w =>
  inferInstanceAs (Decidable (w.1.head? = some name))

/-- A leaf under a name has a path that starts with the name. -/
theorem startsWith_of_mem_under {name : Text} {ws : List (List Text × Value)}
    {w : List Text × Value} (h : w ∈ under name ws) : StartsWith name w := by
  obtain ⟨u, -, rfl⟩ := List.mem_map.mp h
  rfl

/-- The leaves of entries start with the names of the entries. -/
theorem not_startsWith_of_ne {es : List (Scalar × Value)} (h : AreNamed es) {name : Text}
    (hne : ∀ e ∈ es, e.1 ≠ .str name) : ∀ w ∈ entryPaths es, ¬ StartsWith name w := by
  induction es with
  | nil => simp [entryPaths]
  | cons e es ih =>
      obtain ⟨⟨s, hs, -⟩, -, -, hes⟩ := h
      rw [List.forall_mem_cons] at hne
      intro w hw hstart
      rw [entryPaths, List.mem_append] at hw
      rcases hw with hw | hw
      · have hfirst := startsWith_of_mem_under hw
        rw [StartsWith, hstart, Option.some.injEq, hs, nameOf_str] at hfirst
        exact hne.1 (hfirst ▸ hs)
      · exact ih hes hne.2 w hw hstart

/-- Under a segment paths remain distinct and made of segments. -/
theorem arePaths_under {name : Text} (hname : IsSegment dot name) {ws : List (List Text × Value)}
    (h : ArePaths ws) : ArePaths (under name ws) where
  segments := by
    intro w hw s hs
    obtain ⟨u, hu, rfl⟩ := List.mem_map.mp hw
    rcases List.mem_cons.mp hs with rfl | hs
    · exact hname
    · exact h.segments u hu s hs
  nodup := nodup_under h.nodup

/-- Entries have leaves at distinct paths if their values have. -/
theorem AreNamed.arePaths {es : List (Scalar × Value)} (h : AreNamed es)
    (hvalues : ∀ e ∈ es, ArePaths (leafPaths e.2)) : ArePaths (entryPaths es) := by
  induction es with
  | nil => exact ⟨by simp [entryPaths], by simp [entryPaths]⟩
  | cons e es ih =>
      obtain ⟨⟨s, hs, hseg⟩, hnew, -, hes⟩ := h
      have hfirst : ArePaths (under (nameOf e.1) (leafPaths e.2)) := by
        rw [hs, nameOf_str]
        exact arePaths_under hseg (hvalues e List.mem_cons_self)
      have hrest := ih hes fun f hf => hvalues f (List.mem_cons_of_mem _ hf)
      rw [entryPaths]
      constructor
      case segments =>
        intro w hw
        rcases List.mem_append.mp hw with hw | hw
        · exact hfirst.segments w hw
        · exact hrest.segments w hw
      case nodup =>
        rw [List.map_append, List.nodup_append]
        refine ⟨hfirst.nodup, hrest.nodup, ?_⟩
        -- A path that both have would start with a name that is there twice.
        rintro a ha b hb rfl
        obtain ⟨w, hw, rfl⟩ := List.mem_map.mp ha
        obtain ⟨u, hu, heq⟩ := List.mem_map.mp hb
        have hstart : StartsWith s u := by
          rw [StartsWith, heq]
          have := startsWith_of_mem_under hw
          rwa [hs, nameOf_str] at this
        exact not_startsWith_of_ne hes (hs ▸ hnew) u hu hstart

mutual

/-- The leaves of such a tree are at distinct paths made of segments. The induction is on the
tree, with one part for items and one for entries. -/
theorem IsNamed.arePaths : (v : Value) → IsNamed v → ArePaths (leafPaths v)
  | .scalar s, _ => by
      rw [IsLeaf.leafPaths_eq (v := .scalar s) trivial]
      exact ⟨by simp, by simp⟩
  | .list [], _ => by
      rw [IsLeaf.leafPaths_eq (v := .list []) rfl]
      exact ⟨by simp, by simp⟩
  | .map [], _ => by
      rw [IsLeaf.leafPaths_eq (v := .map []) rfl]
      exact ⟨by simp, by simp⟩
  | .list (v :: vs), h => by
      rw [leafPaths, itemPaths_eq]
      refine ((itemsAreNamed_iff 0 (v :: vs)).mp h).arePaths fun e he => ?_
      exact ItemsAreNamed.arePaths (v :: vs) h e.2 (snd_mem_of_mem_numbered he)
  | .map (e :: es), h => by
      rw [leafPaths]
      exact AreNamed.arePaths h (AreNamed.arePaths_values (e :: es) h)
  | .pair _ _, h | .set _, h | .loop _, h => h.elim

/-- The same of each element of a list. -/
theorem ItemsAreNamed.arePaths : (vs : List Value) → ItemsAreNamed vs →
    ∀ v ∈ vs, ArePaths (leafPaths v)
  | [], _ => by simp
  | v :: vs, h => by
      rw [List.forall_mem_cons]
      exact ⟨IsNamed.arePaths v h.1, ItemsAreNamed.arePaths vs h.2⟩

/-- The same of each value of a mapping. -/
theorem AreNamed.arePaths_values : (es : List (Scalar × Value)) → AreNamed es →
    ∀ e ∈ es, ArePaths (leafPaths e.2)
  | [], _ => by simp
  | (k, v) :: es, h => by
      rw [List.forall_mem_cons]
      exact ⟨IsNamed.arePaths v h.2.2.1, AreNamed.arePaths_values es h.2.2.2⟩

end

/-- A mapping or list is flattened into its leaves under their joined paths. -/
theorem IsNamed.flatten_eq {tree : Value} (h : IsNamed tree) (hroot : IsTree tree) :
    flatten "." tree = .ok (flatOf (entryPaths (PathTree.parts tree))) := by
  by_cases hparts : PathTree.parts tree = []
  -- Without parts the tree counts as nothing, and no leaf is shown.
  · have hempty : tree.isTruthy = false := by
      obtain ⟨es, rfl⟩ | ⟨items, rfl⟩ := hroot
      · exact congrArg (!·.isEmpty) hparts
      · cases items with
        | nil => rfl
        | cons v vs => simp [PathTree.parts, numbered] at hparts
    rw [flatten, if_neg (by simp [hempty]), hparts]
    rfl
  · have htrue : tree.isTruthy = true := by
      obtain ⟨es, rfl⟩ | ⟨items, rfl⟩ := hroot
      · cases es with
        | nil => exact absurd rfl hparts
        | cons e es => rfl
      · cases items with
        | nil => exact absurd rfl hparts
        | cons v vs => rfl
    have hpaths := IsNamed.arePaths tree h
    rw [← leafPaths_of_parts_ne_nil hparts]
    exact PathTree.flatten_eq (IsNamed.hasNames tree h) htrue
      (fun w hw => ⟨ne_nil_of_mem_leafPaths hroot htrue hw, hpaths.segments w hw⟩) hpaths.nodup

/-! ### One write under a name -/

/-- A write under a name puts the leaves of the value in the place of those that were below this
name, and leaves all others. -/
theorem exists_others_of_insert (name : Text) {es : List (Scalar × Value)} (h : AreNamed es) :
    ∃ others, (∀ w ∈ others, ¬ StartsWith name w) ∧
      (∀ v, (entryPaths (Entries.insert (.str name) v es)).Perm (under name (leafPaths v) ++ others)) ∧
      (entryPaths es).Perm
        (((Entries.get? (.str name) es).elim [] fun v => under name (leafPaths v)) ++ others) := by
  induction es with
  | nil => exact ⟨[], by simp, fun v => by simp [Entries.insert, entryPaths], by simp [entryPaths]⟩
  | cons e es ih =>
      obtain ⟨⟨s, hs, -⟩, hnew, -, hes⟩ := h
      by_cases hkey : (e.1 == Scalar.str name) = true
      · have hname : e.1 = .str name := (Scalar.beq_str_iff _ _).mp hkey
        refine ⟨entryPaths es, not_startsWith_of_ne hes (hname ▸ hnew), fun v => ?_, ?_⟩
        · rw [Entries.insert_cons, if_pos hkey, entryPaths, hname, nameOf_str]
        · rw [Entries.get?_cons, if_pos hkey, entryPaths, hname, nameOf_str]
          rfl
      · obtain ⟨others, hothers, hinsert, hget⟩ := ih hes
        -- The leaves of this entry are in front of what is below the name.
        have hfront : ∀ {ws below : List (List Text × Value)}, ws.Perm (below ++ others) →
            (under (nameOf e.1) (leafPaths e.2) ++ ws).Perm
              (below ++ (under (nameOf e.1) (leafPaths e.2) ++ others)) := by
          intro ws below hws
          refine (hws.append_left _).trans ?_
          rw [← List.append_assoc, ← List.append_assoc]
          exact List.perm_append_comm.append_right _
        refine ⟨under (nameOf e.1) (leafPaths e.2) ++ others, fun w hw hstart => ?_, fun v => ?_, ?_⟩
        · rcases List.mem_append.mp hw with hw | hw
          · have hfirst := startsWith_of_mem_under hw
            rw [StartsWith, hstart, Option.some.injEq, hs, nameOf_str] at hfirst
            exact hkey ((Scalar.beq_str_iff _ _).mpr (hfirst ▸ hs))
          · exact hothers w hw hstart
        · rw [Entries.insert_cons, if_neg hkey, entryPaths]
          exact hfront (hinsert v)
        · rw [Entries.get?_cons, if_neg hkey, entryPaths]
          exact hfront hget

/-! ### One write at a path -/

/-- Leaves below a path. -/
def below (segs : List Text) (ws : List (List Text × Value)) : List (List Text × Value) :=
  ws.map fun w => (segs ++ w.1, w.2)

/-- A path below another one, the first segment and the others. -/
theorem below_cons (s : Text) (rest : List Text) (ws : List (List Text × Value)) :
    below (s :: rest) ws = under s (below rest ws) := by
  simp [below, under]

/-- The leaves that a write at a path leaves as they were. -/
def apartFrom (segs : List Text) (ws : List (List Text × Value)) : List (List Text × Value) :=
  ws.filter (Apart ·.1 segs)

/-- What stands apart from a path is, under one segment, apart from the path with that segment
in front. -/
theorem apartFrom_under (s : Text) (rest : List Text) (ws : List (List Text × Value)) :
    apartFrom (s :: rest) (under s ws) = under s (apartFrom rest ws) := by
  simp only [apartFrom, under, List.filter_map]
  congr 1
  apply List.filter_congr
  intro w _
  exact decide_eq_decide.mpr apart_cons_iff

/-- Nothing is apart from the empty path, which all others lead through. -/
theorem apartFrom_nil (ws : List (List Text × Value)) : apartFrom [] ws = [] :=
  List.filter_eq_nil_iff.mpr fun w _ => by simpa using not_apart_nil_right w.1

/-- Leaves that start with other names are left. -/
theorem apartFrom_of_not_startsWith {s : Text} (rest : List Text) {ws : List (List Text × Value)}
    (hne : ∀ w ∈ ws, w.1 ≠ []) (h : ∀ w ∈ ws, ¬ StartsWith s w) : apartFrom (s :: rest) ws = ws := by
  refine List.filter_eq_self.mpr fun w hw => decide_eq_true ?_
  obtain ⟨t, others, ht⟩ := List.exists_cons_of_ne_nil (hne w hw)
  have hst : t ≠ s := fun heq => h w hw (by rw [StartsWith, ht, heq]; rfl)
  rw [ht]
  exact ⟨fun hpre => hst (List.cons_prefix_cons.mp hpre).1,
    fun hpre => hst (List.cons_prefix_cons.mp hpre).1.symm⟩

/-- What is below a place has the same leaves left, as a value or by its parts: a value without
parts is in the way. -/
theorem apartFrom_leafPaths {rest : List Text} (v : Value) :
    apartFrom rest (leafPaths v) = apartFrom rest (entryPaths (parts v)) := by
  by_cases hparts : parts v = []
  · rw [leafPaths_of_parts_eq_nil hparts, hparts, entryPaths]
    simpa [apartFrom] using not_apart_nil_left rest
  · rw [leafPaths_of_parts_ne_nil hparts]

/-- A value written under a name, with leaves below a path in it and its old ones apart from the
path: among all entries the path goes on behind the name. -/
theorem entryPaths_insert_below {name : Text} {segs : List Text}
    {es : List (Scalar × Value)} {child : Value} {new : List (List Text × Value)} (h : AreNamed es)
    (hchild : (leafPaths child).Perm
      (below segs new
        ++ apartFrom segs ((Entries.get? (.str name) es).elim [] leafPaths))) :
    (entryPaths (Entries.insert (.str name) child es)).Perm
      (below (name :: segs) new ++ apartFrom (name :: segs) (entryPaths es)) := by
  obtain ⟨others, hothers, hinsert, hold⟩ := exists_others_of_insert name h
  set old := (Entries.get? (.str name) es).elim [] fun v => under name (leafPaths v) with hold_eq
  -- Of the leaves from before, those with other names are all left.
  have hleft : (apartFrom (name :: segs) (entryPaths es)).Perm
      (apartFrom (name :: segs) old ++ others) := by
    have hnonempty : ∀ w ∈ others, w.1 ≠ [] := fun w hw =>
      ne_nil_of_mem_entryPaths (hold.symm.subset (List.mem_append_right _ hw))
    refine (hold.filter _).trans (List.Perm.of_eq ?_)
    rw [List.filter_append]
    exact congrArg (_ ++ ·) (apartFrom_of_not_startsWith _ hnonempty hothers)
  have holdUnder : old = under name ((Entries.get? (.str name) es).elim [] leafPaths) := by
    rw [hold_eq]
    cases Entries.get? (Scalar.str name) es <;> rfl
  have hunder := hchild.map fun w : List Text × Value => (name :: w.1, w.2)
  rw [List.map_append] at hunder
  refine (hinsert child).trans ((hunder.append_right others).trans ?_)
  rw [below_cons, List.append_assoc]
  refine List.Perm.append_left _ (List.Perm.trans ?_ hleft.symm)
  rw [holdUnder, apartFrom_under]
  exact List.Perm.refl _

/-- After a write the leaves are those of the value, below the place of the write, and those
from before that are apart from the place. -/
theorem entryPaths_setAt {value node result : Value} {segs : List Text} (hne : segs ≠ [])
    (hnode : AreNamed (parts node)) (h : setAt value node segs = .ok result) :
    (entryPaths (parts result)).Perm
      (below (placeOf node segs) (leafPaths value)
        ++ apartFrom (placeOf node segs) (entryPaths (parts node))) := by
  induction segs generalizing node result with
  | nil => exact absurd rfl hne
  | cons s rest ih =>
      obtain ⟨place, child, hplace, hchild, rfl⟩ := setAt_cons_eq_ok h
      obtain ⟨hget, hput⟩ := slot_cases hplace
      rw [hput, placeOf_cons rest hplace]
      refine entryPaths_insert_below hnode ?_
      -- Behind the last segment stands the value, and behind others what the rest of them writes.
      by_cases hrest : rest = []
      · subst hrest
        cases hchild
        simp [placeOf, apartFrom_nil, below]
      · rw [leafPaths_of_parts_ne_nil (parts_ne_nil_of_setAt hrest hchild)]
        rw [hget] at hchild ⊢
        cases hv : Entries.get? (.str place.key) (parts node) with
        | none =>
            rw [hv, Option.getD_none] at hchild
            exact ih hrest trivial hchild
        | some v =>
            rw [hv, Option.getD_some] at hchild
            have hperm := ih hrest (hnode.get? hv).parts hchild
            rwa [Option.elim_some, Option.getD_some, apartFrom_leafPaths]

/-- A segment is spelt as lists read it: if it is of digits, these are the numeral of a number,
and not more than can be read. -/
def IsSpelt (s : Text) : Prop :=
  s.all isDigit = true → (∃ n, s = natText n) ∧ s.length ≤ maxDigits

/-- A segment that is spelt so addresses a place of its own name in every node. -/
theorem exists_slot_of_isSpelt {s : Text} (h : IsSpelt s) (node : Value) :
    ∃ place, slot node s = .ok place ∧ place.key = s := by
  -- What is no container becomes one: a list for `0`, and a mapping otherwise.
  have hnew : ∃ place, (if s = ("0" : Text) then .ok (.element [] 0) else .ok (.field [] s) :
      Except Fault Slot) = .ok place ∧ place.key = s := by
    by_cases hs : s = ("0" : Text)
    · exact ⟨_, if_pos hs, hs.symm⟩
    · exact ⟨_, if_neg hs, rfl⟩
  cases node with
  | map es => exact ⟨_, rfl, rfl⟩
  | list items =>
      by_cases hdigits : s.all isDigit = true
      -- Digits are the numeral of the position that they are read as.
      · obtain ⟨⟨n, rfl⟩, hlength⟩ := h hdigits
        have hindex : index? (natText n) = .ok (if n ≤ maxIndex then some n else none) := by
          rw [index?, if_pos (by simp [natText_ne_nil, hdigits]), readInt?_natText hlength]
          simp
        refine ⟨_, slot_list_of_index? items hindex, ?_⟩
        split
        · rw [Option.elim_some]
          split <;> rfl
        · rfl
      · have hindex : index? s = .ok none := by
          rw [index?, if_neg (by simp [hdigits])]
        exact ⟨_, slot_list_of_index? items hindex, rfl⟩
  | scalar _ => exact hnew
  | pair _ _ => exact hnew
  | set _ => exact hnew
  | loop _ => exact hnew

/-- A write at segments that are spelt so succeeds, and its place is its path. -/
theorem exists_setAt_of_isSpelt (value : Value) {segs : List Text} (h : ∀ s ∈ segs, IsSpelt s)
    (node : Value) : ∃ result, setAt value node segs = .ok result ∧ placeOf node segs = segs := by
  induction segs generalizing node with
  | nil => exact ⟨value, by simp [setAt], by simp [placeOf]⟩
  | cons s rest ih =>
      rw [List.forall_mem_cons] at h
      obtain ⟨place, hplace, hkey⟩ := exists_slot_of_isSpelt h.1 node
      obtain ⟨child, hchild, hrest⟩ := ih h.2 (place.get?.getD .null)
      refine ⟨place.put child, ?_, ?_⟩
      · rw [setAt, hplace]
        show (setAt value (place.get?.getD .null) rest >>= fun child => .ok (place.put child)) = _
        rw [hchild]
        rfl
      · rw [placeOf_cons rest hplace, hkey, hrest]

/-- A write leaves a tree that paths lead through. -/
theorem isNamed_setAt {value node result : Value} {segs : List Text} (hvalue : IsNamed value)
    (hnode : AreNamed (parts node)) (hsegs : ∀ s ∈ segs, IsSegment dot s)
    (h : setAt value node segs = .ok result) : IsNamed result := by
  have hplaces := isSegment_placeOf h hsegs
  induction segs generalizing node result with
  | nil =>
      cases h
      exact hvalue
  | cons s rest ih =>
      obtain ⟨place, child, hplace, hchild, rfl⟩ := setAt_cons_eq_ok h
      obtain ⟨hget, hput⟩ := slot_cases hplace
      rw [placeOf_cons rest hplace, List.forall_mem_cons] at hplaces
      -- The rest of the path is written into a value of the node, or into nothing.
      have hold : AreNamed (parts (place.get?.getD .null)) := by
        rw [hget]
        cases hv : Entries.get? (.str place.key) (parts node) with
        | none => trivial
        | some v => exact (hnode.get? hv).parts
      refine isNamed_of_parts (place.isTree_put child) ?_
      rw [hput]
      exact hnode.insert hplaces.1
        (ih hold (fun t ht => hsegs t (List.mem_cons_of_mem _ ht)) hchild hplaces.2)

/-! ### Joined paths -/

/-- Two paths are on one way: they are the same, or one goes on from the other. -/
def OnOneWay (path other : Text) : Prop :=
  path = other ∨ path ++ [dot] <+: other ∨ other ++ [dot] <+: path

/-- Whether two paths are on one way can be decided. -/
instance (path other : Text) : Decidable (OnOneWay path other) :=
  inferInstanceAs (Decidable (_ ∨ _ ∨ _))

/-- Segments with a dot in front of each, in a row. -/
theorem dotted_append (a b : List Text) : dotted dot (a ++ b) = dotted dot a ++ dotted dot b := by
  induction a with
  | nil => rfl
  | cons s a ih => rw [List.cons_append, dotted_cons, dotted_cons, ih]; simp

/-- Two paths that are joined have a dot between them. -/
theorem joined_append {a b : List Text} (ha : a ≠ []) (hb : b ≠ []) :
    joined (a ++ b) = joined a ++ [dot] ++ joined b := by
  obtain ⟨s, rest, rfl⟩ := List.exists_cons_of_ne_nil ha
  obtain ⟨t, others, rfl⟩ := List.exists_cons_of_ne_nil hb
  rw [List.cons_append, joined_cons, joined_cons, joined_cons, dotted_append, dotted_cons]
  simp

/-- A joined path with a dot behind it leads to the paths that have all its segments and more. -/
theorem joined_dot_prefix_iff {a b : List Text} (ha : ∀ s ∈ a, IsSegment dot s)
    (hb : ∀ s ∈ b, IsSegment dot s) (hane : a ≠ []) (hbne : b ≠ []) :
    joined a ++ [dot] <+: joined b ↔ a <+: b ∧ a ≠ b := by
  have hcut : ∀ {c : List Text}, c ≠ [] → (∀ s ∈ c, IsSegment dot s) →
      splitOn [dot] (joined c) = c := by
    intro c hne hc
    obtain ⟨s, rest, rfl⟩ := List.exists_cons_of_ne_nil hne
    rw [joined_cons, splitOn_dotted dot s rest hc]
  constructor
  · rintro ⟨rest, hrest⟩
    have hsplit : b = a ++ splitOn [dot] rest := by
      have hdot : joined b = joined a ++ dot :: rest := by
        rw [← hrest, List.append_assoc]
        rfl
      rw [← hcut hbne hb, hdot, splitOn_append, hcut hane ha]
    refine ⟨⟨_, hsplit.symm⟩, fun heq => ?_⟩
    rw [← heq, List.self_eq_append_right] at hsplit
    exact splitOn_ne_nil _ _ hsplit
  · rintro ⟨⟨rest, rfl⟩, hne⟩
    have hrest : rest ≠ [] := fun hnil => hne (by rw [hnil, List.append_nil])
    rw [joined_append hane hrest]
    exact List.prefix_append _ _

/-- Joined paths are on one way exactly if one leads through the other. -/
theorem onOneWay_joined_iff {a b : List Text} (ha : ∀ s ∈ a, IsSegment dot s)
    (hb : ∀ s ∈ b, IsSegment dot s) (hane : a ≠ []) (hbne : b ≠ []) :
    OnOneWay (joined a) (joined b) ↔ ¬ Apart b a := by
  rw [OnOneWay, joined_dot_prefix_iff ha hb hane hbne, joined_dot_prefix_iff hb ha hbne hane, Apart]
  constructor
  · rintro (heq | ⟨hpre, -⟩ | ⟨hpre, -⟩) hapart
    · exact hapart.1 (joined_injective ha hb hane hbne heq ▸ List.prefix_rfl)
    · exact hapart.2 hpre
    · exact hapart.1 hpre
  · intro hnot
    by_cases heq : a = b
    · exact .inl (heq ▸ rfl)
    · by_cases hpre : a <+: b
      · exact .inr (.inl ⟨hpre, heq⟩)
      · refine .inr (.inr ⟨?_, Ne.symm heq⟩)
        by_contra hpre'
        exact hnot ⟨hpre', hpre⟩

/-! ### The frame of a write -/

/-- The entries that a value has below a path: the leaves of a container under their own paths
behind the path, and any other value, and an empty container, at the path itself. -/
def PlacedAt (path : Text) (value : Value) (entries : List (Text × Value)) : Prop :=
  if IsLeaf value then entries = [(path, value)]
  else ∃ inner, flatten "." value = .ok inner ∧
    entries = inner.map fun e => (path ++ [dot] ++ e.1, e.2)

/-- The leaves of a value below a path are placed there. -/
theorem placedAt_flatOf {segs : List Text} (hne : segs ≠ []) {value : Value} (h : IsNamed value) :
    PlacedAt (joined segs) value (flatOf (below segs (leafPaths value))) := by
  rw [PlacedAt]
  split
  · rename_i hleaf
    simp [hleaf.leafPaths_eq, below, flatOf]
  · rename_i hleaf
    have hroot : IsTree value := by
      cases value with
      | map es => exact .inl ⟨es, rfl⟩
      | list items => exact .inr ⟨items, rfl⟩
      | scalar s => exact absurd trivial hleaf
      | _ => exact h.elim
    -- A value that is no leaf has parts, so it has leaves below it.
    have hparts : parts value ≠ [] := by
      intro hnil
      obtain ⟨es, rfl⟩ | ⟨items, rfl⟩ := hroot
      · exact hleaf hnil
      · cases items with
        | nil => exact hleaf rfl
        | cons v vs => simp [parts, numbered] at hnil
    refine ⟨_, h.flatten_eq hroot, ?_⟩
    rw [leafPaths_of_parts_ne_nil hparts, flatOf, below, flatOf, List.map_map, List.map_map]
    apply List.map_congr_left
    intro w hw
    exact congrArg (·, w.2) (joined_append hne (ne_nil_of_mem_entryPaths hw))

/-- A write at a path whose digits are numerals succeeds. Afterwards the tree has the entries of
the value below the path, and those entries from before that are not on one way with it. -/
theorem flatten_setAtPath {tree value : Value} {segs : List Text} (hroot : IsTree tree)
    (htree : IsNamed tree) (hvalue : IsNamed value) (hne : segs ≠ [])
    (hsegs : ∀ s ∈ segs, IsSegment dot s) (hspelt : ∀ s ∈ segs, IsSpelt s) :
    ∃ result before after placed,
      setAtPath "." tree (joined segs) value = .ok result ∧
      flatten "." tree = .ok before ∧ flatten "." result = .ok after ∧
      PlacedAt (joined segs) value placed ∧
      after.Perm (before.filter (¬ OnOneWay (joined segs) ·.1) ++ placed) := by
  obtain ⟨result, hset, hplace⟩ := exists_setAt_of_isSpelt value hspelt tree
  have hresult : IsTree result := by
    obtain ⟨s, rest, rfl⟩ := List.exists_cons_of_ne_nil hne
    exact isTree_setAt hset
  have hnamed : IsNamed result := isNamed_setAt hvalue htree.parts hsegs hset
  refine ⟨result, _, _, _, ?_, htree.flatten_eq hroot, hnamed.flatten_eq hresult,
    placedAt_flatOf hne hvalue, ?_⟩
  · rw [setAtPath_of_segments value hroot (segments_joined hne hsegs), hset]
  · have hperm := entryPaths_setAt hne htree.parts hset
    rw [hplace] at hperm
    refine ((hperm.trans List.perm_append_comm).map _).trans (List.Perm.of_eq ?_)
    rw [List.map_append]
    refine congrArg (· ++ _) ?_
    -- The same entries are left, told by their segments or by their joined paths.
    rw [flatOf, List.filter_map, apartFrom]
    refine congrArg (List.map _) (List.filter_congr fun w hw => ?_)
    have hw' := AreNamed.arePaths htree.parts (AreNamed.arePaths_values _ htree.parts)
    rw [Function.comp_apply, decide_eq_decide,
      onOneWay_joined_iff hsegs (hw'.segments w hw) hne (ne_nil_of_mem_entryPaths hw), not_not]

/-- A list at the root and one inside, with a number for a name and an empty list. -/
def mixedTree : Value :=
  .list [.object [("tags", .list [.str "a", .null]), ("7", .int 1)], .list [], .str "end"]

/-- A write through a list and a name that is a number meets the conditions and the frame
of a write. -/
theorem flatten_setAtPath_mixedTree :
    (IsTree mixedTree ∧ IsNamed mixedTree ∧ IsNamed (.object [("n", .list [.int 2, .map []])])) ∧
      ∃ result before after placed,
        setAtPath "." mixedTree (joined ["0", "tags", "x"]) (.object [("n", .list [.int 2, .map []])])
          = .ok result ∧
        flatten "." mixedTree = .ok before ∧ flatten "." result = .ok after ∧
        PlacedAt (joined ["0", "tags", "x"]) (.object [("n", .list [.int 2, .map []])]) placed ∧
        after.Perm (before.filter (¬ OnOneWay (joined ["0", "tags", "x"]) ·.1) ++ placed) := by
  have hroot : IsTree mixedTree := .inr ⟨_, rfl⟩
  have htree : IsNamed mixedTree :=
    ⟨⟨⟨_, rfl, by decide⟩, by decide, ⟨trivial, trivial, trivial⟩,
      ⟨_, rfl, by decide⟩, by decide, trivial, trivial⟩, trivial, trivial, trivial⟩
  have hvalue : IsNamed (.object [("n", .list [.int 2, .map []])]) :=
    ⟨⟨_, rfl, by decide⟩, by decide, ⟨trivial, trivial, trivial⟩, trivial⟩
  have hspelt : ∀ s ∈ [ofString "0", "tags", "x"], IsSpelt s := by
    simp only [List.forall_mem_cons, List.not_mem_nil, false_imp_iff, implies_true, and_true]
    exact ⟨fun _ => ⟨⟨0, rfl⟩, by decide⟩, nofun, nofun⟩
  exact ⟨⟨hroot, htree, hvalue⟩,
    flatten_setAtPath hroot htree hvalue (by decide) (by decide) hspelt⟩

-- The list becomes a mapping, and its elements stay under their positions.
example : (setAtPath "." (.list [.int 1, .list [.int 2]]) "x.0" .null >>= flatten ".")
    = .ok [("0", .int 1), ("1.0", .int 2), ("x.0", .null)] := by decide

end RouteDocs.PathTree
