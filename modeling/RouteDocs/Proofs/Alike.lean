import RouteDocs.Proofs.Entries
import RouteDocs.Synthesis

/-!
# `RouteDocs.Proofs.Alike`: documents that differ by what was drawn

Two runs over the same routes draw different values, and their documents differ by these
values only. `Alike D G p v w` says so of two values that stand at the place `p` of a
document: the same tree with the same keys in the same order, and leaves that are equal, but
for three kinds of places.

* In an example that may be made up, two leaves may also be related by `D`.
* In an example that an author gives in a nested schema, two leaves may also be related by
  `G`. Where `G` holds of no leaves, such examples are equal.
* The text of a code sample shows examples, so it may be any text.

Where a value stands is found by following keys from the root (`Place.enter`). The elements
of a list stand where the list does. Pairs, sets and values that come round are never made
here, so they have to be equal.

Two lemmas carry all that is said of the relation as such. `of_forall` takes what holds for
each of a family of relations to one relation, at another place if the leaves allow it, and
`join` relates two values that are both like a third.
-/

set_option autoImplicit false

namespace RouteDocs

open Synthesis

/-- Where in a document a value stands, as far as that decides what may differ. -/
inductive Place where
  /-- Where nothing differs. -/
  | fixed
  /-- In an example that may be made up. -/
  | sample
  /-- In an example that the author gives in a nested schema. -/
  | given
  /-- The text of a code sample. -/
  | code
  /-- In a nested schema. -/
  | schema
  /-- In a mapping whose values all stand at one place. -/
  | each (inner : Place)
  /-- In a mapping with a value of its own place under one key. The other keys lead where
  `rest` says. -/
  | under (key : String) (inner rest : Place)
deriving DecidableEq, Repr

namespace Place

/-- Where the value under a key stands. -/
def enter : Place → Scalar → Place
  | .fixed, _ => .fixed
  | .sample, _ => .sample
  | .given, _ => .given
  | .code, _ => .code
  | .schema, key => if key = .str "example" then .given else .schema
  | .each inner, _ => inner
  | .under name inner rest, key => if key = .str name then inner else rest.enter key

/-- What two leaves at a place may be. -/
def Leaf (D G : Scalar → Scalar → Prop) : Place → Scalar → Scalar → Prop
  | .sample, s, t => s = t ∨ D s t
  | .given, s, t => s = t ∨ G s t
  | .code, s, t => s = t ∨ ∃ a b, s = .str a ∧ t = .str b
  | _, s, t => s = t

section
variable {D D' D'' G G' G'' : Scalar → Scalar → Prop}

/-- A leaf may be what it is, at every place. -/
theorem leaf_refl (p : Place) (s : Scalar) : p.Leaf D G s s := by
  cases p with
  | sample | given | code => exact .inl rfl
  | _ => rfl

/-- What two leaves may be in each of a family of ways, they may be in one that follows from
all of them. -/
theorem leaf_of_forall {ι : Type} [Nonempty ι] {D G : ι → Scalar → Scalar → Prop}
    {D' G' : Scalar → Scalar → Prop} (hD : ∀ s t, (∀ i, s = t ∨ D i s t) → s = t ∨ D' s t)
    (hG : ∀ s t, (∀ i, s = t ∨ G i s t) → s = t ∨ G' s t) {p : Place} {s t : Scalar}
    (h : ∀ i, p.Leaf (D i) (G i) s t) : p.Leaf D' G' s t := by
  cases p with
  | sample => exact hD s t h
  | given => exact hG s t h
  | _ => exact h (Classical.arbitrary ι)

/-- Leaves that are both like a third are like each other, if the relations of the examples
allow it. -/
theorem Leaf.join (hD : ∀ s t u, s = u ∨ D s u → t = u ∨ D' t u → s = t ∨ D'' s t)
    (hG : ∀ s t u, s = u ∨ G s u → t = u ∨ G' t u → s = t ∨ G'' s t) {p : Place}
    {s t u : Scalar} (h : p.Leaf D G s u) (h' : p.Leaf D' G' t u) : p.Leaf D'' G'' s t := by
  cases p with
  | sample => exact hD s t u h h'
  | given => exact hG s t u h h'
  -- Any two texts may be the texts of one sample.
  | code =>
      obtain rfl | ⟨a, b, rfl, rfl⟩ := h
      · obtain rfl | ⟨a, b, rfl, rfl⟩ := h'
        · exact .inl rfl
        · exact .inr ⟨b, a, rfl, rfl⟩
      · obtain rfl | ⟨a', b', rfl, -⟩ := h'
        · exact .inr ⟨a, b, rfl, rfl⟩
        · exact .inr ⟨a, a', rfl, rfl⟩
  | _ => exact Eq.trans h (Eq.symm h')

end

/-- Keys that are like each other lead to the same place: the keys that matter are texts, and
a text is like no other key. -/
theorem enter_congr (p : Place) {k k' : Scalar} (h : (k == k') = true) : p.enter k = p.enter k' := by
  -- Other keys may be like each other and not equal, as 1 and 1.0 are.
  have htext : ∀ s : Text, k = .str s ↔ k' = .str s := by
    intro s
    rw [← Scalar.beq_str_iff, ← Scalar.beq_str_iff]
    exact Bool.eq_iff_iff.mp (BEq.congr_left h)
  induction p with
  | under name inner rest _ ih => simp only [enter, htext, ih]
  | _ => simp only [enter, htext]

end Place

mutual

/-- Two values at a place that differ by what was drawn. -/
inductive Alike (D G : Scalar → Scalar → Prop) : Place → Value → Value → Prop where
  | scalar {p : Place} {s t : Scalar} (h : p.Leaf D G s t) : Alike D G p (.scalar s) (.scalar t)
  | list {p : Place} {vs ws : List Value} (h : AlikeItems D G p vs ws) :
      Alike D G p (.list vs) (.list ws)
  | pair (p : Place) (k v : Value) : Alike D G p (.pair k v) (.pair k v)
  | set (p : Place) (members : List Scalar) : Alike D G p (.set members) (.set members)
  | map {p : Place} {es fs : List (Scalar × Value)} (h : AlikeEntries D G p es fs) :
      Alike D G p (.map es) (.map fs)
  | loop (p : Place) (c : Container) : Alike D G p (.loop c) (.loop c)

/-- Two lists of values at a place, alike one by one. -/
inductive AlikeItems (D G : Scalar → Scalar → Prop) : Place → List Value → List Value → Prop where
  | nil (p : Place) : AlikeItems D G p [] []
  | cons {p : Place} {v w : Value} {vs ws : List Value} (h : Alike D G p v w)
      (hs : AlikeItems D G p vs ws) : AlikeItems D G p (v :: vs) (w :: ws)

/-- Two lists of entries of a mapping at a place, alike one by one. -/
inductive AlikeEntries (D G : Scalar → Scalar → Prop) :
    Place → List (Scalar × Value) → List (Scalar × Value) → Prop where
  | nil (p : Place) : AlikeEntries D G p [] []
  | cons {p : Place} {k : Scalar} {v w : Value} {es fs : List (Scalar × Value)}
      (h : Alike D G (p.enter k) v w) (hs : AlikeEntries D G p es fs) :
      AlikeEntries D G p ((k, v) :: es) ((k, w) :: fs)

end

namespace Alike

variable {D D' D'' G G' G'' : Scalar → Scalar → Prop} {p : Place}

/-- Two entries of a mapping at a place. -/
abbrev Under (D G : Scalar → Scalar → Prop) (p : Place) (key : Scalar) : Value → Value → Prop :=
  Alike D G (p.enter key)

/-- Lists of values are alike when their values are, one by one. -/
theorem alikeItems_iff {vs ws : List Value} :
    AlikeItems D G p vs ws ↔ List.Forall₂ (Alike D G p) vs ws := by
  constructor
  · intro h
    induction vs generalizing ws with
    | nil =>
        cases h
        exact .nil
    | cons v vs ih =>
        cases h with
        | cons h hs => exact .cons h (ih hs)
  · intro h
    induction h with
    | nil => exact .nil p
    | cons h _ ih => exact .cons h ih

/-- Entries are alike when they have the same keys in the same order, and values that are alike at
the place each key leads to. -/
theorem alikeEntries_iff {es fs : List (Scalar × Value)} :
    AlikeEntries D G p es fs ↔ Entries.Matched (Under D G p) es fs := by
  constructor
  · intro h
    induction es generalizing fs with
    | nil =>
        cases h
        exact .nil
    | cons e es ih =>
        cases h with
        | cons h hs => exact .cons ⟨rfl, h⟩ (ih hs)
  · intro h
    induction h with
    | nil => exact .nil p
    | @cons e f es fs hef _ ih =>
        obtain ⟨k, v⟩ := e
        obtain ⟨l, w⟩ := f
        obtain ⟨rfl, h⟩ := hef
        exact .cons h ih

/-- Two lists are alike when their items are, at the place of the list itself. -/
@[simp] theorem list_iff {vs ws : List Value} :
    Alike D G p (.list vs) (.list ws) ↔ List.Forall₂ (Alike D G p) vs ws :=
  ⟨fun h => by cases h with | list h => exact alikeItems_iff.mp h,
   fun h => .list (alikeItems_iff.mpr h)⟩

/-- Two mappings are alike when their entries are, each at the place its key leads to. -/
@[simp] theorem map_iff {es fs : List (Scalar × Value)} :
    Alike D G p (.map es) (.map fs) ↔ Entries.Matched (Under D G p) es fs :=
  ⟨fun h => by cases h with | map h => exact alikeEntries_iff.mp h,
   fun h => .map (alikeEntries_iff.mpr h)⟩

/-- Keys that are like each other have values that stand at the same place. -/
theorem respects_under : Entries.Respects (Under D G p) := by
  intro k k' hk v w h
  rw [Under, ← p.enter_congr hk]
  exact h

mutual

/-- A value is like itself. -/
theorem refl (p : Place) : (v : Value) → Alike D G p v v
  | .scalar s => .scalar (p.leaf_refl s)
  | .list vs => .list (reflItems p vs)
  | .pair k v => .pair p k v
  | .set members => .set p members
  | .map es => .map (reflEntries p es)
  | .loop c => .loop p c

/-- A list of values is like itself. -/
theorem reflItems (p : Place) : (vs : List Value) → AlikeItems D G p vs vs
  | [] => .nil p
  | v :: vs => .cons (refl p v) (reflItems p vs)

/-- A list of entries is like itself. -/
theorem reflEntries (p : Place) : (es : List (Scalar × Value)) → AlikeEntries D G p es es
  | [] => .nil p
  | (k, v) :: es => .cons (refl (p.enter k) v) (reflEntries p es)

end

/-- Entries are like themselves. -/
theorem matched_refl (p : Place) (es : List (Scalar × Value)) :
    Entries.Matched (Under D G p) es es :=
  alikeEntries_iff.mp (reflEntries p es)

/-! ### From one relation to another -/

section
variable {ι : Type} [Nonempty ι] {F H : ι → Scalar → Scalar → Prop} {ρ : Place → Place → Prop}

mutual

/-- Values that are alike in each of a family of ways are alike in one that follows from all of
them at the leaves. The place may be another one, as long as `ρ` goes on to relate the two
along every key. -/
theorem of_forall (henter : ∀ p q key, ρ p q → ρ (p.enter key) (q.enter key))
    (hleaf : ∀ p q s t, ρ p q → (∀ i, p.Leaf (F i) (H i) s t) → q.Leaf D G s t) {p q : Place}
    (hpq : ρ p q) : (v w : Value) → (∀ i, Alike (F i) (H i) p v w) → Alike D G q v w
  | .scalar s, w, h => by
    -- One of the ways tells the form of the second value, and then all of them speak of its
    -- parts.
    have hleaves : ∃ t, w = .scalar t ∧ ∀ i, p.Leaf (F i) (H i) s t := by
      cases h (Classical.arbitrary ι) with
      | scalar _ =>
          refine ⟨_, rfl, fun i => ?_⟩
          cases h i with
          | scalar h => exact h
    obtain ⟨t, rfl, hleaves⟩ := hleaves
    exact .scalar (hleaf p q s t hpq hleaves)
  | .list vs, w, h => by
    have hitems : ∃ ws, w = .list ws ∧ ∀ i, AlikeItems (F i) (H i) p vs ws := by
      cases h (Classical.arbitrary ι) with
      | list _ =>
          refine ⟨_, rfl, fun i => ?_⟩
          cases h i with
          | list h => exact h
    obtain ⟨ws, rfl, hitems⟩ := hitems
    exact .list (items_of_forall henter hleaf hpq vs ws hitems)
  | .map es, w, h => by
    have hentries : ∃ fs, w = .map fs ∧ ∀ i, AlikeEntries (F i) (H i) p es fs := by
      cases h (Classical.arbitrary ι) with
      | map _ =>
          refine ⟨_, rfl, fun i => ?_⟩
          cases h i with
          | map h => exact h
    obtain ⟨fs, rfl, hentries⟩ := hentries
    exact .map (entries_of_forall henter hleaf hpq es fs hentries)
  | .pair _ _, _, h => by
    cases h (Classical.arbitrary ι)
    exact .pair _ _ _
  | .set _, _, h => by
    cases h (Classical.arbitrary ι)
    exact .set _ _
  | .loop _, _, h => by
    cases h (Classical.arbitrary ι)
    exact .loop _ _

/-- The same of lists of values. -/
theorem items_of_forall (henter : ∀ p q key, ρ p q → ρ (p.enter key) (q.enter key))
    (hleaf : ∀ p q s t, ρ p q → (∀ i, p.Leaf (F i) (H i) s t) → q.Leaf D G s t) {p q : Place}
    (hpq : ρ p q) : (vs ws : List Value) → (∀ i, AlikeItems (F i) (H i) p vs ws) →
    AlikeItems D G q vs ws
  | [], _, h => by
    cases h (Classical.arbitrary ι)
    exact .nil q
  | _ :: _, [], h => by cases h (Classical.arbitrary ι)
  | v :: vs, w :: ws, h => by
    have hparts : ∀ i, Alike (F i) (H i) p v w ∧ AlikeItems (F i) (H i) p vs ws := by
      intro i
      cases h i with
      | cons h hs => exact ⟨h, hs⟩
    exact .cons (of_forall henter hleaf hpq v w fun i => (hparts i).1)
      (items_of_forall henter hleaf hpq vs ws fun i => (hparts i).2)

/-- The same of lists of entries. -/
theorem entries_of_forall (henter : ∀ p q key, ρ p q → ρ (p.enter key) (q.enter key))
    (hleaf : ∀ p q s t, ρ p q → (∀ i, p.Leaf (F i) (H i) s t) → q.Leaf D G s t) {p q : Place}
    (hpq : ρ p q) : (es fs : List (Scalar × Value)) → (∀ i, AlikeEntries (F i) (H i) p es fs) →
    AlikeEntries D G q es fs
  | [], _, h => by
    cases h (Classical.arbitrary ι)
    exact .nil q
  | _ :: _, [], h => by cases h (Classical.arbitrary ι)
  | (k, v) :: es, (l, w) :: fs, h => by
    have hparts : k = l ∧ ∀ i, Alike (F i) (H i) (p.enter k) v w ∧
        AlikeEntries (F i) (H i) p es fs := by
      cases h (Classical.arbitrary ι) with
      | cons _ _ =>
          refine ⟨rfl, fun i => ?_⟩
          cases h i with
          | cons h hs => exact ⟨h, hs⟩
    obtain ⟨rfl, hparts⟩ := hparts
    exact .cons (of_forall henter hleaf (henter p q k hpq) v w fun i => (hparts i).1)
      (entries_of_forall henter hleaf hpq es fs fun i => (hparts i).2)

end

/-- Values that are alike in each of a family of ways, at one place. -/
theorem forall_place (hD : ∀ s t, (∀ i, s = t ∨ F i s t) → s = t ∨ D s t)
    (hG : ∀ s t, (∀ i, s = t ∨ H i s t) → s = t ∨ G s t) {v w : Value}
    (h : ∀ i, Alike (F i) (H i) p v w) : Alike D G p v w :=
  of_forall (ρ := fun p q => p = q) (fun _ _ _ => by rintro rfl; rfl)
    (fun _ _ _ _ => by rintro rfl; exact Place.leaf_of_forall hD hG) rfl v w h

end

/-- Weaker relations hold too. -/
theorem mono (hD : ∀ s t, D s t → D' s t) (hG : ∀ s t, G s t → G' s t) {v w : Value}
    (h : Alike D G p v w) : Alike D' G' p v w :=
  forall_place (ι := Unit) (F := fun _ => D) (H := fun _ => G)
    (fun s t h => (h ()).imp_right (hD s t)) (fun s t h => (h ()).imp_right (hG s t)) fun _ => h

/-- A made-up value in the place of an example that an author gives. -/
theorem given_of_sample {v w : Value} (h : Alike D G .sample v w) : Alike D' D .given v w :=
  of_forall (ι := Unit) (F := fun _ => D) (H := fun _ => G)
    (ρ := fun p q => p = .sample ∧ q = .given) (fun _ _ _ => by rintro ⟨rfl, rfl⟩; exact ⟨rfl, rfl⟩)
    (fun _ _ _ _ => by rintro ⟨rfl, rfl⟩ h; exact h ()) ⟨rfl, rfl⟩ v w fun _ => h

mutual

/-- Values that are both like a third are like each other. -/
theorem join (hD : ∀ s t u, s = u ∨ D s u → t = u ∨ D' t u → s = t ∨ D'' s t)
    (hG : ∀ s t u, s = u ∨ G s u → t = u ∨ G' t u → s = t ∨ G'' s t) {p : Place} :
    (u : Value) → {v w : Value} → Alike D G p v u → Alike D' G' p w u → Alike D'' G'' p v w
  -- The induction is on the third value, which both of the others have the form of.
  | .scalar _, _, _, .scalar h, .scalar h' => .scalar (h.join hD hG h')
  | .list us, _, _, .list h, .list h' => .list (joinItems hD hG us h h')
  | .map us, _, _, .map h, .map h' => .map (joinEntries hD hG us h h')
  | .pair _ _, _, _, .pair _ _ _, .pair _ _ _ => .pair _ _ _
  | .set _, _, _, .set _ _, .set _ _ => .set _ _
  | .loop _, _, _, .loop _ _, .loop _ _ => .loop _ _

/-- The same of lists of values. -/
theorem joinItems (hD : ∀ s t u, s = u ∨ D s u → t = u ∨ D' t u → s = t ∨ D'' s t)
    (hG : ∀ s t u, s = u ∨ G s u → t = u ∨ G' t u → s = t ∨ G'' s t) {p : Place} :
    (us : List Value) → {vs ws : List Value} → AlikeItems D G p vs us → AlikeItems D' G' p ws us →
      AlikeItems D'' G'' p vs ws
  | [], _, _, .nil _, .nil _ => .nil p
  | u :: us, _, _, .cons h hs, .cons h' hs' => .cons (join hD hG u h h') (joinItems hD hG us hs hs')

/-- The same of lists of entries. -/
theorem joinEntries (hD : ∀ s t u, s = u ∨ D s u → t = u ∨ D' t u → s = t ∨ D'' s t)
    (hG : ∀ s t u, s = u ∨ G s u → t = u ∨ G' t u → s = t ∨ G'' s t) {p : Place} :
    (us : List (Scalar × Value)) → {vs ws : List (Scalar × Value)} → AlikeEntries D G p vs us →
      AlikeEntries D' G' p ws us → AlikeEntries D'' G'' p vs ws
  | [], _, _, .nil _, .nil _ => .nil p
  | (_, u) :: us, _, _, .cons h hs, .cons h' hs' =>
    .cons (join hD hG u h h') (joinEntries hD hG us hs hs')

end

mutual

/-- Values that differ nowhere are equal. -/
theorem eq_of_fixed : (v : Value) → {w : Value} → Alike D G .fixed v w → v = w
  | .scalar _, _, .scalar h => congrArg Value.scalar h
  | .list vs, _, .list h => congrArg Value.list (eqItems_of_fixed vs h)
  | .map es, _, .map h => congrArg Value.map (eqEntries_of_fixed es h)
  | .pair _ _, _, .pair _ _ _ => rfl
  | .set _, _, .set _ _ => rfl
  | .loop _, _, .loop _ _ => rfl

/-- The same of lists of values. -/
theorem eqItems_of_fixed : (vs : List Value) → {ws : List Value} → AlikeItems D G .fixed vs ws →
    vs = ws
  | [], _, .nil _ => rfl
  | v :: vs, _, .cons h hs => congrArg₂ List.cons (eq_of_fixed v h) (eqItems_of_fixed vs hs)

/-- The same of lists of entries. -/
theorem eqEntries_of_fixed : (es : List (Scalar × Value)) → {fs : List (Scalar × Value)} →
    AlikeEntries D G .fixed es fs → es = fs
  | [], _, .nil _ => rfl
  | (k, v) :: es, _, .cons h hs =>
    congrArg₂ (fun w fs => (k, w) :: fs) (eq_of_fixed v h) (eqEntries_of_fixed es hs)

end

/-- Values that are alike in each of a family of ways are equal, if the leaves of the family are
equal. This holds wherever no code samples are, that is, in examples and in nested schemas. -/
theorem eq_of_forall {ι : Type} [Nonempty ι] {F H : ι → Scalar → Scalar → Prop}
    (hF : ∀ s t, (∀ i, s = t ∨ F i s t) → s = t) (hH : ∀ s t, (∀ i, s = t ∨ H i s t) → s = t)
    (hp : p = .sample ∨ p = .schema ∨ p = .given) {v w : Value}
    (h : ∀ i, Alike (F i) (H i) p v w) : v = w := by
  -- The values are alike at a place where nothing differs, and this place is followed down
  -- together with their own.
  refine eq_of_fixed (D := F (Classical.arbitrary ι)) (G := H (Classical.arbitrary ι)) v
    (of_forall (ρ := fun p q =>
    (p = .sample ∨ p = .schema ∨ p = .given) ∧ q = .fixed) ?_ ?_ ⟨hp, rfl⟩ v w h)
  -- From these places keys lead to these places only.
  · rintro p _ key ⟨rfl | rfl | rfl, rfl⟩
    · exact ⟨.inl rfl, rfl⟩
    · refine ⟨?_, rfl⟩
      rw [Place.enter]
      split
      · exact .inr (.inr rfl)
      · exact .inr (.inl rfl)
    · exact ⟨.inr (.inr rfl), rfl⟩
  · rintro p _ s t ⟨rfl | rfl | rfl, rfl⟩ hst
    · exact hF s t hst
    · exact hst (Classical.arbitrary ι)
    · exact hH s t hst

/-! ### Values that are put together -/

/-- Fields with known names that are alike one by one. -/
abbrev Fields (D G : Scalar → Scalar → Prop) (p : Place) :
    List (String × Value) → List (String × Value) → Prop :=
  Entries.Matched fun name : String => Under D G p (.str name)

/-- One field more in front of fields that are alike. -/
theorem Fields.cons {name : String} {v w : Value} {fields fields' : List (String × Value)}
    (h : Alike D G (p.enter (.str name)) v w) (hs : Fields D G p fields fields') :
    Fields D G p ((name, v) :: fields) ((name, w) :: fields') :=
  List.Forall₂.cons ⟨rfl, h⟩ hs

/-- Fields are like themselves. -/
theorem Fields.refl (p : Place) (fields : List (String × Value)) : Fields D G p fields fields :=
  List.forall₂_same.mpr fun _ _ => ⟨rfl, .refl _ _⟩

/-- Fields with known names, taken into a mapping. -/
theorem object {fields fields' : List (String × Value)} (h : Fields D G p fields fields') :
    Alike D G p (.object fields) (.object fields') := by
  rw [Value.object, Value.object, map_iff]
  refine List.rel_map (fun e f hef => ?_) h
  exact ⟨congrArg (fun name : String => Scalar.str name) hef.1, hef.2⟩

/-- Fields with texts as names, taken into a mapping. -/
theorem ofFields {fields fields' : List (Text × Value)}
    (h : Entries.Matched (fun name => Under D G p (.str name)) fields fields') :
    Alike D G p (.ofFields fields) (.ofFields fields') := by
  rw [Value.ofFields, Value.ofFields, map_iff]
  refine List.rel_map (fun e f hef => ?_) h
  exact ⟨congrArg Scalar.str hef.1, hef.2⟩

end Alike

end RouteDocs
