import RouteDocs.Proofs.CompositeExample
import RouteDocs.Proofs.Numeral

/-!
# `RouteDocs.Proofs.TreePaths`: a tree is known from its leaves

`PathTree.flatten` lists the leaves of a tree under their joined paths, and `PathTree.ofFlat`
puts a tree together from such a list. The joined paths hold no more than the segments: a
part of a list and a part of a mapping look the same, and an empty container is a leaf
like any other. `ofFlat_flatten` says that nothing is lost by that: a tree whose mappings
have names that are not numbers, and whose lists have no more elements than positions can
be addressed, is put together again as it was, with the order of its keys.

The proof is about segments and not about texts. `leafPaths` gives each leaf the list of its
segments, `flatten_eq` says that `flatten` joins these, and `builds_leafPaths` says that the
writes at these segments leave the tree. The last goes by the structure of the tree: the
writes below one name are a block, and a block leaves the part of that name.
-/

set_option autoImplicit false

namespace RouteDocs.PathTree

open Text Number Synthesis

/-! ### Leaves under their segments -/

/-- The segment that a key is in a path. Only a text is one by itself. -/
def nameOf (key : Scalar) : Text := key.display.toOption.getD []

/-- A text is its own segment. -/
@[simp] theorem nameOf_str (s : Text) : nameOf (.str s) = s := rfl

mutual

/-- The leaves of a value under the segments that lead to them, in order. A container without
parts is a leaf. -/
def leafPaths : Value → List (List Text × Value)
  | .map (e :: es) => entryPaths (e :: es)
  | .list (v :: vs) => itemPaths 0 (v :: vs)
  | v => [([], v)]

/-- The leaves of the elements of a list, from a position on. -/
def itemPaths : (position : Nat) → List Value → List (List Text × Value)
  | _, [] => []
  | position, v :: vs => under (natText position) (leafPaths v) ++ itemPaths (position + 1) vs

/-- The leaves of the entries of a mapping. -/
def entryPaths : List (Scalar × Value) → List (List Text × Value)
  | [] => []
  | (k, v) :: es => under (nameOf k) (leafPaths v) ++ entryPaths es

end

/-- A value that a tree may end in: a scalar, or a container without parts. -/
def IsLeaf : Value → Prop
  | .scalar _ => True
  | .map es => es = []
  | .list items => items = []
  | _ => False

/-- Whether a tree may end in a value can be decided by its form. -/
instance IsLeaf.decidable : (v : Value) → Decidable (IsLeaf v)
  | .scalar _ => inferInstanceAs (Decidable True)
  | .map es => inferInstanceAs (Decidable (es = []))
  | .list items => inferInstanceAs (Decidable (items = []))
  | .pair _ _ | .set _ | .loop _ => inferInstanceAs (Decidable False)

/-- A leaf has itself below it, at the empty path, and nothing else. -/
theorem IsLeaf.leafPaths_eq {v : Value} (h : IsLeaf v) : leafPaths v = [([], v)] := by
  cases v with
  | scalar s => simp [leafPaths]
  | map es =>
      cases h
      simp [leafPaths]
  | list items =>
      cases h
      simp [leafPaths]
  | _ => exact h.elim

/-- The elements of a list have the leaves that they have as entries under their positions. -/
theorem itemPaths_eq (position : Nat) (vs : List Value) :
    itemPaths position vs = entryPaths (numbered position vs) := by
  induction vs generalizing position with
  | nil => rw [itemPaths, numbered, entryPaths]
  | cons v vs ih => rw [itemPaths, numbered, entryPaths, ih, nameOf_str]

/-- Leaves remain leaves under a segment. -/
theorem under_ne_nil {segment : Text} {ws : List (List Text × Value)} (h : ws ≠ []) :
    under segment ws ≠ [] := by
  simpa [under] using h

/-- Every value has a leaf, if only itself. -/
theorem leafPaths_ne_nil (v : Value) : leafPaths v ≠ [] := by
  -- The first part of a container has leaves, and so has the container.
  match v with
  | .map (e :: es) =>
      rw [leafPaths, entryPaths]
      exact List.append_ne_nil_of_left_ne_nil (under_ne_nil (leafPaths_ne_nil e.2)) _
  | .list (v :: vs) =>
      rw [leafPaths, itemPaths]
      exact List.append_ne_nil_of_left_ne_nil (under_ne_nil (leafPaths_ne_nil v)) _
  | .map [] | .list [] | .scalar _ | .pair _ _ | .set _ | .loop _ => simp [leafPaths]

/-! ### Joined paths -/

/-- The path of segments: dots stand between them. -/
def joined (segs : List Text) : Text := ("." : Text).intercalate segs

/-- Behind the first segment, a dot is in front of each. -/
theorem joined_cons (s : Text) (rest : List Text) : joined (s :: rest) = s ++ dotted dot rest := by
  induction rest generalizing s with
  | nil => simp [joined, dotted]
  | cons t rest ih =>
      rw [joined, List.intercalate_cons_cons, ← joined, ih t, dotted_cons, List.append_assoc]
      rfl

/-- A joined path is cut into its segments. -/
theorem segments_joined {segs : List Text} (hne : segs ≠ []) (h : ∀ s ∈ segs, IsSegment dot s) :
    segments "." (joined segs) = .ok segs := by
  obtain ⟨s, rest, rfl⟩ := List.exists_cons_of_ne_nil hne
  obtain ⟨c, cs, rfl⟩ := List.exists_cons_of_ne_nil (h s List.mem_cons_self).1
  have hc : c ≠ dot := fun hc => (h _ List.mem_cons_self).2 (hc ▸ List.mem_cons_self)
  -- There is no dot at either end.
  have htrim : trimOf [dot] (joined ((c :: cs) :: rest)) = (c :: cs) ++ dotted dot rest := by
    rw [joined_cons, trimOf, List.cons_append, List.dropWhile_cons_of_neg (by simp [hc])]
    refine dropEndWhile_eq_self fun d hd => ?_
    simpa using getLast?_dotted dot (c :: cs) rest h d hd
  show segments [dot] _ = _
  rw [segments, if_neg (by simp), htrim, splitOn_dotted dot _ rest h]

/-- Two paths of segments that are joined to one text are the same: no segment has a dot in it. -/
theorem joined_injective {a b : List Text} (ha : ∀ s ∈ a, IsSegment dot s)
    (hb : ∀ s ∈ b, IsSegment dot s) (hane : a ≠ []) (hbne : b ≠ []) (h : joined a = joined b) :
    a = b := by
  have hcut := segments_joined hane ha
  rw [h, segments_joined hbne hb] at hcut
  exact (Except.ok.inj hcut).symm

/-- The path of segments below another path. -/
def joinFrom (path : Text) (segs : List Text) : Text := segs.foldl (join ".") path

/-- The first segment is joined to the path, and the others behind it. -/
theorem joinFrom_cons (path s : Text) (rest : List Text) :
    joinFrom path (s :: rest) = joinFrom (join "." path s) rest := rfl

/-- Below a path that is not empty, a dot is in front of each segment. -/
theorem joinFrom_of_ne_nil {path : Text} (hne : path ≠ []) (segs : List Text) :
    joinFrom path segs = path ++ dotted dot segs := by
  induction segs generalizing path with
  | nil => simp [joinFrom, dotted]
  | cons s rest ih =>
      have hjoin : join "." path s = path ++ dot :: s := by
        rw [join, if_neg (by simpa using hne), List.append_assoc]
        rfl
      rw [joinFrom_cons, hjoin, ih (by simp), dotted_cons, List.append_assoc, List.cons_append]

/-- Below the empty path, dots are only between the segments. -/
theorem joinFrom_nil {segs : List Text} (h : ∀ s ∈ segs, IsSegment dot s) :
    joinFrom [] segs = joined segs := by
  cases segs with
  | nil => rfl
  | cons s rest =>
      have hs := (h s List.mem_cons_self).1
      rw [joinFrom_cons, show join "." [] s = s from rfl, joinFrom_of_ne_nil hs, joined_cons]

/-! ### Flattening joins the segments -/

mutual

/-- All keys of all mappings in the value are texts. -/
def HasNames : Value → Prop
  | .map es => EntriesHaveNames es
  | .list vs => ItemsHaveNames vs
  | _ => True

/-- The elements have only texts as keys. -/
def ItemsHaveNames : List Value → Prop
  | [] => True
  | v :: vs => HasNames v ∧ ItemsHaveNames vs

/-- The keys of these entries are texts, and so are those of the values. -/
def EntriesHaveNames : List (Scalar × Value) → Prop
  | [] => True
  | (k, v) :: es => (∃ s, k = .str s) ∧ HasNames v ∧ EntriesHaveNames es

end

/-- Leaves with their paths joined below a path. -/
def joinedFrom (path : Text) (ws : List (List Text × Value)) : List (Text × Value) :=
  ws.map fun w => (joinFrom path w.1, w.2)

/-- Leaves in a row are joined in a row. -/
theorem joinedFrom_append (path : Text) (ws vs : List (List Text × Value)) :
    joinedFrom path (ws ++ vs) = joinedFrom path ws ++ joinedFrom path vs := by
  simp [joinedFrom]

/-- Leaves under a segment are joined below the path with that segment. -/
theorem joinedFrom_under (path segment : Text) (ws : List (List Text × Value)) :
    joinedFrom path (under segment ws) = joinedFrom (join "." path segment) ws := by
  simp [joinedFrom, under, joinFrom_cons]

mutual

/-- The leaves of a value below a path are its leaves under their segments, joined. -/
theorem leaves_eq : (v : Value) → HasNames v → (path : Text) →
    leaves "." path v = .ok (joinedFrom path (leafPaths v))
  | .map (e :: es), h, path => by
      rw [leaves, leafPaths]
      exact entryLeaves_eq (e :: es) h path
  | .list (v :: vs), h, path => by
      rw [leaves, leafPaths]
      exact itemLeaves_eq (v :: vs) h path 0
  | .map [], _, path | .list [], _, path | .scalar _, _, path | .pair _ _, _, path
  | .set _, _, path | .loop _, _, path => by simp [leaves, leafPaths, joinedFrom, joinFrom]

/-- Flattening the elements of a list from a position on gives their leaves at joined paths. -/
theorem itemLeaves_eq : (vs : List Value) → ItemsHaveNames vs → (path : Text) → (position : Nat) →
    itemLeaves "." path position vs = .ok (joinedFrom path (itemPaths position vs))
  | [], _, path, position => by simp [itemLeaves, itemPaths, joinedFrom]
  | v :: vs, h, path, position => by
      obtain ⟨hv, hvs⟩ := h
      rw [itemLeaves, itemPaths, leaves_eq v hv, itemLeaves_eq vs hvs, joinedFrom_append,
        joinedFrom_under]
      rfl

/-- Flattening the entries of a mapping gives their leaves at joined paths. -/
theorem entryLeaves_eq : (es : List (Scalar × Value)) → EntriesHaveNames es → (path : Text) →
    entryLeaves "." path es = .ok (joinedFrom path (entryPaths es))
  | [], _, path => by simp [entryLeaves, entryPaths, joinedFrom]
  | (k, v) :: es, h, path => by
      obtain ⟨⟨s, rfl⟩, hv, hes⟩ := h
      rw [entryLeaves, entryPaths, entryLeaves_eq es hes, joinedFrom_append, joinedFrom_under,
        nameOf_str, show Scalar.display (.str s) = .ok s from rfl]
      simp only [bind, Except.bind, leaves_eq v hv]
      rfl

end

/-- Leaves under their joined paths. -/
def flatOf (ws : List (List Text × Value)) : List (Text × Value) :=
  ws.map fun w => (joined w.1, w.2)

/-- Joined paths are cut into the segments that they join. -/
theorem areWrites_flatOf {ws : List (List Text × Value)}
    (hsegs : ∀ w ∈ ws, w.1 ≠ [] ∧ ∀ s ∈ w.1, IsSegment dot s) : AreWrites [dot] (flatOf ws) ws := by
  rw [AreWrites, flatOf, List.forall₂_map_left_iff, List.forall₂_same]
  exact fun w hw => ⟨segments_joined (hsegs w hw).1 (hsegs w hw).2, rfl⟩

/-- Distinct lists of segments have distinct joined paths. -/
theorem pairwise_flatOf {ws : List (List Text × Value)}
    (hsegs : ∀ w ∈ ws, w.1 ≠ [] ∧ ∀ s ∈ w.1, IsSegment dot s) (hnodup : (ws.map Prod.fst).Nodup) :
    (flatOf ws).Pairwise fun e f => (e.1 == f.1) = false := by
  rw [flatOf, List.pairwise_map]
  rw [List.Nodup, List.pairwise_map] at hnodup
  refine hnodup.imp_of_mem fun {w v} hw hv hne => ?_
  simp only [beq_eq_false_iff_ne]
  intro h
  exact hne (joined_injective (hsegs w hw).2 (hsegs v hv).2 (hsegs w hw).1 (hsegs v hv).1 h)

/-- Flattening a container that has parts gives its leaves under their joined paths, if these
are distinct. -/
theorem flatten_eq {v : Value} (hnames : HasNames v) (htrue : v.isTruthy = true)
    (hsegs : ∀ w ∈ leafPaths v, w.1 ≠ [] ∧ ∀ s ∈ w.1, IsSegment dot s)
    (hnodup : ((leafPaths v).map Prod.fst).Nodup) :
    flatten "." v = .ok (flatOf (leafPaths v)) := by
  have hflat : joinedFrom [] (leafPaths v) = flatOf (leafPaths v) :=
    List.map_congr_left fun w hw => by rw [joinFrom_nil (hsegs w hw).2]
  rw [flatten, if_pos htrue, leaves_eq v hnames, hflat]
  exact congrArg Except.ok (Entries.ofList_eq_self (pairwise_flatOf hsegs hnodup))

/-! ### Writing the leaves again -/

/-- Writes where there is nothing yet start the tree that their first segment asks for. -/
theorem writeAll_null_eq_rootOf {ws : List (List Text × Value)} {w : List Text × Value}
    (hw : w.1 ≠ []) : writeAll (w :: ws) .null = writeAll (w :: ws) (rootOf (w :: ws)) := by
  obtain ⟨s, rest, hsegs⟩ := List.exists_cons_of_ne_nil hw
  have hslot : slot .null s = slot (rootOf (w :: ws)) s := by
    have hroot : rootOf (w :: ws) = if s = ("0" : Text) then .list [] else .map [] := by
      simp [rootOf, hsegs]
    rw [hroot]
    by_cases hs : s = ("0" : Text)
    · subst hs
      rfl
    · rw [if_neg hs]
      show (if s = _ then _ else _) = _
      rw [if_neg hs]
      rfl
  rw [writeAll_cons, writeAll_cons, hsegs, setAt, setAt, hslot]

/-- A position that can be addressed is read back from its numeral. -/
theorem index?_natText {i : Nat} (h : i ≤ maxIndex) : index? (natText i) = .ok (some i) := by
  have hall : (natText i).all Text.isDigit = true :=
    List.all_eq_true.mpr fun c hc => isDigit_of_isDigit (areDigits_natText i c hc)
  have hlength : (natText i).length ≤ 3 :=
    (length_natText_le_iff (by omega)).mpr (by unfold maxIndex at h; omega)
  rw [index?, if_pos (by simp [natText_ne_nil, hall]),
    readInt?_natText (Nat.le_trans hlength (by decide))]
  simp [h]

/-- The numeral of a position addresses it in a list that has it, or that ends before it. -/
theorem slot_list_natText {items : List Value} {i : Nat} (hle : i ≤ items.length)
    (hmax : i ≤ maxIndex) : slot (.list items) (natText i) = .ok (.element items i) := by
  rw [slot, index?_natText hmax]
  show (if i ≤ items.length then _ else _) = _
  rw [if_pos hle]

/-- Writes that all go to one element of a list: they are writes to that element. -/
theorem writeAll_under_element {items : List Value} {i : Nat} (hlt : i < items.length)
    (hmax : i ≤ maxIndex) (ws : List (List Text × Value)) :
    writeAll (under (natText i) ws) (.list items)
      = (writeAll ws ((items[i]?).getD .null)).map fun v => .list (items.set i v) := by
  induction ws generalizing items with
  | nil =>
      rw [List.getElem?_eq_getElem hlt, Option.getD_some]
      show Except.ok (Value.list items) = .ok (.list (items.set i items[i]))
      rw [List.set_getElem_self]
  | cons w ws ih =>
      rw [under, List.map_cons, writeAll_cons, writeAll_cons, setAt,
        slot_list_natText (Nat.le_of_lt hlt) hmax]
      show ((setAt w.2 ((items[i]?).getD .null) w.1).bind fun child =>
          .ok (.list (if i < items.length then items.set i child else items ++ [child]))).bind
        (writeAll (under (natText i) ws)) = _
      cases setAt w.2 ((items[i]?).getD .null) w.1 with
      | error f => rfl
      | ok child =>
          show writeAll (under (natText i) ws)
              (.list (if i < items.length then items.set i child else items ++ [child]))
            = (writeAll ws child).map _
          rw [if_pos hlt, ih (by simpa using hlt)]
          simp [hlt]

/-- Writes that all go to the position behind the last of a list add an element. -/
theorem writeAll_under_length {items : List Value} (hmax : items.length ≤ maxIndex)
    {ws : List (List Text × Value)} (hne : ws ≠ []) :
    writeAll (under (natText items.length) ws) (.list items)
      = (writeAll ws .null).map fun v => .list (items ++ [v]) := by
  obtain ⟨w, ws, rfl⟩ := List.exists_cons_of_ne_nil hne
  rw [under, List.map_cons, writeAll_cons, writeAll_cons, setAt,
    slot_list_natText (Nat.le_refl _) hmax]
  show ((setAt w.2 ((items[items.length]?).getD .null) w.1).bind fun child =>
      .ok (.list (if items.length < items.length then items.set items.length child
        else items ++ [child]))).bind (writeAll (under (natText items.length) ws)) = _
  simp only [List.getElem?_eq_none (Nat.le_refl _), Option.getD_none, Nat.lt_irrefl, if_false]
  cases setAt w.2 .null w.1 with
  | error f => rfl
  | ok child =>
      -- From the second write on the element is there.
      show writeAll (under (natText items.length) ws) (.list (items ++ [child]))
        = (writeAll ws child).map _
      rw [writeAll_under_element (by simp) hmax]
      simp

/-- Writes that add elements to a list which has the ones before `position`: to distinct
paths, each of which starts with the numeral of a position from there on. -/
structure BuildsItems (position : Nat) (ws : List (List Text × Value)) (vs : List Value) :
    Prop where
  segments : ∀ w ∈ ws, ∀ s ∈ w.1, IsSegment dot s
  heads : ∀ w ∈ ws, ∃ i rest, w.1 = natText i :: rest ∧ position ≤ i
  nodup : (ws.map Prod.fst).Nodup
  writes : ∀ items : List Value, items.length = position →
    writeAll ws (.list items) = .ok (.list (items ++ vs))

/-- No writes add no elements. -/
theorem buildsItems_nil (position : Nat) : BuildsItems position [] [] where
  segments := by simp
  heads := by simp
  nodup := by simp
  writes := by simp

/-- A numeral is a segment, as it has no dot. -/
theorem isSegment_natText (n : Nat) : IsSegment dot (natText n) := by
  refine ⟨natText_ne_nil n, fun h => ?_⟩
  exact absurd (areDigits_natText n _ h) (by decide)

/-- An element in front of other elements. Its writes all start with its position, so they
add its value to the list, and the others then find a list that is one longer. -/
theorem BuildsItems.cons {position : Nat} {v : Value} {ws us : List (List Text × Value)}
    {vs : List Value} (hmax : position ≤ maxIndex) (hv : Builds ws v)
    (hvs : BuildsItems (position + 1) us vs) :
    BuildsItems position (under (natText position) ws ++ us) (v :: vs) where
  segments := by
    intro w hw s hs
    rcases List.mem_append.mp hw with hw | hw
    · obtain ⟨u, hu, rfl⟩ := List.mem_map.mp hw
      rcases List.mem_cons.mp hs with rfl | hs
      · exact isSegment_natText position
      · exact hv.segments u hu s hs
    · exact hvs.segments w hw s hs
  heads := by
    intro w hw
    rcases List.mem_append.mp hw with hw | hw
    · obtain ⟨u, hu, rfl⟩ := List.mem_map.mp hw
      exact ⟨position, u.1, rfl, Nat.le_refl _⟩
    · obtain ⟨i, rest, hsegs, hi⟩ := hvs.heads w hw
      exact ⟨i, rest, hsegs, by omega⟩
  nodup := by
    rw [List.map_append, List.nodup_append]
    refine ⟨nodup_under hv.nodup, hvs.nodup, ?_⟩
    -- A path below this position starts with it, and the others start with later ones.
    rintro a ha b hb rfl
    rw [map_fst_under] at ha
    obtain ⟨segs, -, rfl⟩ := List.mem_map.mp ha
    obtain ⟨w, hw, hsegs⟩ := List.mem_map.mp hb
    obtain ⟨i, rest, hsegs', hi⟩ := hvs.heads w hw
    rw [hsegs, List.cons.injEq, natText_inj] at hsegs'
    omega
  writes := by
    rintro items rfl
    rw [writeAll_append, writeAll_under_length hmax hv.ne_nil, hv.writes]
    show writeAll us (.list (items ++ [v])) = _
    rw [hvs.writes _ (by simp), List.append_assoc, List.singleton_append]

/-- Elements, added where there was nothing, are a list. -/
theorem BuildsItems.list {w : List Text × Value} {ws : List (List Text × Value)} {vs : List Value}
    (h : BuildsItems 0 (w :: ws) vs) (hw : w.1.head? = some (natText 0)) :
    Builds (w :: ws) (.list vs) where
  ne_nil := by simp
  segments := h.segments
  nodup := h.nodup
  writes := by
    have hroot : rootOf (w :: ws) = .list [] := by
      simp only [rootOf, List.head?_cons, Option.bind_some, hw]
      rfl
    rw [writeAll_null_eq_rootOf (by intro hnil; simp [hnil] at hw), hroot, h.writes [] rfl,
      List.nil_append]

/-! ### Example trees -/

mutual

/-- A tree of mappings, lists and scalars: the keys of mappings are names of fields, and a
list has no more elements than positions can be addressed. -/
inductive IsExampleTree : Value → Prop where
  /-- A scalar. -/
  | scalar (s : Scalar) : IsExampleTree (.scalar s)
  /-- A list. -/
  | list {items : List Value} (hlength : items.length ≤ maxIndex + 1) (hitems : AreExamples items) :
      IsExampleTree (.list items)
  /-- A mapping. -/
  | map {es : List (Scalar × Value)} (hentries : AreExampleFields es) : IsExampleTree (.map es)

/-- The values are trees. -/
inductive AreExamples : List Value → Prop where
  /-- No values. -/
  | nil : AreExamples []
  /-- A value and the ones after it. -/
  | cons {v : Value} {vs : List Value} (hv : IsExampleTree v) (hvs : AreExamples vs) :
      AreExamples (v :: vs)

/-- The entries are fields with trees. A mapping has no name twice. -/
inductive AreExampleFields : List (Scalar × Value) → Prop where
  /-- No fields. -/
  | nil : AreExampleFields []
  /-- A field and the ones after it. -/
  | cons {name : Text} {v : Value} {es : List (Scalar × Value)} (hname : IsFieldName name)
      (hnew : ∀ e ∈ es, e.1 ≠ .str name) (hv : IsExampleTree v)
      (hes : AreExampleFields es) : AreExampleFields ((.str name, v) :: es)

end

mutual

/-- The keys of a tree are texts. -/
theorem IsExampleTree.hasNames : {v : Value} → IsExampleTree v → HasNames v
  | _, .scalar _ => trivial
  | _, .list _ hitems => hitems.hasNames
  | _, .map hentries => hentries.hasNames

/-- So are those of the trees in a list. -/
theorem AreExamples.hasNames : {vs : List Value} → AreExamples vs → ItemsHaveNames vs
  | _, .nil => trivial
  | _, .cons hv hvs => ⟨hv.hasNames, hvs.hasNames⟩

/-- So are those of the trees under the fields of a mapping, and the fields themselves. -/
theorem AreExampleFields.hasNames : {es : List (Scalar × Value)} → AreExampleFields es →
    EntriesHaveNames es
  | _, .nil => trivial
  | _, .cons _ _ hv hes => ⟨⟨_, rfl⟩, hv.hasNames, hes.hasNames⟩

end

/-- The names of fields, with what is under them. -/
def namedFields (es : List (Scalar × Value)) : List (Text × Value) :=
  es.map fun e => (nameOf e.1, e.2)

/-- Fields with their names taken as keys are the entries. -/
theorem AreExampleFields.map_namedFields {es : List (Scalar × Value)} (h : AreExampleFields es) :
    ((namedFields es).map fun f => (Scalar.str f.1, f.2)) = es := by
  induction es with
  | nil => rfl
  | cons e es ih =>
      cases h with
      | cons _ _ _ hes => exact congrArg _ (ih hes)

/-- A name that is no key of the entries is no name of a field. -/
theorem AreExampleFields.not_mem_namedFields {es : List (Scalar × Value)}
    (h : AreExampleFields es) {name : Text} (hnew : ∀ e ∈ es, e.1 ≠ .str name) :
    name ∉ (namedFields es).map Prod.fst := by
  intro hmem
  obtain ⟨f, hf, rfl⟩ := List.mem_map.mp hmem
  rw [← h.map_namedFields] at hnew
  exact hnew _ (List.mem_map_of_mem hf) rfl

mutual

/-- The writes of a tree's leaves, made where there is nothing yet, leave the tree. -/
theorem builds_leafPaths : {v : Value} → IsExampleTree v → Builds (leafPaths v) v
  | .scalar s, _ => by
      rw [IsLeaf.leafPaths_eq (v := .scalar s) trivial]
      exact builds_leaf _
  | .list [], .list _ _ => by
      rw [IsLeaf.leafPaths_eq (v := .list []) rfl]
      exact builds_leaf _
  | .list (v :: vs), .list hlength hitems => by
      have hbuild := builds_itemPaths hitems 0 (by simpa using hlength)
      obtain ⟨w, ws, hws⟩ := List.exists_cons_of_ne_nil (leafPaths_ne_nil v)
      -- The first leaf is in the first element.
      have hpaths : leafPaths (.list (v :: vs))
          = (natText 0 :: w.1, w.2) :: (under (natText 0) ws ++ itemPaths 1 vs) := by
        rw [leafPaths, itemPaths, hws]
        rfl
      rw [itemPaths, hws] at hbuild
      rw [hpaths]
      exact BuildsItems.list hbuild rfl
  | .map [], .map _ => by
      rw [IsLeaf.leafPaths_eq (v := .map []) rfl]
      exact builds_leaf _
  | .map (e :: es), .map hentries => by
      have hbuild := (builds_entryPaths hentries).object (by simp [namedFields])
      rw [Value.ofFields, hentries.map_namedFields] at hbuild
      rw [leafPaths]
      exact hbuild

/-- The leaves of the elements of a list build them, from their position on. -/
theorem builds_itemPaths : {vs : List Value} → AreExamples vs → (position : Nat) →
    position + vs.length ≤ maxIndex + 1 → BuildsItems position (itemPaths position vs) vs
  | _, .nil, position, _ => by
      rw [itemPaths]
      exact buildsItems_nil position
  | _, .cons hv hvs, position, hlength => by
      rw [List.length_cons] at hlength
      rw [itemPaths]
      exact .cons (by omega) (builds_leafPaths hv) (builds_itemPaths hvs (position + 1) (by omega))

/-- The leaves of the fields of a mapping build them. -/
theorem builds_entryPaths : {es : List (Scalar × Value)} → AreExampleFields es →
    BuildsFields (entryPaths es) (namedFields es)
  | _, .nil => by
      rw [entryPaths]
      exact buildsFields_nil
  | _, .cons hname hnew hv hes => by
      rw [entryPaths]
      exact .cons hname (hes.not_mem_namedFields hnew) (builds_leafPaths hv) (builds_entryPaths hes)

end

/-- A leaf of an entry is below it. -/
theorem ne_nil_of_mem_entryPaths {es : List (Scalar × Value)} {w : List Text × Value}
    (hw : w ∈ entryPaths es) : w.1 ≠ [] := by
  induction es with
  | nil => simp [entryPaths] at hw
  | cons e es ih =>
      rw [entryPaths] at hw
      rcases List.mem_append.mp hw with hw | hw
      · obtain ⟨u, -, rfl⟩ := List.mem_map.mp hw
        simp
      · exact ih hw

/-- A leaf of a container that has parts is below it. -/
theorem ne_nil_of_mem_leafPaths {v : Value} (htree : IsTree v) (htrue : v.isTruthy = true)
    {w : List Text × Value} (hw : w ∈ leafPaths v) : w.1 ≠ [] := by
  obtain ⟨es, rfl⟩ | ⟨items, rfl⟩ := htree
  · cases es with
    | nil => simp [Value.isTruthy] at htrue
    | cons e es =>
        rw [leafPaths] at hw
        exact ne_nil_of_mem_entryPaths hw
  · cases items with
    | nil => simp [Value.isTruthy] at htrue
    | cons v vs =>
        rw [leafPaths, itemPaths_eq] at hw
        exact ne_nil_of_mem_entryPaths hw

/-- A mapping or list that has parts, and is an example tree, is put together again from its
leaves: the same tree, with its keys in their order and its empty containers. -/
theorem ofFlat_flatten {tree : Value} (htree : IsExampleTree tree) (hroot : IsTree tree)
    (hne : tree.isTruthy = true) : (flatten "." tree >>= ofFlat ".") = .ok tree := by
  have hbuild := builds_leafPaths htree
  have hsegs : ∀ w ∈ leafPaths tree, w.1 ≠ [] ∧ ∀ s ∈ w.1, IsSegment dot s := fun w hw =>
    ⟨ne_nil_of_mem_leafPaths hroot hne hw, hbuild.segments w hw⟩
  obtain ⟨w, ws, hws⟩ := List.exists_cons_of_ne_nil hbuild.ne_nil
  have hw := (hsegs w (hws ▸ List.mem_cons_self)).1
  rw [flatten_eq htree.hasNames hne hsegs hbuild.nodup]
  show ofFlat [dot] _ = _
  rw [ofFlat_eq_writeAll (areWrites_flatOf hsegs), hws, ← writeAll_null_eq_rootOf hw, ← hws]
  exact hbuild.writes

/-- Lists in mappings in a list, with names in no order, and both empty containers. -/
def nestedTree : Value :=
  .list
    [.object [("tags", .list [.str "a", .null, .list [.bool true]]), ("id", .int 1)],
     .object [("meta", .object [("next", .map []), ("b1", .list [])])],
     .str "end"]

/-- A tree with lists and mappings in each other, and both empty containers, comes back. -/
theorem ofFlat_flatten_nestedTree :
    IsExampleTree nestedTree ∧ IsTree nestedTree ∧ nestedTree.isTruthy = true ∧
      (flatten "." nestedTree >>= ofFlat ".") = .ok nestedTree := by
  have name : ∀ s : Text, s ≠ [] → CodePoint.char '.' ∉ s → s.all isDigit = false →
      IsFieldName s := fun _ h₁ h₂ h₃ => ⟨h₁, h₂, h₃⟩
  have htree : IsExampleTree nestedTree :=
    .list (by decide)
      (.cons
        (.map (.cons (name "tags" (by decide) (by decide) (by decide)) (by decide)
          (.list (by decide) (.cons (.scalar _) (.cons (.scalar _)
            (.cons (.list (by decide) (.cons (.scalar _) .nil)) .nil))))
          (.cons (name "id" (by decide) (by decide) (by decide)) (by decide) (.scalar _) .nil)))
        (.cons
          (.map (.cons (name "meta" (by decide) (by decide) (by decide)) (by decide)
            (.map (.cons (name "next" (by decide) (by decide) (by decide)) (by decide) (.map .nil)
              (.cons (name "b1" (by decide) (by decide) (by decide)) (by decide)
                (.list (by decide) .nil) .nil))) .nil))
          (.cons (.scalar _) .nil)))
  exact ⟨htree, .inr ⟨_, rfl⟩, rfl, ofFlat_flatten htree (.inr ⟨_, rfl⟩) rfl⟩

end RouteDocs.PathTree
