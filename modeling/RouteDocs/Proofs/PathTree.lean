import RouteDocs.PathTree
import RouteDocs.Proofs.Entries

/-!
# `RouteDocs.Proofs.PathTree`: paths as lists of segments

`PathTree.setAtPath` cuts a dotted path into segments and hands them to `setAt`. The first
half of this module is about the cut: `dotted` writes every segment with a separator in
front, the way field paths are written, and `segments_dotted` says that the cut gives the
segments back.

The second half is about many writes. `writeAll` makes a list of writes one after the other,
and `ofFlat_eq_writeAll` says that `ofFlat` is that, from an empty mapping or list, for any
paths that cut into the segments of the writes; `ofFlat_dotted` is the case of dotted ones.
Writes that share their first segment go to one place, so they are the writes of their remaining
segments at that place: `writeAll_under_key` in a mapping and `writeAll_under_zero` where a
list is started. These two are the steps by which a tree is known from its parts.
-/

set_option autoImplicit false

namespace RouteDocs

/-! ### Cutting at one character -/

namespace Text

/-- A text without `p` characters at its end is left as it is. -/
theorem dropEndWhile_eq_self {p : CodePoint → Bool} {s : Text}
    (h : ∀ c, s.getLast? = some c → p c = false) : dropEndWhile p s = s := by
  unfold dropEndWhile
  rw [← List.head?_reverse] at h
  cases hs : s.reverse with
  | nil => rw [List.dropWhile_nil, ← hs, List.reverse_reverse]
  | cons c cs =>
      have hc : p c = false := h c (by rw [hs, List.head?_cons])
      rw [List.dropWhile_cons_of_neg (by simp [hc]), ← hs, List.reverse_reverse]

/-- A piece without the separator is one piece. -/
theorem splitOn_of_not_mem {sep : CodePoint} {s : Text} (h : sep ∉ s) :
    splitOn [sep] s = [s] := by
  show splitOn.go [sep] 0 s = [s]
  induction s with
  | nil => rfl
  | cons c cs ih =>
      rw [List.mem_cons, not_or] at h
      rw [splitOn.go, if_neg (by simpa using h.1), ih h.2]
      rfl

/-- There is one piece at least. -/
theorem splitOn_go_ne_nil (sep : Text) (skip : Nat) (s : Text) : splitOn.go sep skip s ≠ [] := by
  induction s generalizing skip with
  | nil => simp [splitOn.go]
  | cons c cs ih =>
      cases skip with
      | succ skip => exact ih skip
      | zero =>
          rw [splitOn.go]
          split
          · simp
          · cases hcs : splitOn.go sep 0 cs <;> simp [pushFirst]

/-- A cut gives at least one piece. -/
theorem splitOn_ne_nil (sep s : Text) : splitOn sep s ≠ [] := splitOn_go_ne_nil sep 0 s

/-- A cut at a separator cuts the two texts around it. -/
theorem splitOn_append (sep : CodePoint) (s rest : Text) :
    splitOn [sep] (s ++ sep :: rest) = splitOn [sep] s ++ splitOn [sep] rest := by
  induction s with
  | nil =>
      show splitOn.go [sep] 0 (sep :: rest) = _
      rw [splitOn.go, if_pos (by simp)]
      rfl
  | cons c cs ih =>
      show splitOn.go [sep] 0 (c :: (cs ++ sep :: rest)) = splitOn.go [sep] 0 (c :: cs) ++ _
      rw [splitOn.go, splitOn.go]
      by_cases hc : c = sep
      · rw [if_pos (by simp [hc]), if_pos (by simp [hc])]
        exact congrArg ([] :: ·) ih
      · rw [if_neg (by simpa using Ne.symm hc), if_neg (by simpa using Ne.symm hc)]
        obtain ⟨first, others, hcs⟩ := List.exists_cons_of_ne_nil (splitOn_ne_nil [sep] cs)
        show pushFirst c (splitOn [sep] (cs ++ sep :: rest))
          = pushFirst c (splitOn [sep] cs) ++ splitOn [sep] rest
        rw [ih, hcs]
        rfl

/-- The first piece ends at the first separator. -/
theorem splitOn_append_cons {sep : CodePoint} {s : Text} (h : sep ∉ s) (rest : Text) :
    splitOn [sep] (s ++ sep :: rest) = s :: splitOn [sep] rest := by
  rw [splitOn_append, splitOn_of_not_mem h, List.singleton_append]

end Text

namespace PathTree

open Text Number

/-- A path has at least one segment. -/
theorem exists_cons_of_segments {separator path : Text} {keys : List Text}
    (h : segments separator path = .ok keys) : ∃ first rest, keys = first :: rest := by
  rw [segments] at h
  split at h
  · cases h
  · cases h
    exact List.exists_cons_of_ne_nil (splitOn_ne_nil _ _)

/-- What stands between two separators of a path: some characters, and no separator. -/
def IsSegment (sep : CodePoint) (s : Text) : Prop := s ≠ [] ∧ sep ∉ s

/-- Whether a text is a segment can be decided. -/
instance (sep : CodePoint) (s : Text) : Decidable (IsSegment sep s) :=
  inferInstanceAs (Decidable (_ ∧ _))

/-- The path of a list of segments, with a separator in front of each. -/
def dotted (sep : CodePoint) : List Text → Text
  | [] => []
  | s :: rest => sep :: s ++ dotted sep rest

/-- The first segment with a separator in front, and the others. -/
theorem dotted_cons (sep : CodePoint) (s : Text) (rest : List Text) :
    dotted sep (s :: rest) = sep :: (s ++ dotted sep rest) := rfl

/-- The text of segments after the first separator is cut into these segments. -/
theorem splitOn_dotted (sep : CodePoint) (s : Text) (rest : List Text)
    (h : ∀ t ∈ s :: rest, IsSegment sep t) :
    splitOn [sep] (s ++ dotted sep rest) = s :: rest := by
  induction rest generalizing s with
  | nil =>
      rw [dotted, List.append_nil]
      exact splitOn_of_not_mem (h s List.mem_cons_self).2
  | cons t rest ih =>
      rw [dotted_cons, splitOn_append_cons (h s List.mem_cons_self).2,
        ih t (fun u hu => h u (List.mem_cons_of_mem _ hu))]

/-- The text of segments does not end in a separator. -/
theorem getLast?_dotted (sep : CodePoint) (s : Text) (rest : List Text)
    (h : ∀ t ∈ s :: rest, IsSegment sep t) (c : CodePoint)
    (hc : (s ++ dotted sep rest).getLast? = some c) : c ≠ sep := by
  induction rest generalizing s with
  | nil =>
      rw [dotted, List.append_nil] at hc
      rintro rfl
      exact (h s List.mem_cons_self).2 (List.mem_of_getLast? hc)
  | cons t rest ih =>
      refine ih t (fun u hu => h u (List.mem_cons_of_mem _ hu)) ?_
      have ht : t ++ dotted sep rest ≠ [] := by
        simp [(h t (by simp)).1]
      rw [dotted_cons, List.getLast?_append, List.getLast?_cons] at hc
      rw [List.getLast?_eq_some_getLast ht]
      rw [List.getLast?_eq_some_getLast ht] at hc
      simpa using hc

/-- A dotted path is cut into its segments. -/
theorem segments_dotted (sep : CodePoint) (segs : List Text) (hne : segs ≠ [])
    (h : ∀ s ∈ segs, IsSegment sep s) : segments [sep] (dotted sep segs) = .ok segs := by
  obtain ⟨s, rest, rfl⟩ := List.exists_cons_of_ne_nil hne
  have hs := h s List.mem_cons_self
  obtain ⟨c, cs, rfl⟩ := List.exists_cons_of_ne_nil hs.1
  have hc : c ≠ sep := fun hc => hs.2 (hc ▸ List.mem_cons_self)
  -- The separator in front goes, and there is none at the end.
  have htrim : trimOf [sep] (dotted sep ((c :: cs) :: rest)) = (c :: cs) ++ dotted sep rest := by
    unfold trimOf
    rw [dotted_cons, List.dropWhile_cons_of_pos (by simp), List.cons_append,
      List.dropWhile_cons_of_neg (by simp [hc])]
    refine dropEndWhile_eq_self fun d hd => ?_
    simpa using getLast?_dotted sep (c :: cs) rest h d hd
  rw [segments, if_neg (by simp), htrim, splitOn_dotted sep _ rest h]

/-! ### Many writes -/

/-- Writes values at lists of segments below a node, one after the other. -/
def writeAll (writes : List (List Text × Value)) (node : Value) : Except Fault Value :=
  writes.foldlM (fun node w => setAt w.2 node w.1) node

/-- No writes leave everything. -/
@[simp] theorem writeAll_nil (node : Value) : writeAll [] node = .ok node := rfl

/-- Writes one after the other, the first of them first. -/
theorem writeAll_cons (w : List Text × Value) (ws : List (List Text × Value)) (node : Value) :
    writeAll (w :: ws) node = (setAt w.2 node w.1).bind (writeAll ws) := rfl

/-- Writes go on where others ended. -/
theorem writeAll_append (ws vs : List (List Text × Value)) (node : Value) :
    writeAll (ws ++ vs) node = (writeAll ws node).bind (writeAll vs) :=
  List.foldlM_append

/-- Writes with the same first segment. -/
def under (segment : Text) (writes : List (List Text × Value)) : List (List Text × Value) :=
  writes.map fun w => (segment :: w.1, w.2)

/-- Whether a value is a mapping or a list. -/
def IsTree (v : Value) : Prop := (∃ es, v = .map es) ∨ ∃ items, v = .list items

/-- A value that is put in a place leaves a tree, whatever it is. -/
theorem Slot.isTree_put (place : Slot) (v : Value) : IsTree (place.put v) := by
  cases place with
  | field entries key => exact .inl ⟨_, rfl⟩
  | element items index => exact .inr ⟨_, rfl⟩

/-- A write below a node leaves a mapping or a list. -/
theorem isTree_setAt {value node tree : Value} {segment : Text} {rest : List Text}
    (h : setAt value node (segment :: rest) = .ok tree) : IsTree tree := by
  rw [setAt] at h
  cases hplace : slot node segment with
  | error f => simp [hplace, bind, Except.bind] at h
  | ok place =>
      cases hchild : setAt value (place.get?.getD .null) rest with
      | error f => simp [hplace, hchild, bind, Except.bind] at h
      | ok child =>
          simp only [hplace, hchild, bind, Except.bind, Except.ok.injEq] at h
          exact h ▸ place.isTree_put child

/-- On a mapping or a list, writing at a path is writing at its segments. -/
theorem setAtPath_of_segments {separator path : Text} {keys : List Text} {tree : Value}
    (value : Value) (htree : IsTree tree) (h : segments separator path = .ok keys) :
    setAtPath separator tree path value = setAt value tree keys := by
  rw [setAtPath, h]
  obtain ⟨es, rfl⟩ | ⟨items, rfl⟩ := htree <;> rfl

/-- Whether a list of entries under paths is a list of writes at their segments. -/
def AreWrites (separator : Text) : List (Text × Value) → List (List Text × Value) → Prop :=
  List.Forall₂ fun e w => segments separator e.1 = .ok w.1 ∧ e.2 = w.2

/-- The tree that a list of writes starts from: a list if the first of them starts with the
segment `0`, and a mapping otherwise. -/
def rootOf (ws : List (List Text × Value)) : Value :=
  if (ws.head?.bind (·.1.head?)) = some ("0" : Text) then .list [] else .map []

/-- What a row of writes starts from is a tree. -/
theorem isTree_rootOf (ws : List (List Text × Value)) : IsTree (rootOf ws) := by
  rw [rootOf]
  split
  · exact .inr ⟨_, rfl⟩
  · exact .inl ⟨_, rfl⟩

/-- Writing at paths is writing at their segments. -/
theorem foldlM_setAtPath {sep : CodePoint} {flat : List (Text × Value)}
    {ws : List (List Text × Value)} (h : AreWrites [sep] flat ws) {tree : Value}
    (htree : IsTree tree) :
    flat.foldlM (fun tree e => setAtPath [sep] tree e.1 e.2) tree = writeAll ws tree := by
  induction h generalizing tree with
  | nil => rfl
  | @cons e w flat ws hew _ ih =>
      obtain ⟨s, rest, hsegs⟩ := exists_cons_of_segments hew.1
      rw [List.foldlM_cons, setAtPath_of_segments e.2 htree hew.1, writeAll_cons, hew.2]
      cases hset : setAt w.2 tree w.1 with
      | error f => rfl
      | ok next => exact ih (isTree_setAt (hsegs ▸ hset))

/-- Putting a tree together from paths is writing at their segments, into a list if the first
path starts with the segment `0` and into a mapping otherwise. -/
theorem ofFlat_eq_writeAll {sep : CodePoint} {flat : List (Text × Value)}
    {ws : List (List Text × Value)} (h : AreWrites [sep] flat ws) :
    ofFlat [sep] flat = writeAll ws (rootOf ws) := by
  have hroot : root [sep] flat = .ok (rootOf ws) := by
    cases h with
    | nil => rfl
    | @cons e w flat ws hew _ =>
        obtain ⟨s, rest, hsegs⟩ := exists_cons_of_segments hew.1
        show (segments [sep] e.1 >>= fun keys => .ok _) = _
        rw [hew.1, rootOf, hsegs]
        simp [bind, Except.bind, hsegs]
  rw [ofFlat, hroot]
  exact foldlM_setAtPath h (isTree_rootOf ws)

/-- Putting a tree together from dotted paths is writing at their segments, into a list if the
first path starts with the segment `0` and into a mapping otherwise. -/
theorem ofFlat_dotted (sep : CodePoint) (ws : List (List Text × Value))
    (h : ∀ w ∈ ws, w.1 ≠ [] ∧ ∀ s ∈ w.1, IsSegment sep s) :
    ofFlat [sep] (ws.map fun w => (dotted sep w.1, w.2))
      = writeAll ws
          (if (ws.head?.bind (·.1.head?)) = some ("0" : Text) then .list [] else .map []) := by
  refine ofFlat_eq_writeAll ?_
  rw [AreWrites, List.forall₂_map_left_iff, List.forall₂_same]
  intro w hw
  exact ⟨segments_dotted sep w.1 (h w hw).1 (h w hw).2, rfl⟩

/-- Writes that all go to the value under one key of a mapping: they are writes to that
value. -/
theorem writeAll_under_key (key : Text) {ws : List (List Text × Value)} (hne : ws ≠ [])
    (entries : List (Scalar × Value)) :
    writeAll (under key ws) (.map entries)
      = (writeAll ws ((Entries.get? (.str key) entries).getD .null)).map
          fun v => .map (Entries.insert (.str key) v entries) := by
  induction ws generalizing entries with
  | nil => exact absurd rfl hne
  | cons w ws ih =>
      rw [under, List.map_cons, writeAll_cons, writeAll_cons, setAt]
      show ((setAt w.2 ((Entries.get? (.str key) entries).getD .null) w.1).bind fun child =>
          .ok (.map (Entries.insert (.str key) child entries))).bind (writeAll (under key ws)) = _
      cases setAt w.2 ((Entries.get? (.str key) entries).getD .null) w.1 with
      | error f => rfl
      | ok child =>
          show writeAll (under key ws) (.map (Entries.insert (.str key) child entries))
            = (writeAll ws child).map _
          by_cases hws : ws = []
          · subst hws
            rfl
          · rw [ih hws, Entries.get?_insert_self, Option.getD_some]
            simp only [Entries.insert_insert_self]

/-- Writes that all go to the first element of a list that has that one element. -/
private theorem writeAll_under_zero_singleton (ws : List (List Text × Value)) (child : Value) :
    writeAll (under "0" ws) (.list [child]) = (writeAll ws child).map fun v => .list [v] := by
  induction ws generalizing child with
  | nil => rfl
  | cons w ws ih =>
      rw [under, List.map_cons, writeAll_cons, writeAll_cons, setAt]
      show ((setAt w.2 child w.1).bind fun c => .ok (.list [c])).bind
        (writeAll (under "0" ws)) = _
      cases setAt w.2 child w.1 with
      | error f => rfl
      | ok next => exact ih next

/-- Writes that all go to the first element of a list that has none yet. The list may itself
be missing: the segment `0` starts one. -/
theorem writeAll_under_zero {ws : List (List Text × Value)} (hne : ws ≠ []) {node : Value}
    (hnode : node = .list [] ∨ node = .null) :
    writeAll (under "0" ws) node = (writeAll ws .null).map fun v => .list [v] := by
  obtain ⟨w, ws, rfl⟩ := List.exists_cons_of_ne_nil hne
  have hslot : slot node "0" = .ok (.element [] 0) := by
    obtain rfl | rfl := hnode <;> rfl
  rw [under, List.map_cons, writeAll_cons, writeAll_cons, setAt, hslot]
  show ((setAt w.2 .null w.1).bind fun c => .ok (.list [c])).bind (writeAll (under "0" ws)) = _
  cases setAt w.2 .null w.1 with
  | error f => rfl
  | ok child => exact writeAll_under_zero_singleton ws child

/-- Where there is nothing yet, a first segment other than `0` starts a mapping. -/
theorem writeAll_null_eq {segment : Text} (hseg : segment ≠ "0") (w : List Text × Value)
    (ws : List (List Text × Value)) (hw : w.1.head? = some segment) :
    writeAll (w :: ws) .null = writeAll (w :: ws) (.map []) := by
  obtain ⟨rest, hsegs⟩ : ∃ rest, w.1 = segment :: rest := by
    cases hw1 : w.1 with
    | nil => simp [hw1] at hw
    | cons s rest => simp_all
  have hslot : slot .null segment = slot (.map []) segment := by
    show (if segment = _ then _ else _) = _
    rw [if_neg hseg]
    rfl
  rw [writeAll_cons, writeAll_cons, hsegs, setAt, setAt, hslot]

end PathTree

end RouteDocs
