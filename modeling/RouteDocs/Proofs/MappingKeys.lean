import RouteDocs.Proofs.Coupling
import RouteDocs.Proofs.MergedPaths
import RouteDocs.Proofs.ReadingFaults

/-!
# `RouteDocs.Proofs.MappingKeys`: no mapping has a key twice

A value is looked up by its address, which is the keys on the way to it. For this to be the
value that a walk over all entries meets there, no key may stand in a mapping twice. It never
does in what YAML reads: the entries of a mapping are written one after the other, and the
later of two with one key replaces the earlier (`keysDiffer_of_read`).

The proof is an invariant of construction: every step keeps the mappings among the cells keyed
(`Keeps`), and the tree below a cell has the mappings of the cells.
-/

set_option autoImplicit false

namespace RouteDocs

namespace Entries

variable {κ α β : Type} [BEq κ]

/-- No key stands twice. Keys are compared as a mapping compares them, where `1` and `1.0` are one
key. -/
def IsKeyed (es : List (κ × α)) : Prop := es.Pairwise fun e f => (e.1 == f.1) = false

/-- An entry in front of others keeps them keyed when none of them has its key. -/
theorem isKeyed_cons_iff {e : κ × α} {es : List (κ × α)} :
    IsKeyed (e :: es) ↔ (∀ f ∈ es, (e.1 == f.1) = false) ∧ IsKeyed es := List.pairwise_cons

/-- A function on the values leaves the keys, and so leaves them apart. -/
theorem IsKeyed.map_values {es : List (κ × α)} (h : IsKeyed es) (f : α → β) :
    IsKeyed (es.map fun e => (e.1, f e.2)) :=
  List.pairwise_map.mpr h

/-- A write keeps the entries keyed. Under a key that is there it replaces the value in place, and
any other entry goes last. -/
theorem IsKeyed.insert {es : List (κ × α)} (h : IsKeyed es) (key : κ) (value : α) :
    IsKeyed (insert key value es) := by
  induction es with
  | nil => exact List.pairwise_singleton _ _
  | cons e es ih =>
      obtain ⟨hhead, htail⟩ := isKeyed_cons_iff.mp h
      rw [insert_cons]
      split
      · exact isKeyed_cons_iff.mpr ⟨hhead, htail⟩
      · rename_i hkey
        refine isKeyed_cons_iff.mpr ⟨fun f hf => ?_, ih htail⟩
        obtain hf | hf := mem_keys_insert hf
        · simpa [hf] using hkey
        · obtain ⟨f', hf', heq⟩ := List.mem_map.mp hf
          rw [← heq]
          exact hhead f' hf'

/-- Writes one after the other keep the entries keyed, by the step for one of them. -/
theorem IsKeyed.insertAll {old : List (κ × α)} (h : IsKeyed old) (new : List (κ × α)) :
    IsKeyed (insertAll old new) := by
  induction new generalizing old with
  | nil => exact h
  | cons e new ih => exact ih (h.insert e.1 e.2)

/-- Writes leave no key twice, whatever the entries that are written. -/
theorem isKeyed_ofList (es : List (κ × α)) : IsKeyed (ofList es) :=
  IsKeyed.insertAll .nil es

variable [EquivBEq κ]

/-- A key is not there exactly if it is like none of those that are. -/
theorem has_eq_false_iff {key : κ} {es : List (κ × α)} :
    has key es = false ↔ ∀ e ∈ es, (key == e.1) = false := by
  constructor
  · intro h e he
    rw [BEq.comm]
    exact beq_eq_false_of_has h (List.mem_map_of_mem he)
  · intro h
    rw [has, Option.isSome_eq_false_iff, Option.isNone_iff_eq_none,
      Option.eq_none_iff_forall_ne_some]
    intro v hv
    obtain ⟨k, hmem, hk⟩ := exists_mem_of_get? hv
    rw [BEq.comm, h _ hmem] at hk
    cases hk

/-- Where no key stands twice, an entry is what is found under its key: nothing in front of it has
that key. -/
theorem IsKeyed.get?_of_mem {es : List (κ × α)} (h : IsKeyed es) {k : κ} {v : α}
    (hmem : (k, v) ∈ es) : get? k es = some v := by
  induction es with
  | nil => cases hmem
  | cons e es ih =>
      obtain ⟨hhead, htail⟩ := isKeyed_cons_iff.mp h
      rw [get?_cons]
      obtain rfl | hmem := List.mem_cons.mp hmem
      · rw [if_pos BEq.rfl]
      · have hne : ¬ (e.1 == k) = true := by simpa using hhead _ hmem
        rw [if_neg hne]
        exact ih htail hmem

end Entries

/-- A mapping has no key twice. Nothing is asked of the other kinds of values, as only a mapping
has keys. -/
def View.IsKeyed {α : Type} : View α → Prop
  | .map entries => Entries.IsKeyed entries
  | _ => True

/-- The check on a whole tree of entries, in its two parts: the keys here differ, and so do those
of every mapping further down. -/
theorem Value.entriesDiffer_iff {entries : List (Scalar × Value)} :
    entriesDiffer entries = true ↔
      Entries.IsKeyed entries ∧ ∀ e ∈ entries, e.2.keysDiffer = true := by
  induction entries with
  | nil => simp [entriesDiffer, Entries.IsKeyed]
  | cons e entries ih =>
      -- Both sides ask for the same of the first entry, in another order.
      rw [entriesDiffer, Bool.and_eq_true, Bool.and_eq_true, Bool.not_eq_true', ih,
        Entries.has_eq_false_iff, Entries.isKeyed_cons_iff, List.forall_mem_cons]
      tauto

/-- The tree below a cell has the mappings of the cells. So when no cell has a key twice, no
mapping of the tree does, however often a cell is unfolded. -/
theorem Part.keysDiffer_unfold {cells : Array (View Nat)} (h : ∀ v ∈ cells, v.IsKeyed)
    (fuel : Nat) (around : List Nat) (cell : Nat) :
    (unfold cells fuel around cell).keysDiffer = true := by
  induction fuel generalizing around cell with
  | zero => rfl
  | succ fuel ih =>
      have hcell : ((cells[cell]?).getD (.scalar .null)).IsKeyed := by
        cases hget : cells[cell]? with
        | none => trivial
        | some v => exact h v (Array.mem_of_getElem? hget)
      rw [unfold]
      split
      · rfl
      · split <;> rfl
      · split <;> rfl
      · rfl
      · rename_i entries hentries
        split
        · rfl
        · rw [hentries] at hcell
          refine Value.entriesDiffer_iff.mpr ⟨Entries.IsKeyed.map_values hcell _, fun e he => ?_⟩
          obtain ⟨e, -, rfl⟩ := List.mem_map.mp he
          exact ih _ e.2

/-- The same of the value that a part stands for, which is the tree below its root. -/
theorem Part.keysDiffer_value {p : Part} (h : ∀ v ∈ p.cells, v.IsKeyed) :
    p.value.keysDiffer = true :=
  keysDiffer_unfold h _ _ _

namespace Yaml.Construction

/-- The mappings among the cells have no key twice. -/
def IsKeyed (s : Construction) : Prop := ∀ v, some v ∈ s.cells → v.IsKeyed

/-- A step of construction that gives a value with `R`, and keeps the mappings among the cells
keyed. -/
def Keeps {α : Type} (R : α → Prop) (x : Construct α) : Prop :=
  ∀ s, IsKeyed s → Ends (fun r => R r.1 ∧ IsKeyed r.2) (fun _ => True) (x.run s)

/-- A step that gives any value. -/
abbrev KeepsAny {α : Type} (x : Construct α) : Prop := Keeps (fun _ => True) x

namespace Keeps

variable {α β : Type} {R : α → Prop} {S : β → Prop}

/-- A step that does nothing gives the value it was given. -/
theorem pure {a : α} (h : R a) : Keeps R (Pure.pure a) := fun _ hs => .ok ⟨h, hs⟩

/-- A failure gives no value, and so nothing is asked of it. -/
theorem throw (e : Failure) : Keeps R (throw e : Construct α) := fun _ _ => .error trivial

/-- A step that does not look at the state leaves the cells. -/
theorem lift (x : Except Failure α) : KeepsAny (x : Construct α) := by
  intro s hs
  cases x with
  | ok a => exact .ok ⟨trivial, hs⟩
  | error e => exact .error trivial

/-- Steps in a row keep the mappings keyed, the second for any value that the first can give. -/
theorem bind {x : Construct α} {f : α → Construct β} (hx : Keeps R x)
    (hf : ∀ a, R a → Keeps S (f a)) : Keeps S (x >>= f) := by
  intro s hs
  rw [StateT.run_bind]
  exact (hx s hs).bind fun r hr => hf r.1 hr.1 r.2 hr.2

/-- Looking at the state leaves the cells. -/
theorem get : KeepsAny (get : Construct Construction) := fun _ hs => .ok ⟨trivial, hs⟩

/-- A change of the state keeps the mappings keyed when the function does. -/
theorem modify {f : Construction → Construction} (h : ∀ s, IsKeyed s → IsKeyed (f s)) :
    KeepsAny (modify f : Construct Unit) := fun s hs => .ok ⟨trivial, h s hs⟩

/-- The same step for each of some items. The induction is on the items. -/
theorem mapM {f : α → Construct β} (h : ∀ a, KeepsAny (f a)) (as : List α) :
    KeepsAny (as.mapM f) := by
  induction as with
  | nil => exact .pure trivial
  | cons a as ih =>
      rw [List.mapM_cons]
      exact (h a).bind fun _ _ => ih.bind fun _ _ => .pure trivial

/-- A loop over items, which may stop early. What it carries along is arbitrary. -/
theorem forIn {f : α → β → Construct (ForInStep β)} (h : ∀ a b, KeepsAny (f a b)) (as : List α)
    (b : β) : KeepsAny (forIn as b f) := by
  induction as generalizing b with
  | nil => exact .pure trivial
  | cons a as ih =>
      rw [List.forIn_cons]
      refine (h a b).bind fun step _ => ?_
      cases step with
      | done b => exact .pure trivial
      | yield b => exact ih b

/-- A search among items stops at the first that passes, or goes through them all. -/
theorem findM? {p : α → Construct Bool} (h : ∀ a, KeepsAny (p a)) (as : List α) :
    KeepsAny (as.findM? p) := by
  induction as with
  | nil => exact .pure trivial
  | cons a as ih =>
      rw [List.findM?]
      refine (h a).bind fun found _ => ?_
      cases found with
      | true => exact .pure trivial
      | false => exact ih

end Keeps

/-! ### Steps on nodes -/

/-- Looking a node up makes no cell. -/
theorem nodeAt_keeps (number : Nat) : KeepsAny (nodeAt number) :=
  Keeps.get.bind fun _ _ => .pure trivial

/-- Writing a node makes no cell: nodes and cells are in arrays of their own. -/
theorem setNode_keeps (number : Nat) (n : Node) : KeepsAny (setNode number n) :=
  .modify fun _ hs => hs

/-- Reading the entries of a node makes no cell. -/
theorem entriesOf_keeps (number : Nat) : KeepsAny (entriesOf number) := by
  refine (nodeAt_keeps number).bind fun n _ => ?_
  split <;> exact .pure trivial

/-- Writing the entries of a node makes no cell. -/
theorem setEntries_keeps (number : Nat) (entries : List (Nat × Nat)) :
    KeepsAny (setEntries number entries) := by
  refine (nodeAt_keeps number).bind fun n _ => ?_
  split
  · exact setNode_keeps _ _
  · exact .pure trivial

/-- Making a text of a key that is an equals sign changes a node and makes no cell. -/
theorem readAsText_keeps (key : Nat) : KeepsAny (readAsText key) := by
  refine (nodeAt_keeps key).bind fun n _ => ?_
  split
  · exact setNode_keeps _ _
  · exact setNode_keeps _ _
  · exact setNode_keeps _ _
  · exact .pure trivial

/-- Looking for the first entry with a merge key makes no cell. The induction is on the entries. -/
theorem takeMerge_keeps (entries : List (Nat × Nat)) : KeepsAny (takeMerge entries) := by
  induction entries with
  | nil => exact .pure trivial
  | cons e rest ih =>
      rw [takeMerge]
      refine (nodeAt_keeps e.1).bind fun n _ => ?_
      split
      · exact .pure trivial
      · exact ih.bind fun _ _ => .pure trivial

/-- The mappings that a merge key names are found without a cell. -/
theorem mergeTargets_keeps (value : Nat) : KeepsAny (mergeTargets value) := by
  refine (nodeAt_keeps value).bind fun n _ => ?_
  split
  · exact .pure trivial
  · exact .pure trivial
  · exact .throw _

/-- Taking the merge keys out moves entries about and makes no cells. The induction is on the
merge keys that there are; the room for mappings behind each other only stops it. -/
theorem takeMerges_keeps (fuel room number : Nat) : KeepsAny (takeMerges fuel room number) := by
  induction fuel generalizing room number with
  | zero => exact .pure trivial
  | succ fuel ih =>
      rw [takeMerges]
      refine (entriesOf_keeps number).bind fun entries _ => ?_
      refine (Keeps.forIn (fun e _ => ?_) entries _).bind fun _ _ => ?_
      · exact (readAsText_keeps e.1).bind fun _ _ => .pure trivial
      refine (takeMerge_keeps entries).bind fun merge _ => ?_
      -- Without a merge key the mapping stays as it is.
      cases merge with
      | none => exact .pure trivial
      | some m =>
          obtain ⟨value, rest⟩ := m
          dsimp only
          refine (setEntries_keeps number rest).bind fun _ _ => ?_
          refine (mergeTargets_keeps value).bind fun targets _ => ?_
          refine (Keeps.forIn (fun target _ => ?_) _ _).bind fun _ _ => ?_
          · refine (nodeAt_keeps target).bind fun n _ => ?_
            split
            · exact Keeps.bind (R := fun _ => True) (.throw _) fun _ _ => .pure trivial
            · -- What the target merges itself comes first, with one merge key less to go.
              refine (ih _ target).bind fun merged _ => ?_
              refine (entriesOf_keeps target).bind fun own _ => ?_
              exact (setEntries_keeps target _).bind fun _ _ => .pure trivial
            · exact Keeps.bind (R := fun _ => True) (.throw _) fun _ _ => .pure trivial
          · refine (Keeps.mapM entriesOf_keeps targets).bind fun merged _ => ?_
            exact (ih room number).bind fun _ _ => .pure trivial

/-- Merging what is named by the merge keys of a node moves entries of nodes only. Which of two
entries with one key counts is decided later, when they are written. -/
theorem merge_keeps (number : Nat) : KeepsAny (merge number) := by
  refine Keeps.get.bind fun s _ => ?_
  refine (takeMerges_keeps _ _ number).bind fun merged _ => ?_
  exact (entriesOf_keeps number).bind fun own _ => setEntries_keeps number _

/-! ### Steps on cells -/

/-- A cell is filled with a value whose keys differ. -/
theorem setCell_keeps {v : View Nat} (hv : v.IsKeyed) (number : Nat) :
    KeepsAny (setCell number v) := by
  refine .modify fun s hs w hw => ?_
  obtain hw | hw := Array.mem_or_eq_of_mem_setIfInBounds hw
  · exact hs w hw
  · cases hw
    exact hv

/-- A new cell holds a value whose keys differ. -/
theorem newCell_keeps {v : View Nat} (hv : v.IsKeyed) : KeepsAny (newCell v) := by
  refine Keeps.get.bind fun s _ => ?_
  refine (Keeps.modify fun s hs w hw => ?_).bind fun _ _ => .pure trivial
  obtain hw | hw := Array.mem_push.mp hw
  · exact hs w hw
  · cases hw
    exact hv

/-- The text of a node is looked for along the values that stand for it, as far as there is room.
No cell is made on the way. -/
theorem scalarText_keeps (room number : Nat) : KeepsAny (scalarText room number) := by
  induction room generalizing number with
  | zero => exact .throw _
  | succ room ih =>
      rw [scalarText]
      refine (nodeAt_keeps number).bind fun n _ => ?_
      split
      · exact .pure trivial
      · exact .throw _
      · rename_i kind entries
        refine (Keeps.findM? (fun e => ?_) entries).bind fun found _ => ?_
        · exact (nodeAt_keeps e.1).bind fun _ _ => .pure trivial
        split
        · exact ih _
        · exact .throw _

/-- A collection waits with an empty cell, which has no key at all. -/
theorem isKeyed_emptyCell? {kind : Kind} {v : View Nat} (h : kind.emptyCell? = some v) :
    v.IsKeyed := by
  cases kind with
  | seq | pairs | set =>
      cases h
      trivial
  | map =>
      cases h
      exact .nil
  | _ => cases h

/-- The cell of a node is made on the first visit, as a scalar or an empty collection, and found
again on the others. -/
theorem cellOf_keeps (number : Nat) : KeepsAny (cellOf number) := by
  refine Keeps.get.bind fun s _ => ?_
  split
  · exact .pure trivial
  · refine (nodeAt_keeps number).bind fun n _ => ?_
    split
    · refine (scalarText_keeps _ number).bind fun text _ => ?_
      split
      · exact Keeps.bind (R := fun _ => True) (.throw _) fun _ _ => .pure trivial
      · refine (Keeps.lift _).bind fun scalar _ => ?_
        have hcell : (View.scalar scalar : View Nat).IsKeyed := trivial
        exact (setCell_keeps hcell number).bind fun _ _ => .pure trivial
    · split
      · exact Keeps.bind (R := fun _ => True) (.throw _) fun _ _ => .pure trivial
      · rename_i cell hcell
        refine (setCell_keeps (isKeyed_emptyCell? hcell) number).bind fun _ _ => ?_
        refine Keeps.bind (R := fun _ => True) (.modify fun _ hs => hs) fun _ _ => ?_
        exact .pure trivial

/-- A key is read as a scalar. What has no scalar fails, and a cell may be made before it does. -/
theorem keyOf_keeps (number : Nat) : KeepsAny (keyOf number) := by
  refine (cellOf_keeps number).bind fun cell _ => ?_
  refine Keeps.get.bind fun s _ => ?_
  split
  · exact .pure trivial
  · exact .throw _

/-- The entries of a mapping are written one after the other, so they come out keyed, whatever
stands in the text. -/
theorem mapEntries_keeps (number : Nat) : Keeps Entries.IsKeyed (mapEntries number) := by
  refine (nodeAt_keeps number).bind fun n _ => ?_
  split
  · refine (merge_keeps number).bind fun _ _ => ?_
    refine (entriesOf_keeps number).bind fun own _ => ?_
    refine (Keeps.mapM (fun e => ?_) own).bind fun entries _ => ?_
    · refine (keyOf_keeps e.1).bind fun key _ => ?_
      exact (cellOf_keeps e.2).bind fun value _ => .pure trivial
    · exact .pure (Entries.isKeyed_ofList entries)
  · exact .throw _

/-- A pair is a new cell, which has no key of its own. -/
theorem pairOf_keeps (number : Nat) : KeepsAny (pairOf number) := by
  refine (nodeAt_keeps number).bind fun n _ => ?_
  split
  · refine (cellOf_keeps _).bind fun key _ => ?_
    refine (cellOf_keeps _).bind fun value _ => ?_
    exact newCell_keeps trivial
  · exact .throw _

/-- The parts of a node are those of a list, a set, a pair or a mapping. Those of a mapping are
keyed by `mapEntries_keeps`. -/
theorem parts_keeps (number : Nat) : Keeps View.IsKeyed (parts number) := by
  refine (nodeAt_keeps number).bind fun n _ => ?_
  split
  · refine (Keeps.mapM cellOf_keeps _).bind fun cells _ => ?_
    exact .pure trivial
  · refine (Keeps.mapM pairOf_keeps _).bind fun cells _ => ?_
    exact .pure trivial
  · refine (mapEntries_keeps number).bind fun entries _ => ?_
    exact .pure trivial
  · exact (mapEntries_keeps number).bind fun entries hentries => .pure hentries
  · exact .throw _

/-- All waiting cells are filled, in turn, and the mappings among them stay keyed. The induction
is on the room for it, as a cell may make others wait. -/
theorem fillAll_keeps (fuel : Nat) (turn : List Nat) : KeepsAny (fillAll fuel turn) := by
  induction fuel generalizing turn with
  | zero => exact .pure trivial
  | succ fuel ih =>
      cases turn with
      | cons number turn =>
          rw [fillAll]
          refine (parts_keeps number).bind fun v hv => ?_
          exact (setCell_keeps hv number).bind fun _ _ => ih turn
      | nil =>
          rw [fillAll]
          refine Keeps.get.bind fun s _ => ?_
          dsimp only
          split
          · exact .pure trivial
          · refine Keeps.bind (R := fun _ => True) (.modify fun _ hs => hs) fun _ _ => ?_
            exact ih _

end Yaml.Construction

namespace Yaml

/-- A construction starts with all cells empty, so the mappings among the cells that it ends with
have no key twice. -/
theorem NodeGraph.content_isKeyed {g : NodeGraph} {part : Part} (h : g.content = .ok part) :
    ∀ v ∈ part.cells, v.IsKeyed := by
  have hsteps : Construction.KeepsAny (do
      let _ ← Construction.cellOf g.root
      Construction.fillAll (2 * g.nodes.size + 2) []) :=
    (Construction.cellOf_keeps g.root).bind fun _ _ => Construction.fillAll_keeps _ _
  -- At the start no cell is filled.
  have hends := hsteps ⟨g.nodes, Array.replicate g.nodes.size none, [], g.countMerges⟩ (by
    intro v hv
    cases Array.eq_of_mem_replicate hv)
  rw [content] at h
  obtain ⟨r, hrun, hpart⟩ := exists_of_bind_eq_ok h
  rw [hrun] at hends
  cases hpart
  cases hends with
  | ok hdone =>
      intro v hv
      obtain ⟨cell, hcell, rfl⟩ := Array.mem_map.mp hv
      cases cell with
      | none => trivial
      | some v => exact hdone.2 v hcell

/-- No mapping that YAML reads has a key twice, at any depth. A manifest, a settings file and a
property block all are of this form. -/
theorem keysDiffer_of_read {s : Text} {part : Part} (h : read s = .ok part) :
    part.value.keysDiffer = true := by
  rw [read] at h
  obtain ⟨graph, -, hpart⟩ := exists_of_bind_eq_ok h
  cases graph with
  | none =>
      cases hpart
      exact Part.keysDiffer_value (by simp)
  | some g => exact Part.keysDiffer_value (NodeGraph.content_isKeyed hpart)

end Yaml

end RouteDocs
