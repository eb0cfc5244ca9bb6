import RouteDocs.Proofs.ClockEdge
import RouteDocs.Proofs.ReadingFaults

/-!
# `RouteDocs.Proofs.SchemaFaults`: schemas that no example is made of

A nested schema that was read may still break the making of its example. There are three
ways. A key that cannot be shown gives a field no name. A field whose name holds a segment of
digits that form no decimal number cannot be written into a list. And a date cannot be made of
a second that the calendar does not have. `SchemaFault` lists them with their faults, and
`valueFor_ends` says that there are no others.

`AlwaysEnds R E` says of a computation what `Ends R E` says of a result, from any state. Field
paths are made of the keys of the schema on the way (`FromKeys`), and this is how a segment
that a tree refuses is traced back to a key.
-/

set_option autoImplicit false

namespace RouteDocs

open Text

/-- From any state, a computation ends in a value with `R`, or in a failure with `E`. -/
def AlwaysEnds {σ α : Type} (R : α → Prop) (E : Error → Prop) (x : Synth σ α) : Prop :=
  ∀ s, Ends R E (x.outcome s)

namespace AlwaysEnds

variable {σ α β : Type} {R : α → Prop} {S : β → Prop} {E : Error → Prop}

/-- A computation that does nothing ends with its result. -/
theorem pure {a : α} (h : R a) : AlwaysEnds R E (Pure.pure a : Synth σ α) := fun _ => .ok h

/-- A failure ends with an error. -/
theorem throw {e : Error} (h : E e) : AlwaysEnds R E (MonadExcept.throw e : Synth σ α) :=
  fun _ => .error h

/-- What is known of the results and of the errors may be weakened. -/
theorem mono {R' : α → Prop} {E' : Error → Prop} {x : Synth σ α} (h : AlwaysEnds R E x)
    (hR : ∀ a, R a → R' a) (hE : ∀ e, E e → E' e) : AlwaysEnds R' E' x :=
  fun s => (h s).mono hR hE

/-- Two computations in a row end, if the second does for every result of the first. -/
theorem bind {x : Synth σ α} {f : α → Synth σ β} (h : AlwaysEnds R E x)
    (hf : ∀ a, R a → AlwaysEnds S E (f a)) : AlwaysEnds S E (x >>= f) := by
  intro s
  have hx := h s
  cases hout : x.outcome s with
  | ok a =>
      rw [hout] at hx
      cases hx with
      | ok ha =>
          rw [Synth.outcome_bind_ok hout]
          exact hf a ha _
  | error e =>
      rw [hout] at hx
      rw [Synth.outcome_bind_error hout]
      exact .error hx.of_error

/-- What ends without drawing ends as a computation too. -/
theorem lift {x : Except Error α} (h : Ends R E x) :
    AlwaysEnds R E (Endpoint.lift x : Synth σ α) := by
  cases h with
  | ok h => exact .pure h
  | error h => exact .throw h

/-- A fault becomes an error of the computation. -/
theorem orThrow {F : Fault → Prop} {x : Except Fault α} (h : Ends R F x)
    (hF : ∀ f, F f → E (.fault f)) : AlwaysEnds R E (Synthesis.orThrow x : Synth σ α) := by
  cases h with
  | ok h => exact .pure h
  | error h => exact .throw (hF _ h)

end AlwaysEnds

/-! ### Writing at a path -/

namespace Text

/-- Pieces of a text without separators in front are pieces of the text. -/
theorem mem_splitOn_of_dropWhile {sep : CodePoint} {piece s : Text}
    (h : piece ∈ splitOn [sep] (s.dropWhile fun c => [sep].contains c)) :
    piece ∈ splitOn [sep] s := by
  induction s with
  | nil => exact h
  | cons c cs ih =>
      by_cases hc : c = sep
      · subst hc
        rw [List.dropWhile_cons_of_pos (by simp)] at h
        exact splitOn_append c [] cs ▸ List.mem_append_right _ (ih h)
      · rwa [List.dropWhile_cons_of_neg (by simpa using hc)] at h

/-- Pieces of a text without separators at the end are pieces of the text. -/
theorem mem_splitOn_of_dropEndWhile {sep : CodePoint} {piece s : Text}
    (h : piece ∈ splitOn [sep] (dropEndWhile (fun c => [sep].contains c) s)) :
    piece ∈ splitOn [sep] s := by
  -- What is dropped is nothing, or starts with a separator.
  have hs : s = dropEndWhile (fun c => [sep].contains c) s
      ++ (s.reverse.takeWhile fun c => [sep].contains c).reverse := by
    rw [dropEndWhile, ← List.reverse_append, List.takeWhile_append_dropWhile, List.reverse_reverse]
  cases hdropped : (s.reverse.takeWhile fun c => [sep].contains c).reverse with
  | nil =>
      rw [hdropped, List.append_nil] at hs
      exact hs ▸ h
  | cons c cs =>
      have hc : c = sep := by
        have hmem : c ∈ s.reverse.takeWhile fun c => [sep].contains c :=
          List.mem_reverse.mp (hdropped ▸ List.mem_cons_self)
        simpa using List.all_eq_true.mp List.all_takeWhile c hmem
      rw [hs, hdropped, hc, splitOn_append]
      exact List.mem_append_left _ h

end Text

namespace PathTree

open Synthesis

/-- Segments of a path are pieces of it. -/
theorem segments_ends (path : Text) :
    Ends (fun keys => ∀ key ∈ keys, key ∈ splitOn separator path) (fun _ => False)
      (segments separator path) :=
  .ok fun _ h => mem_splitOn_of_dropWhile (mem_splitOn_of_dropEndWhile h)

/-- A segment of digits that form no decimal number. -/
def IsBadIndex (segment : Text) : Prop := index? segment = .error .badValue

/-- A segment is read as a position, or as none, unless it is made of digits that form no
decimal number. -/
theorem index?_ends (segment : Text) :
    Ends (fun _ => True) (fun f => f = .badValue ∧ IsBadIndex segment) (index? segment) := by
  cases hindex : index? segment with
  | ok i => exact .ok trivial
  | error f =>
      have hf : f = .badValue := by
        unfold index? at hindex
        split at hindex
        · split at hindex
          · cases hindex
            rfl
          · cases hindex
        · cases hindex
      subst hf
      exact .error ⟨rfl, hindex⟩

/-- So it is when a segment addresses a place in a value: a list is where positions are read. -/
theorem slot_ends (node : Value) (segment : Text) :
    Ends (fun _ => True) (fun f => f = .badValue ∧ IsBadIndex segment) (slot node segment) := by
  unfold slot
  split
  · exact .ok trivial
  · refine (index?_ends segment).bind fun i _ => ?_
    split
    · split <;> exact .ok trivial
    · exact .ok trivial
  · split <;> exact .ok trivial

/-- A write below a node fails only by a segment of digits that form no decimal number. -/
theorem setAt_ends (value node : Value) (keys : List Text) :
    Ends (fun tree => keys ≠ [] → IsTree tree)
      (fun f => f = .badValue ∧ ∃ key ∈ keys, IsBadIndex key) (setAt value node keys) := by
  induction keys generalizing node with
  | nil => exact .ok fun h => absurd rfl h
  | cons key rest ih =>
      rw [setAt]
      -- The place of the first segment, then the write of the others below it.
      refine ((slot_ends node key).mono_error ?_).bind fun place _ => ?_
      · rintro f ⟨rfl, hkey⟩
        exact ⟨rfl, key, List.mem_cons_self, hkey⟩
      refine ((ih _).mono_error ?_).bind fun child _ => ?_
      · rintro f ⟨rfl, bad, hmem, hbad⟩
        exact ⟨rfl, bad, List.mem_cons_of_mem _ hmem, hbad⟩
      exact .ok fun _ => place.isTree_put child

/-- A path with a piece of digits that form no decimal number. -/
def IsBadPath (path : Text) : Prop := ∃ piece ∈ splitOn separator path, IsBadIndex piece

/-- A write at a path of a tree leaves a tree, or fails at a segment of such digits. -/
theorem setAtPath_ends {tree : Value} (htree : IsTree tree) (path : Text) (value : Value) :
    Ends IsTree (fun f => f = .badValue ∧ IsBadPath path)
      (setAtPath separator tree path value) := by
  refine ((segments_ends path).with_self.mono_error fun _ h => h.elim).bind fun keys hkeys => ?_
  have hset : Ends IsTree (fun f => f = .badValue ∧ IsBadPath path) (setAt value tree keys) := by
    refine (setAt_ends value tree keys).mono (fun t ht => ht ?_) ?_
    · obtain ⟨first, rest, rfl⟩ := exists_cons_of_segments hkeys.1
      exact List.cons_ne_nil first rest
    · rintro f ⟨rfl, key, hmem, hbad⟩
      exact ⟨rfl, key, hkeys.2 key hmem, hbad⟩
  -- Writes to a text or to a number, which fail in other ways, do not come up.
  obtain ⟨es, rfl⟩ | ⟨items, rfl⟩ := htree
  · exact hset
  · exact hset

/-- A tree starts without a failure, as a list or as a mapping. -/
theorem root_ends (flat : List (Text × Value)) :
    Ends IsTree (fun _ => False) (root separator flat) := by
  refine (segments_ends _).bind fun keys _ => .ok ?_
  split
  · exact .inr ⟨_, rfl⟩
  · exact .inl ⟨_, rfl⟩

/-- A tree is put together from values under paths, unless one of the paths has such a segment. -/
theorem ofFlat_ends (flat : List (Text × Value)) :
    Ends (fun _ => True) (fun f => f = .badValue ∧ ∃ e ∈ flat, IsBadPath e.1)
      (ofFlat separator flat) := by
  refine ((root_ends flat).mono_error fun _ h => h.elim).bind fun tree htree => ?_
  refine (Ends.foldlM (I := IsTree) (fun t e he ht => ?_) htree).mono (fun _ _ => trivial)
    fun _ h => h
  refine (setAtPath_ends ht e.1 e.2).mono_error ?_
  rintro f ⟨rfl, hbad⟩
  exact ⟨rfl, e, he, hbad⟩

/-- The places of the writes are found under the same condition. -/
theorem placements_ends {tree : Value} (htree : IsTree tree) (flat : List (Text × Value)) :
    Ends (fun _ => True) (fun f => f = .badValue ∧ ∃ e ∈ flat, IsBadPath e.1)
      (placements separator tree flat) := by
  induction flat generalizing tree with
  | nil => exact .ok trivial
  | cons e flat ih =>
      rw [placements]
      refine ((segments_ends e.1).mono_error fun _ h => h.elim).bind fun keys _ => ?_
      refine ((setAtPath_ends htree e.1 e.2).mono_error ?_).bind fun next hnext => ?_
      · rintro f ⟨rfl, hbad⟩
        exact ⟨rfl, e, List.mem_cons_self, hbad⟩
      refine ((ih hnext).mono_error ?_).bind fun _ _ => .ok trivial
      rintro f ⟨rfl, e', hmem, hbad⟩
      exact ⟨rfl, e', List.mem_cons_of_mem _ hmem, hbad⟩

end PathTree

/-! ### Schemas -/

/-- Some second from the start of the month to this one has no date, by this fault. -/
def Moment.Misses (now : Moment) (f : Fault) : Prop :=
  ∃ n, n ≤ now.secondsIntoMonth ∧ now.drawn n = .error f

/-- Some second from the start of the month to this one has no date. -/
def Moment.IsPartial (now : Moment) : Prop := ∃ f, now.Misses f

/-- Then the worst second to draw is one of these. -/
theorem Moment.IsPartial.exists_worstSecond {now : Moment} (h : now.IsPartial) :
    ∃ f, now.drawn now.worstSecond = .error f := by
  obtain ⟨f, n, hn, hmiss⟩ := h
  cases hworst : now.drawn now.worstSecond with
  | error f => exact ⟨f, rfl⟩
  | ok m =>
      obtain ⟨a, ha⟩ := exists_drawn_of_worstSecond hworst hn
      rw [ha] at hmiss
      cases hmiss

namespace Value

/-- A key of a mapping in the value. -/
def HasKey (v : Value) (k : Scalar) : Prop :=
  ∃ entries, v.Has (.map entries) ∧ ∃ e ∈ entries, e.1 = k

/-- A key further down is a key of the whole. -/
theorem HasKey.of_has {v w : Value} {k : Scalar} (h : w.HasKey k) (hv : v.Has w) : v.HasKey k := by
  obtain ⟨entries, hentries, hk⟩ := h
  exact ⟨entries, hv.trans hentries, hk⟩

end Value

namespace Synthesis

open PathTree

/-- Why no example is made of a schema, with the fault. -/
inductive SchemaFault (now : Moment) (schema : Value) : Fault → Prop where
  /-- A date is made of a second that has none. -/
  | clock {f : Fault} (h : now.Misses f) : SchemaFault now schema f
  /-- A key of the schema cannot be shown. -/
  | key {k : Scalar} {f : Fault} (hkey : schema.HasKey k) (h : k.display = .error f) :
      SchemaFault now schema f
  /-- The name of a field has a segment of digits that form no decimal number. -/
  | digits {k : Scalar} {name segment : Text} (hkey : schema.HasKey k)
      (hname : k.display = .ok name) (hsegment : segment ∈ splitOn separator name)
      (hbad : IsBadIndex segment) : SchemaFault now schema .badValue

/-- What is wrong with a part of a schema is wrong with the schema. -/
theorem SchemaFault.of_has {now : Moment} {v w : Value} {f : Fault} (h : SchemaFault now w f)
    (hv : v.Has w) : SchemaFault now v f := by
  cases h with
  | clock h => exact .clock h
  | key hkey h => exact .key (hkey.of_has hv) h
  | digits hkey hname hsegment hbad => exact .digits (hkey.of_has hv) hname hsegment hbad

/-- The failures of a schema that no example is made of. -/
def FailsBySchema (now : Moment) (schema : Value) (e : Error) : Prop :=
  ∃ f, e = .fault f ∧ SchemaFault now schema f

variable {σ : Type} [RandomSource σ] {now : Moment}

/-- A moment is drawn, or the second that is drawn has none. -/
theorem drawMoment_ends (now : Moment) :
    AlwaysEnds (fun _ => True) (fun e => ∃ f, e = .fault f ∧ now.Misses f)
      (drawMoment now : Synth σ Moment) := by
  intro s
  rw [outcome_drawMoment]
  cases h : now.drawn (drawnSeconds now s) with
  | ok m => exact .ok trivial
  | error f => exact .error ⟨f, rfl, _, drawnSeconds_le now s, h⟩

/-- Letters are drawn without a failure. -/
theorem drawText_ends (n : Nat) :
    AlwaysEnds (fun _ => True) (fun _ => False) (drawText n : Synth σ Text) := by
  induction n with
  | zero => exact .pure trivial
  | succ n ih =>
      refine AlwaysEnds.bind (R := fun _ => True) (fun _ => .ok trivial) fun i _ => ?_
      exact ih.bind fun rest _ => .pure trivial

/-- Only the name of the type is that of a date, with no alias. -/
theorem ofName?_eq_date {type : Text} (h : CanonicalType.ofName? type = some .date) :
    type = CanonicalType.date.name := by
  have hname := List.find?_some h
  exact (of_decide_eq_true hname).symm

/-- An example of a type fails only by the clock, and only if it is that of a date. -/
theorem synthesize_ends (now : Moment) (type : Text) (schema : Option Value) :
    AlwaysEnds (fun _ => True)
      (fun e => (∃ f, e = .fault f ∧ now.Misses f) ∧ type = CanonicalType.date.name)
      (synthesize now type schema : Synth σ Value) := by
  -- Where every draw has an outcome there is always an example.
  have hdraw : ∀ {α : Type} {x : Synth σ α} {E : Error → Prop} (f : α → Value),
      (∀ s, ∃ a, x.outcome s = .ok a) →
      AlwaysEnds (fun _ => True) E (do let a ← x; pure (f a)) := by
    intro α x E f hx
    refine AlwaysEnds.bind (R := fun _ => True) (fun s => ?_) fun a _ => .pure trivial
    obtain ⟨a, ha⟩ := hx s
    rw [ha]
    exact .ok trivial
  have htext : AlwaysEnds (fun _ => True)
      (fun e => (∃ f, e = .fault f ∧ now.Misses f) ∧ type = CanonicalType.date.name)
      (do let s ← drawText textLength; pure (.str s) : Synth σ Value) :=
    ((drawText_ends textLength).mono (fun _ h => h) nofun).bind fun s _ => .pure trivial
  unfold synthesize
  cases htype : CanonicalType.ofName? type with
  | none => exact htext
  | some canonical =>
      cases canonical with
      | integer => exact hdraw _ fun _ => ⟨_, rfl⟩
      | number | float | boolean => exact hdraw _ fun _ => ⟨_, rfl⟩
      | string => exact htext
      | date =>
          refine ((drawMoment_ends now).mono (fun _ h => h) ?_).bind fun m _ => .pure trivial
          exact fun e he => ⟨he, ofName?_eq_date htype⟩
      | array | object | schema => exact .pure trivial

/-- On a clock that is partly out of the calendar, the worst second makes no date. -/
theorem exists_outcome_synthesize_date {now : Moment} (hclock : now.IsPartial) :
    ∃ f, (synthesize now CanonicalType.date.name none : Synth (Pinned now.worstSecond) Value).outcome
      ⟨⟩ = .error (.fault f) := by
  obtain ⟨f, hf⟩ := hclock.exists_worstSecond
  refine ⟨f, ?_⟩
  rw [outcome_synthesize_date (by decide), dateOutcome, drawnSeconds_pinned,
    Nat.min_eq_left now.worstSecond_le, hf]
  rfl

/-! ### Field paths -/

/-- The pieces of a path are pieces of the names of keys, but for those of first elements. -/
def FromKeys (schema : Value) (path : Text) : Prop :=
  ∀ piece ∈ splitOn separator path, piece = [] ∨ piece = "0" ∨
    ∃ k name, schema.HasKey k ∧ k.display = .ok name ∧ piece ∈ splitOn separator name

/-- A path that comes from the keys of a schema does so below another such path. -/
theorem FromKeys.below {schema : Value} {path key : Text} (hpath : FromKeys schema path)
    (hkey : FromKeys schema key) : FromKeys schema (below path key) := by
  intro piece hpiece
  have hsplit : splitOn separator (Synthesis.below path key)
      = splitOn separator path ++ splitOn separator key := by
    rw [Synthesis.below, List.append_assoc]
    exact splitOn_append '.' path key
  rw [hsplit, List.mem_append] at hpiece
  exact hpiece.elim (hpath piece) (hkey piece)

/-- The empty path has no segment that would have to come from a key. -/
theorem fromKeys_nil (schema : Value) : FromKeys schema [] := by
  intro piece hpiece
  exact .inl (List.mem_singleton.mp hpiece)

/-- The position of the first element is the one piece that need not come from a key. -/
theorem fromKeys_zero (schema : Value) : FromKeys schema "0" := by
  intro piece hpiece
  exact .inr (.inl (List.mem_singleton.mp hpiece))

/-- A key, as it is displayed, comes from the keys. -/
theorem fromKeys_name {schema : Value} {k : Scalar} {name : Text} (hkey : schema.HasKey k)
    (hname : k.display = .ok name) : FromKeys schema name :=
  fun _ hpiece => .inr (.inr ⟨k, name, hkey, hname, hpiece⟩)

/-- A path that a tree refuses is refused for a key of the schema. -/
theorem SchemaFault.of_isBadPath {schema : Value} {path : Text} (hpath : FromKeys schema path)
    (hbad : IsBadPath path) : SchemaFault now schema .badValue := by
  obtain ⟨piece, hpiece, hindex⟩ := hbad
  -- Nothing and zero are no bad indices.
  obtain rfl | rfl | ⟨k, name, hkey, hname, hmem⟩ := hpath piece hpiece
  · exact nomatch hindex
  · exact nomatch hindex
  · exact .digits hkey hname hmem hindex

/-! ### The walk of a schema -/

section Walk

variable {schema : Value}

/-- A name is a key's, or the key cannot be shown. -/
theorem display_ends {k : Scalar} (hkey : schema.HasKey k) :
    Ends (FromKeys schema) (fun f => FailsBySchema now schema (.fault f)) k.display := by
  cases hname : k.display with
  | ok name => exact .ok (fromKeys_name hkey hname)
  | error f => exact .error ⟨f, rfl, .key hkey hname⟩

mutual

/-- The walk below a value of the schema ends with findings whose paths come from the keys of the
schema, or fails by what the schema has. There is one such lemma for each function of the walk,
proved together. -/
theorem collect_ends {path : Text} (hpath : FromKeys schema path) (address : List Scalar) :
    (v : Value) → schema.Has v →
    AlwaysEnds (fun found => ∀ f ∈ found, FromKeys schema f.path) (FailsBySchema now schema)
      (collect now path address v : Synth σ _)
  | .map entries, h => by
    have hone : ∀ (v : Value) (source : Option (List Scalar)),
        ∀ f ∈ [(⟨path, v, source⟩ : Finding)], FromKeys schema f.path := by
      intro v source f hf
      rw [List.mem_singleton.mp hf]
      exact hpath
    rw [collect]
    -- By the shape of the mapping, as the walk goes on from there.
    split
    · exact collectItems_ends hpath address entries fun e he => h.trans (.value he (.self e.2))
    · exact collectProperties_ends hpath address entries fun e he =>
        h.trans (.value he (.self e.2))
    · rename_i type _
      split
      · exact .pure (hone _ _)
      · refine ((synthesize_ends now type none).mono (fun _ h => h) ?_).bind
          fun v _ => .pure (hone v none)
        rintro e ⟨⟨f, rfl, hmiss⟩, -⟩
        exact ⟨f, rfl, .clock hmiss⟩
    · exact collectFields_ends hpath address entries entries h fun e he => he
  | .scalar _, _ => .pure nofun
  | .list _, _ => .pure nofun
  | .pair _ _, _ => .pure nofun
  | .set _, _ => .pure nofun
  | .loop _, _ => .pure nofun

/-- The same of the fields of a mapping, each under its displayed key. -/
theorem collectFields_ends {path : Text} (hpath : FromKeys schema path) (address : List Scalar) :
    (es entries : List (Scalar × Value)) → schema.Has (.map entries) → (∀ e ∈ es, e ∈ entries) →
    AlwaysEnds (fun found => ∀ f ∈ found, FromKeys schema f.path) (FailsBySchema now schema)
      (collectFields now path address es : Synth σ _)
  | [], _, _, _ => .pure nofun
  | (k, v) :: es, entries, h, hmem => by
    rw [List.forall_mem_cons] at hmem
    rw [collectFields]
    refine (AlwaysEnds.orThrow (display_ends ⟨entries, h, (k, v), hmem.1, rfl⟩) fun _ h => h).bind
      fun name hname => ?_
    refine (collect_ends (hpath.below hname) (k :: address) v
      (h.trans (.value hmem.1 (.self v)))).bind fun first hfirst => ?_
    refine (collectFields_ends hpath address es entries h hmem.2).bind fun others hothers => ?_
    exact .pure (List.forall_mem_append.mpr ⟨hfirst, hothers⟩)

/-- The same of the entry that holds the nested fields. -/
theorem collectProperties_ends {path : Text} (hpath : FromKeys schema path)
    (address : List Scalar) : (es : List (Scalar × Value)) → (∀ e ∈ es, schema.Has e.2) →
    AlwaysEnds (fun found => ∀ f ∈ found, FromKeys schema f.path) (FailsBySchema now schema)
      (collectProperties now path address es : Synth σ _)
  | [], _ => .pure nofun
  | (k, v) :: es, h => by
    rw [List.forall_mem_cons] at h
    unfold collectProperties
    split
    · split
      · refine .pure ?_
        split
        · exact nofun
        · intro f hf
          rw [List.mem_singleton.mp hf]
          exact hpath
      · exact collect_ends hpath (k :: address) v h.1
    · exact collectProperties_ends hpath address es h.2

/-- The same of the entry that describes the elements of a list. -/
theorem collectItems_ends {path : Text} (hpath : FromKeys schema path) (address : List Scalar) :
    (es : List (Scalar × Value)) → (∀ e ∈ es, schema.Has e.2) →
    AlwaysEnds (fun found => ∀ f ∈ found, FromKeys schema f.path) (FailsBySchema now schema)
      (collectItems now path address es : Synth σ _)
  | [], _ => .pure nofun
  | (k, v) :: es, h => by
    rw [List.forall_mem_cons] at h
    unfold collectItems
    split
    · cases v with
      | map inner =>
          exact collectElement_ends hpath (k :: address) inner fun e he =>
            h.1.trans (.value he (.self e.2))
      | _ => exact .pure nofun
    · exact collectItems_ends hpath address es h.2

/-- The same of the fields of an element, below its position. -/
theorem collectElement_ends {path : Text} (hpath : FromKeys schema path) (address : List Scalar) :
    (es : List (Scalar × Value)) → (∀ e ∈ es, schema.Has e.2) →
    AlwaysEnds (fun found => ∀ f ∈ found, FromKeys schema f.path) (FailsBySchema now schema)
      (collectElement now path address es : Synth σ _)
  | [], _ => .pure nofun
  | (k, v) :: es, h => by
    rw [List.forall_mem_cons] at h
    unfold collectElement
    split
    · cases v with
      | map fields =>
          exact collectFields_ends (hpath.below (fromKeys_zero schema)) (k :: address) fields fields
            h.1 fun e he => he
      | _ => exact .pure nofun
    · exact collectElement_ends hpath address es h.2

end

/-! ### Whole schemas -/

variable {found : List Finding}

/-- Writes whose paths are those of findings fail only by the schema. -/
theorem failsBySchema_of_writes (hfound : ∀ f ∈ found, FromKeys schema f.path) {f : Fault}
    (h : f = .badValue ∧ ∃ e ∈ (byPath found).map fun e => (e.1, e.2.value), IsBadPath e.1) :
    FailsBySchema now schema (.fault f) := by
  obtain ⟨rfl, e, he, hbad⟩ := h
  -- Of several findings with one path only one is written, but its path is a finding's.
  obtain ⟨entry, hentry, rfl⟩ := List.mem_map.mp he
  have hkey := Entries.mem_keys_ofList hentry
  rw [List.map_map] at hkey
  obtain ⟨g, hg, hpath⟩ := List.mem_map.mp hkey
  exact ⟨_, rfl, .of_isBadPath (hpath ▸ hfound g hg) hbad⟩

/-- The findings are put together as a tree, unless the name of a key has a segment of digits that
form no decimal number. -/
theorem treeOf_ends (hfound : ∀ f ∈ found, FromKeys schema f.path) :
    Ends (fun _ => True) (fun f => FailsBySchema now schema (.fault f)) (treeOf found) :=
  (ofFlat_ends _).mono_error fun _ h => failsBySchema_of_writes hfound h

/-- The schema with what the writes left in it is found under the same condition. -/
theorem schemaAfter_ends (hfound : ∀ f ∈ found, FromKeys schema f.path) (v : Value) :
    Ends (fun _ => True) (fun f => FailsBySchema now schema (.fault f)) (schemaAfter found v) := by
  refine ((root_ends _).mono_error fun _ h => h.elim).bind fun tree htree => ?_
  refine ((placements_ends htree _).mono_error fun _ h => failsBySchema_of_writes hfound h).bind
    fun placed _ => .ok trivial

end Walk

/-- The example of a schema is put together, or the schema has what it fails by: a key that cannot
be shown, a date of a second that has none, or a name with a segment of digits that form no
decimal number. -/
theorem compositeOfEntries_ends (entries : List (Scalar × Value)) :
    AlwaysEnds (fun _ => True) (FailsBySchema now (.map entries))
      (compositeOfEntries now entries : Synth σ _) := by
  have hboth : AlwaysEnds (fun _ => True) (FailsBySchema now (.map entries))
      (compositeWithSchema now (.map entries) : Synth σ _) := by
    refine (collect_ends (fromKeys_nil _) [] (.map entries) (.self _)).bind fun found hfound => ?_
    -- The tree is put together once for the example and once more for the schema that is left.
    refine (AlwaysEnds.orThrow (treeOf_ends hfound) fun _ h => h).bind fun tree _ => ?_
    refine (AlwaysEnds.orThrow (schemaAfter_ends hfound _) fun _ h => h).bind fun left _ => ?_
    exact .pure trivial
  refine hboth.bind ?_
  rintro ⟨v, schema⟩ -
  split <;> exact .pure trivial

/-- The example of a parameter fails only by its nested schema. -/
theorem valueFor_ends (type : Text) (properties : Option (List (Scalar × Value))) :
    AlwaysEnds (fun _ => True) (FailsBySchema now (.map (properties.getD [])))
      (valueFor now type properties : Synth σ _) := by
  -- Without a nested schema the example is that of the type.
  have hplain : ∀ schema, AlwaysEnds (fun _ => True) (FailsBySchema now (.map (properties.getD [])))
      (do return (← synthesize now type schema, properties) : Synth σ _) := by
    intro schema
    refine ((synthesize_ends now type schema).mono (fun _ h => h) ?_).bind fun v _ => .pure trivial
    rintro e ⟨⟨f, rfl, hmiss⟩, -⟩
    exact ⟨f, rfl, .clock hmiss⟩
  unfold valueFor
  split
  · rename_i e es
    split
    · exact hplain _
    · split
      · exact (compositeOfEntries_ends (e :: es)).bind fun a _ => .pure trivial
      · refine (compositeOfEntries_ends (e :: es)).bind ?_
        rintro ⟨v, entries⟩ -
        dsimp only
        split <;> exact .pure trivial
      · exact hplain _
  · exact hplain _

end Synthesis

end RouteDocs
