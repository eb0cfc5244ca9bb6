import Mathlib.Data.List.Nodup
import RouteDocs.Proofs.Coupling
import RouteDocs.Proofs.PathTree
import RouteDocs.Random.Congruential

/-!
# `RouteDocs.Proofs.CompositeExample`: a nested example is a plain recursion

`Synthesis.composite` walks a schema, lists the values that it finds under dotted paths, and
puts a tree together from that list. The tree builder sees paths only: it has to guess from
the segments which parts are lists. This module says what comes out without paths.

`Schema` is the grammar of nested schemas: a leaf with a type and perhaps an example, an
object with fields, a list of objects with fields. `IsNode` and `AreFields` say which values
are written in this grammar, whatever else they have in them. `Schema.draw` is the example
by recursion over the schema, which draws from the random source field by field.

`composite_eq_draw` is the main theorem: on a value of the grammar, `composite` is `draw`, as
computations: the same result or failure, and the same draws in the same order.

The proof couples the walk with the recursion. The invariant is on the list of what was
found: `Builds ws v` says that the writes `ws`, made where there is nothing yet, leave `v`,
and `BuildsFields ws vs` says that the writes `ws` add the fields `vs` to any mapping that
has none of them.
-/

set_option autoImplicit false

namespace RouteDocs.Synthesis

open Text PathTree

/-! ### The grammar -/

/-- A nested schema. -/
inductive Schema where
  /-- A value of a type, with the example that is given for it. -/
  | leaf (type : Text) (sample : Option Value)
  /-- An object with fields. -/
  | object (fields : List (Text × Schema))
  /-- A list of objects with fields. -/
  | listOf (fields : List (Text × Schema))

/-- A name that a field may have: not empty, without a dot, and not all digits. -/
structure IsFieldName (name : Text) : Prop where
  ne_nil : name ≠ []
  no_dot : CodePoint.char '.' ∉ name
  not_digits : name.all isDigit = false

/-- The properties of the elements, where a mapping has them under `items`. -/
def elementProperties? (entries : List (Scalar × Value)) : Option (List (Scalar × Value)) :=
  (mapUnder? "items" entries).bind (mapUnder? "properties")

/-- A field that is not mistaken for a part of the mapping it is in. A mapping with a mapping
under `properties` is an object, and one with a mapping under `items` that has one under
`properties` is a list of objects; so a field has another name, or it is called `items` and
has no properties itself. -/
def StandsAsField (name : Text) (node : List (Scalar × Value)) : Prop :=
  name ≠ "properties" ∧ (name = "items" → mapUnder? "properties" node = none)

mutual

/-- The value is written in the grammar, and is this schema. Keys that the grammar does not
know may have any value. -/
inductive IsNode : Value → Schema → Prop where
  /-- A type that is a text makes a leaf, unless there are properties. -/
  | leaf {entries : List (Scalar × Value)} {type : Text}
      (hitems : elementProperties? entries = none)
      (hproperties : mapUnder? "properties" entries = none)
      (htype : Entries.get? (.str "type") entries = some (.str type)) :
      IsNode (.map entries) (.leaf type (Entries.get? (.str "example") entries))
  /-- Properties make an object, unless there are properties of elements. -/
  | object {entries es : List (Scalar × Value)} {fields : List (Text × Schema)}
      (hitems : elementProperties? entries = none)
      (hproperties : mapUnder? "properties" entries = some es)
      (hfields : AreFields es fields)
      (hstand : ∀ name node, (Scalar.str name, Value.map node) ∈ es → StandsAsField name node) :
      IsNode (.map entries) (.object fields)
  /-- Properties of elements make a list of objects. -/
  | listOf {entries es : List (Scalar × Value)} {fields : List (Text × Schema)}
      (hitems : elementProperties? entries = some es) (hne : es ≠ [])
      (hfields : AreFields es fields) :
      IsNode (.map entries) (.listOf fields)

/-- The entries are fields, each with its schema. A mapping has no name twice. -/
inductive AreFields : List (Scalar × Value) → List (Text × Schema) → Prop where
  /-- No fields. -/
  | nil : AreFields [] []
  /-- A field and the ones after it. -/
  | cons {name : Text} {node : Value} {schema : Schema} {es : List (Scalar × Value)}
      {fields : List (Text × Schema)}
      (hname : IsFieldName name) (hnew : name ∉ fields.map Prod.fst)
      (hnode : IsNode node schema) (hfields : AreFields es fields) :
      AreFields ((.str name, node) :: es) ((name, schema) :: fields)

end

/-- The value is a whole schema: fields by name, or a list of objects. -/
inductive IsSchema : Value → Schema → Prop where
  /-- Fields by name. -/
  | fields {es : List (Scalar × Value)} {fields : List (Text × Schema)}
      (hfields : AreFields es fields)
      (hstand : ∀ name node, (Scalar.str name, Value.map node) ∈ es → StandsAsField name node) :
      IsSchema (.map es) (.object fields)
  /-- A list of objects. -/
  | listOf {entries es : List (Scalar × Value)} {fields : List (Text × Schema)}
      (hitems : elementProperties? entries = some es) (hne : es ≠ [])
      (hfields : AreFields es fields) :
      IsSchema (.map entries) (.listOf fields)

section Draw
variable {σ : Type} [RandomSource σ]

mutual

/-- The example of a schema: the one that is given, or one that is made up, for every leaf,
and the structure of the schema around them. A list has one element. -/
def Schema.draw (now : Moment) : Schema → Synth σ Value
  | .leaf _ (some v) => pure v
  | .leaf type none => synthesize now type none
  | .object fields => do
    let vs ← drawFields now fields
    pure (.ofFields vs)
  | .listOf fields => do
    let vs ← drawFields now fields
    pure (.list [.ofFields vs])

/-- The examples of fields, in order. -/
def drawFields (now : Moment) : List (Text × Schema) → Synth σ (List (Text × Value))
  | [] => pure []
  | (name, schema) :: rest => do
    let v ← Schema.draw now schema
    let vs ← drawFields now rest
    pure ((name, v) :: vs)

end

end Draw

/-! ### Writes that build a value -/

/-- The dot between the segments of a field path. -/
abbrev dot : CodePoint := .char '.'

/-- Writes that leave `v` where there was nothing: to distinct paths, which are made of
segments. -/
structure Builds (ws : List (List Text × Value)) (v : Value) : Prop where
  ne_nil : ws ≠ []
  segments : ∀ w ∈ ws, ∀ s ∈ w.1, IsSegment dot s
  nodup : (ws.map Prod.fst).Nodup
  writes : writeAll ws .null = .ok v

/-- Writes that add fields to a mapping that has none of them: to distinct paths, each of
which starts with the name of a field. -/
structure BuildsFields (ws : List (List Text × Value)) (vs : List (Text × Value)) : Prop where
  ne_nil : vs ≠ [] → ws ≠ []
  segments : ∀ w ∈ ws, ∀ s ∈ w.1, IsSegment dot s
  heads : ∀ w ∈ ws, ∃ name rest, w.1 = name :: rest ∧ name ∈ vs.map Prod.fst
  names : ∀ name ∈ vs.map Prod.fst, name ≠ "0"
  nodup : (ws.map Prod.fst).Nodup
  writes : ∀ entries, (∀ name ∈ vs.map Prod.fst, Entries.get? (.str name) entries = none) →
    writeAll ws (.map entries) = .ok (.map (entries ++ vs.map fun f => (.str f.1, f.2)))

/-- The name of a field is a segment of a path. -/
theorem IsFieldName.isSegment {name : Text} (h : IsFieldName name) : IsSegment dot name :=
  ⟨h.ne_nil, h.no_dot⟩

/-- It is not taken for the position of an element. -/
theorem IsFieldName.ne_zero {name : Text} (h : IsFieldName name) : name ≠ "0" := by
  rintro rfl
  exact absurd h.not_digits (by decide)

/-- One write at the place itself. -/
theorem builds_leaf (v : Value) : Builds [([], v)] v where
  ne_nil := by simp
  segments := by simp
  nodup := by simp
  writes := rfl

/-- Paths under a segment, and the paths themselves. -/
theorem map_fst_under (segment : Text) (ws : List (List Text × Value)) :
    (under segment ws).map Prod.fst = (ws.map Prod.fst).map (segment :: ·) := by
  simp [under]

/-- Under a segment distinct paths remain distinct. -/
theorem nodup_under {segment : Text} {ws : List (List Text × Value)}
    (h : (ws.map Prod.fst).Nodup) : ((under segment ws).map Prod.fst).Nodup := by
  rw [map_fst_under]
  exact List.Nodup.map List.cons_injective h

/-- Fields, added where there was nothing, are a mapping. -/
theorem BuildsFields.object {ws : List (List Text × Value)} {vs : List (Text × Value)}
    (h : BuildsFields ws vs) (hne : vs ≠ []) : Builds ws (.ofFields vs) where
  ne_nil := h.ne_nil hne
  segments := h.segments
  nodup := h.nodup
  writes := by
    obtain ⟨w, rest, rfl⟩ := List.exists_cons_of_ne_nil (h.ne_nil hne)
    obtain ⟨name, segs, hsegs, hname⟩ := h.heads w List.mem_cons_self
    -- The first segment is a name and not `0`, so it starts a mapping.
    rw [writeAll_null_eq (h.names name hname) w rest (by rw [hsegs, List.head?_cons]),
      h.writes [] (by simp), List.nil_append]
    rfl

/-- Fields of a first element, added where there was nothing, are a list. -/
theorem BuildsFields.listOf {ws : List (List Text × Value)} {vs : List (Text × Value)}
    (h : BuildsFields ws vs) (hne : vs ≠ []) :
    Builds (under "0" ws) (.list [.ofFields vs]) where
  ne_nil := by simpa [under] using h.ne_nil hne
  segments := by
    intro w hw s hs
    obtain ⟨u, hu, rfl⟩ := List.mem_map.mp hw
    rcases List.mem_cons.mp hs with rfl | hs
    · exact ⟨by decide, by decide⟩
    · exact h.segments u hu s hs
  nodup := nodup_under h.nodup
  writes := by
    rw [writeAll_under_zero (h.ne_nil hne) (.inr rfl), (h.object hne).writes]
    rfl

/-- No writes add no fields. -/
theorem buildsFields_nil : BuildsFields [] [] where
  ne_nil := by simp
  segments := by simp
  heads := by simp
  names := by simp
  nodup := by simp
  writes := by simp

/-- A field in front of other fields. Its writes all start with its name, so they leave its
value under that name, and the others then find a mapping without their own names. -/
theorem BuildsFields.cons {name : Text} {v : Value} {ws us : List (List Text × Value)}
    {vs : List (Text × Value)} (hname : IsFieldName name) (hnew : name ∉ vs.map Prod.fst)
    (hv : Builds ws v) (hvs : BuildsFields us vs) :
    BuildsFields (under name ws ++ us) ((name, v) :: vs) where
  ne_nil := by simp [under, hv.ne_nil]
  segments := by
    intro w hw s hs
    rcases List.mem_append.mp hw with hw | hw
    · obtain ⟨u, hu, rfl⟩ := List.mem_map.mp hw
      rcases List.mem_cons.mp hs with rfl | hs
      · exact hname.isSegment
      · exact hv.segments u hu s hs
    · exact hvs.segments w hw s hs
  heads := by
    intro w hw
    rcases List.mem_append.mp hw with hw | hw
    · obtain ⟨u, hu, rfl⟩ := List.mem_map.mp hw
      exact ⟨name, u.1, rfl, List.mem_cons_self⟩
    · obtain ⟨n, rest, hsegs, hn⟩ := hvs.heads w hw
      exact ⟨n, rest, hsegs, List.mem_cons_of_mem _ hn⟩
  names := by
    intro n hn
    rcases List.mem_cons.mp hn with rfl | hn
    · exact hname.ne_zero
    · exact hvs.names n hn
  nodup := by
    rw [List.map_append, List.nodup_append]
    refine ⟨nodup_under hv.nodup, hvs.nodup, ?_⟩
    -- A path below `name` starts with `name`, and no other path does.
    rintro a ha b hb rfl
    rw [map_fst_under] at ha
    obtain ⟨segs, -, rfl⟩ := List.mem_map.mp ha
    obtain ⟨w, hw, hsegs⟩ := List.mem_map.mp hb
    obtain ⟨n, rest, hsegs', hn⟩ := hvs.heads w hw
    rw [hsegs, List.cons.injEq] at hsegs'
    exact hnew (hsegs'.1 ▸ hn)
  writes := by
    intro entries hentries
    have hfirst : Entries.get? (.str name) entries = none := hentries name List.mem_cons_self
    rw [writeAll_append, writeAll_under_key name hv.ne_nil, hfirst, Option.getD_none, hv.writes]
    -- The field is new, so it goes to the end, and the other fields go behind it.
    show writeAll us (.map (Entries.insert (.str name) v entries)) = _
    rw [Entries.insert_eq_append hfirst, hvs.writes, List.append_assoc]
    · rfl
    · intro n hn
      have hne : name ≠ n := fun h => hnew (h ▸ hn)
      rw [Entries.get?_append, hentries n (List.mem_cons_of_mem _ hn), Option.none_or,
        Entries.get?_cons, if_neg (by simpa using hne), Entries.get?_nil]

/-! ### The walk -/

section Walk
variable {σ : Type} [RandomSource σ]

/-- A mapping stands under a key exactly if it is what is found there. -/
theorem mapUnder?_eq_some_iff {key : String} {entries es : List (Scalar × Value)} :
    mapUnder? key entries = some es ↔ Entries.get? (.str key) entries = some (.map es) := by
  unfold mapUnder?
  split <;> simp_all

/-- A mapping with properties of elements is a list of objects. -/
theorem shape_listOfObjects {entries es : List (Scalar × Value)}
    (h : elementProperties? entries = some es) : shape entries = .listOfObjects := by
  rw [elementProperties?] at h
  rw [shape, h]
  rfl

/-- A mapping with properties, and none of elements, is an object. -/
theorem shape_object {entries es : List (Scalar × Value)}
    (hitems : elementProperties? entries = none)
    (hproperties : mapUnder? "properties" entries = some es) : shape entries = .object := by
  rw [elementProperties?] at hitems
  rw [shape, hitems, hproperties]
  rfl

/-- A mapping with the name of a type, and without properties, is a field of that type. -/
theorem shape_field {entries : List (Scalar × Value)} {type : Text}
    (hitems : elementProperties? entries = none)
    (hproperties : mapUnder? "properties" entries = none)
    (htype : Entries.get? (.str "type") entries = some (.str type)) :
    shape entries = .field type := by
  rw [elementProperties?] at hitems
  rw [shape, hitems, hproperties, htype]
  rfl

/-- Whatever is under a key of a mapping of nodes is a node, so it is a mapping. -/
theorem AreFields.exists_of_mem {es : List (Scalar × Value)} {fields : List (Text × Schema)}
    (h : AreFields es fields) {e : Scalar × Value} (he : e ∈ es) :
    ∃ name node, e = (Scalar.str name, Value.map node) := by
  induction es generalizing fields with
  | nil => cases he
  | cons d es ih =>
      cases h with
      | cons hname hnew hnode hrest =>
          rcases List.mem_cons.mp he with rfl | he
          · cases hnode <;> exact ⟨_, _, rfl⟩
          · exact ih hrest he

/-- Fields that are nodes, and that stand as fields, are read as fields. -/
theorem shape_fields {es : List (Scalar × Value)} {fields : List (Text × Schema)}
    (hfields : AreFields es fields)
    (hstand : ∀ name node, (Scalar.str name, Value.map node) ∈ es → StandsAsField name node) :
    shape es = .fields := by
  have hfind : ∀ key : String, ∀ v, Entries.get? (.str key) es = some v →
      ∃ node, v = .map node ∧ StandsAsField key node := by
    intro key v hv
    obtain ⟨k, hmem, hk⟩ := Entries.exists_mem_of_get? hv
    obtain ⟨name, node, he⟩ := hfields.exists_of_mem hmem
    rw [Prod.mk.injEq] at he
    obtain ⟨rfl, rfl⟩ := he
    rw [Scalar.beq_str_iff, Scalar.str.injEq] at hk
    exact ⟨node, rfl, hk ▸ hstand name node hmem⟩
  -- Neither `properties` nor `items` is a field that would make the mapping a node itself.
  have hproperties : mapUnder? "properties" es = none := by
    cases h : mapUnder? "properties" es with
    | none => rfl
    | some node =>
        obtain ⟨node', -, hs⟩ := hfind _ _ (mapUnder?_eq_some_iff.mp h)
        exact absurd rfl hs.1
  have hitems : (mapUnder? "items" es).bind (mapUnder? "properties") = none := by
    cases h : mapUnder? "items" es with
    | none => rfl
    | some node =>
        obtain ⟨node', hv, hs⟩ := hfind _ _ (mapUnder?_eq_some_iff.mp h)
        cases hv
        exact hs.2 rfl
  rw [shape, hitems, hproperties]
  -- A field of the name `type` has a mapping, and no text.
  cases h : Entries.get? (.str "type") es with
  | none => simp
  | some v =>
      obtain ⟨node, rfl, -⟩ := hfind _ _ h
      simp

/-- The walk below `properties` is the walk of the mapping found there, if it has any
entries. -/
theorem collectProperties_eq {now : Moment} {path : Text} {address : List Scalar}
    {entries es : List (Scalar × Value)} (h : mapUnder? "properties" entries = some es) :
    (collectProperties now path address entries : Synth σ (List Finding))
      = if es = [] then pure (if path.isEmpty then [] else [⟨path, .map [], none⟩])
        else collect now path (.str "properties" :: address) (.map es) := by
  rw [mapUnder?_eq_some_iff] at h
  -- The walk looks for the key from entry to entry.
  induction entries with
  | nil => simp at h
  | cons e entries ih =>
      obtain ⟨k, v⟩ := e
      rw [Entries.get?_cons] at h
      split at h
      · rename_i hk
        cases h
        obtain rfl : k = .str "properties" := (Scalar.beq_str_iff _ _).mp hk
        cases es with
        | nil => rfl
        | cons e es => rfl
      · rename_i hk
        unfold collectProperties
        rw [if_neg hk]
        exact ih h

/-- The walk of an element is that of its properties, below the position `0`. -/
theorem collectElement_eq {now : Moment} {path : Text} {address : List Scalar}
    {entries es : List (Scalar × Value)} (h : mapUnder? "properties" entries = some es) :
    (collectElement now path address entries : Synth σ (List Finding))
      = collectFields now (below path "0") (.str "properties" :: address) es := by
  rw [mapUnder?_eq_some_iff] at h
  induction entries with
  | nil => simp at h
  | cons e entries ih =>
      obtain ⟨k, v⟩ := e
      rw [Entries.get?_cons] at h
      split at h
      · rename_i hk
        cases h
        obtain rfl : k = .str "properties" := (Scalar.beq_str_iff _ _).mp hk
        rfl
      · rename_i hk
        unfold collectElement
        rw [if_neg hk]
        exact ih h

/-- The walk below `items` and `properties` is the walk of the fields found there. -/
theorem collectItems_eq {now : Moment} {path : Text} {address : List Scalar}
    {entries es : List (Scalar × Value)} (h : elementProperties? entries = some es) :
    (collectItems now path address entries : Synth σ (List Finding))
      = collectFields now (below path "0") (.str "properties" :: .str "items" :: address) es := by
  rw [elementProperties?, Option.bind_eq_some_iff] at h
  obtain ⟨inner, hitems, hproperties⟩ := h
  rw [mapUnder?_eq_some_iff] at hitems
  -- As for `properties`, from entry to entry.
  induction entries with
  | nil => simp at hitems
  | cons e entries ih =>
      obtain ⟨k, v⟩ := e
      rw [Entries.get?_cons] at hitems
      split at hitems
      · rename_i hk
        cases hitems
        obtain rfl : k = .str "items" := (Scalar.beq_str_iff _ _).mp hk
        exact collectElement_eq hproperties
      · rename_i hk
        unfold collectItems
        rw [if_neg hk]
        exact ih hitems

/-! The walk of a mapping has one equation for each form that the mapping can have. -/

/-- The walk of a list of objects is that of the properties of its elements. -/
theorem collect_of_listOfObjects {now : Moment} {path : Text} {address : List Scalar}
    {entries es : List (Scalar × Value)} (hitems : elementProperties? entries = some es) :
    (collect now path address (.map entries) : Synth σ (List Finding))
      = collectFields now (below path "0") (.str "properties" :: .str "items" :: address) es := by
  rw [collect, shape_listOfObjects hitems]
  exact collectItems_eq hitems

/-- The walk of an object is that of its properties. An object without any is an empty mapping,
except at the top. -/
theorem collect_of_object {now : Moment} {path : Text} {address : List Scalar}
    {entries es : List (Scalar × Value)} (hitems : elementProperties? entries = none)
    (hproperties : mapUnder? "properties" entries = some es) :
    (collect now path address (.map entries) : Synth σ (List Finding))
      = if es = [] then pure (if path.isEmpty then [] else [⟨path, .map [], none⟩])
        else collect now path (.str "properties" :: address) (.map es) := by
  rw [collect, shape_object hitems hproperties]
  exact collectProperties_eq hproperties

/-- The walk of a field finds its example, or makes one up for its type. -/
theorem collect_of_field {now : Moment} {path : Text} {address : List Scalar}
    {entries : List (Scalar × Value)} {type : Text} (hitems : elementProperties? entries = none)
    (hproperties : mapUnder? "properties" entries = none)
    (htype : Entries.get? (.str "type") entries = some (.str type)) :
    (collect now path address (.map entries) : Synth σ (List Finding))
      = (Entries.get? (.str "example") entries).elim
          (synthesize now type none >>= fun v => pure [⟨path, v, none⟩])
          fun v => pure [⟨path, v, some (.str "example" :: address).reverse⟩] := by
  rw [collect, shape_field hitems hproperties htype]
  cases Entries.get? (.str "example") entries <;> rfl

/-- The walk of anything else is that of its entries as fields. -/
theorem collect_of_fields {now : Moment} {path : Text} {address : List Scalar}
    {es : List (Scalar × Value)} (h : shape es = .fields) :
    (collect now path address (.map es) : Synth σ (List Finding))
      = collectFields now path address es := by
  rw [collect, h]

/-- The findings are these writes below a path. -/
def FoundAs (path : Text) (found : List Finding) (ws : List (List Text × Value)) : Prop :=
  found.map (fun f => (f.path, f.value)) = ws.map fun w => (path ++ dotted dot w.1, w.2)

/-- One finding at the path itself. -/
theorem FoundAs.self (path : Text) (v : Value) (source : Option (List Scalar)) :
    FoundAs path [⟨path, v, source⟩] [([], v)] := by
  simp [FoundAs, dotted]

/-- Findings in a row are writes in a row. -/
theorem FoundAs.append {path : Text} {found found' : List Finding}
    {ws ws' : List (List Text × Value)} (h : FoundAs path found ws) (h' : FoundAs path found' ws') :
    FoundAs path (found ++ found') (ws ++ ws') := by
  unfold FoundAs at *
  rw [List.map_append, List.map_append, h, h']

/-- What is found below a segment of a path is found below the path, under the segment. -/
theorem FoundAs.under {path segment : Text} {found : List Finding}
    {ws : List (List Text × Value)} (h : FoundAs (below path segment) found ws) :
    FoundAs path found (PathTree.under segment ws) := by
  unfold FoundAs at *
  rw [h, PathTree.under, List.map_map]
  refine List.map_congr_left fun w _ => ?_
  simp [below, dotted_cons, show Text.ofString "." = [dot] from rfl]

/-- A mapping with entries has fields, and so its example has some. -/
theorem AreFields.ne_nil_of_map_fst_eq {es : List (Scalar × Value)}
    {fields : List (Text × Schema)} {vs : List (Text × Value)} (h : AreFields es fields)
    (hes : es ≠ []) (hnames : vs.map Prod.fst = fields.map Prod.fst) : vs ≠ [] := by
  rintro rfl
  cases h with
  | nil => exact hes rfl
  | cons => simp at hnames

mutual

/-- The walk of a node is coupled with its example: what it finds are writes that build the
example. The path is not empty, as an object without fields leaves no trace at the root. -/
theorem collect_coupled_draw (now : Moment) : (schema : Schema) → (v : Value) → IsNode v schema →
    (path : Text) → path ≠ [] → (address : List Scalar) →
    Coupled .none (fun s t => s = t)
      (fun found v => ∃ ws, FoundAs path found ws ∧ Builds ws v)
      (collect now path address v : Synth σ (List Finding)) (schema.draw now)
  | .leaf type _ => by
    intro v hv path _ address
    cases hv with
    | @leaf entries _ hitems hproperties htype =>
        rw [collect_of_field hitems hproperties htype]
        cases hsample : Entries.get? (.str "example") entries with
        | some v => exact .pure ⟨_, .self path v _, builds_leaf v⟩
        | none =>
            -- Both sides draw once, for the same type.
            rw [Schema.draw]
            nth_rewrite 2 [← bind_pure (synthesize now type none)]
            refine (Coupled.refl _).bind ?_
            rintro v _ rfl
            exact .pure ⟨_, .self path v _, builds_leaf v⟩
  | .object fields => by
    intro v hv path hpath address
    cases hv with
    | @object entries es _ hitems hproperties hfields hstand =>
        rw [collect_of_object hitems hproperties, Schema.draw]
        by_cases hes : es = []
        · -- An object without fields is written as a whole, since nothing is found below it.
          subst hes
          cases hfields
          rw [if_pos rfl, drawFields, pure_bind, if_neg (by simpa using hpath)]
          exact .pure ⟨_, .self path (.map []) _, builds_leaf _⟩
        · rw [if_neg hes, collect_of_fields (shape_fields hfields hstand),
            ← bind_pure (collectFields now path _ es)]
          refine (collectFields_coupled_draw now fields es hfields path _).bind ?_
          rintro found vs ⟨hnames, ws, hfound, hbuilds⟩
          exact .pure ⟨ws, hfound, hbuilds.object (hfields.ne_nil_of_map_fst_eq hes hnames)⟩
  | .listOf fields => by
    intro v hv path hpath address
    cases hv with
    | @listOf entries es _ hitems hes hfields =>
        rw [collect_of_listOfObjects hitems, Schema.draw, ← bind_pure (collectFields now _ _ es)]
        refine (collectFields_coupled_draw now fields es hfields _ _).bind ?_
        rintro found vs ⟨hnames, ws, hfound, hbuilds⟩
        exact .pure ⟨under "0" ws, hfound.under,
          hbuilds.listOf (hfields.ne_nil_of_map_fst_eq hes hnames)⟩

/-- The walk of fields is coupled with their examples. -/
theorem collectFields_coupled_draw (now : Moment) : (fields : List (Text × Schema)) →
    (es : List (Scalar × Value)) → AreFields es fields → (path : Text) → (address : List Scalar) →
    Coupled .none (fun s t => s = t)
      (fun found vs => vs.map Prod.fst = fields.map Prod.fst ∧
        ∃ ws, FoundAs path found ws ∧ BuildsFields ws vs)
      (collectFields now path address es : Synth σ (List Finding)) (drawFields now fields)
  | [] => by
    intro es hes path address
    cases hes
    rw [collectFields, drawFields]
    exact .pure ⟨rfl, [], rfl, buildsFields_nil⟩
  | (name, schema) :: fields => by
    intro es hes path address
    cases hes with
    | @cons _ node _ es _ hname hnew hnode hfields =>
        rw [collectFields, drawFields]
        -- The name of a field is a text, and shows as itself.
        show Coupled _ _ _ (pure name >>= fun name => _) _
        rw [pure_bind]
        refine (collect_coupled_draw now schema node hnode (below path name)
          (by simp [below, hname.ne_nil]) _).bind ?_
        rintro first v ⟨ws, hfirst, hv⟩
        refine (collectFields_coupled_draw now fields es hfields path address).bind ?_
        rintro others vs ⟨hnames, us, hothers, hvs⟩
        exact .pure ⟨by simp [hnames], under name ws ++ us, hfirst.under.append hothers,
          .cons hname (hnames ▸ hnew) hv hvs⟩

end

/-! ### The whole -/

/-- Distinct lists of segments have distinct paths. -/
theorem dotted_injective_of_isSegment {a b : List Text} (ha : ∀ s ∈ a, IsSegment dot s)
    (hb : ∀ s ∈ b, IsSegment dot s) (hane : a ≠ []) (hbne : b ≠ [])
    (h : dotted dot a = dotted dot b) : a = b := by
  have hcut := segments_dotted dot a hane ha
  rw [h, segments_dotted dot b hbne hb] at hcut
  exact (Except.ok.inj hcut).symm

/-- The tree of what was found is what the writes leave. The paths are distinct, so none of
them is written twice. -/
theorem treeOf_eq {found : List Finding} {ws : List (List Text × Value)}
    (hfound : FoundAs [] found ws) (hnodup : (ws.map Prod.fst).Nodup)
    (hsegments : ∀ w ∈ ws, w.1 ≠ [] ∧ ∀ s ∈ w.1, IsSegment dot s) :
    treeOf found
      = writeAll ws
          (if (ws.head?.bind (·.1.head?)) = some ("0" : Text) then .list [] else .map []) := by
  have hpaths : found.map (·.path) = ws.map fun w => dotted dot w.1 := by
    have h := congrArg (List.map Prod.fst) hfound
    simpa [Function.comp_def] using h
  have hdistinct : (ws.map fun w => dotted dot w.1).Nodup := by
    rw [show (ws.map fun w => dotted dot w.1) = (ws.map Prod.fst).map (dotted dot) by simp]
    refine hnodup.map_on ?_
    intro a ha b hb h
    obtain ⟨w, hw, rfl⟩ := List.mem_map.mp ha
    obtain ⟨u, hu, rfl⟩ := List.mem_map.mp hb
    exact dotted_injective_of_isSegment (hsegments w hw).2 (hsegments u hu).2
      (hsegments w hw).1 (hsegments u hu).1 h
  -- With distinct paths, no finding replaces another.
  have hbyPath : byPath found = found.map fun f => (f.path, f) := by
    refine Entries.ofList_eq_self ?_
    rw [List.pairwise_map]
    rw [← hpaths, List.Nodup, List.pairwise_map] at hdistinct
    exact hdistinct.imp fun h => by simpa using h
  have hflat : ((byPath found).map fun e => (e.1, e.2.value))
      = ws.map fun w => (dotted dot w.1, w.2) := by
    rw [hbyPath, List.map_map]
    exact hfound
  rw [treeOf, hflat]
  exact ofFlat_dotted dot ws hsegments

/-- The paths of fields are not empty. -/
theorem BuildsFields.isSegment {ws : List (List Text × Value)} {vs : List (Text × Value)}
    (h : BuildsFields ws vs) : ∀ w ∈ ws, w.1 ≠ [] ∧ ∀ s ∈ w.1, IsSegment dot s := by
  intro w hw
  obtain ⟨name, rest, hsegs, -⟩ := h.heads w hw
  exact ⟨by simp [hsegs], h.segments w hw⟩

/-- The tree of fields is a mapping with these fields. -/
theorem treeOf_fields {found : List Finding} {ws : List (List Text × Value)}
    {vs : List (Text × Value)} (hfound : FoundAs [] found ws) (h : BuildsFields ws vs) :
    treeOf found = .ok (.ofFields vs) := by
  have hroot : (ws.head?.bind (·.1.head?)) ≠ some ("0" : Text) := by
    cases ws with
    | nil => simp
    | cons w ws =>
        obtain ⟨name, rest, hsegs, hname⟩ := h.heads w List.mem_cons_self
        simpa [hsegs] using h.names name hname
  rw [treeOf_eq hfound h.nodup h.isSegment, if_neg hroot, h.writes [] (by simp), List.nil_append]
  rfl

/-- The tree of the fields of a first element is a list with that element. -/
theorem treeOf_listOf {found : List Finding} {ws : List (List Text × Value)}
    {vs : List (Text × Value)} (hfound : FoundAs (below [] "0") found ws)
    (h : BuildsFields ws vs) (hne : vs ≠ []) :
    treeOf found = .ok (.list [.ofFields vs]) := by
  have hbuilds := h.listOf hne
  have hsegments : ∀ w ∈ under "0" ws, w.1 ≠ [] ∧ ∀ s ∈ w.1, IsSegment dot s := by
    intro w hw
    refine ⟨?_, hbuilds.segments w hw⟩
    obtain ⟨u, -, rfl⟩ := List.mem_map.mp hw
    simp
  -- A tree is a list if the first path begins with `0`, and here every path does.
  have hroot : ((under "0" ws).head?.bind (·.1.head?)) = some ("0" : Text) := by
    obtain ⟨w, rest, rfl⟩ := List.exists_cons_of_ne_nil (h.ne_nil hne)
    rfl
  rw [treeOf_eq hfound.under hbuilds.nodup hsegments, if_pos hroot,
    writeAll_under_zero (h.ne_nil hne) (.inl rfl), (h.object hne).writes]
  rfl

/-- On a value of the grammar, collecting values under dotted paths and putting a tree
together from them is the plain recursion over the schema: the same example or the same
failure from every state of the random source, and the same state left. -/
theorem composite_eq_draw (now : Moment) {v : Value} {schema : Schema} (h : IsSchema v schema) :
    (composite now v : Synth σ Value) = schema.draw now := by
  refine Coupled.eq ?_
  cases h with
  | @fields es fields hfields hstand =>
      rw [composite, collect_of_fields (shape_fields hfields hstand), Schema.draw]
      refine (collectFields_coupled_draw now fields es hfields [] []).bind ?_
      rintro found vs ⟨-, ws, hfound, hbuilds⟩
      rw [treeOf_fields hfound hbuilds]
      exact .pure rfl
  | @listOf entries es fields hitems hes hfields =>
      rw [composite, collect_of_listOfObjects hitems, Schema.draw]
      refine (collectFields_coupled_draw now fields es hfields _ _).bind ?_
      rintro found vs ⟨hnames, ws, hfound, hbuilds⟩
      rw [treeOf_listOf hfound hbuilds (hfields.ne_nil_of_map_fst_eq hes hnames)]
      exact .pure rfl

end Walk

/-- A schema with a list of objects and an object without fields in it. The field `items` of
the elements is an object itself. -/
def orderSchema : Value :=
  .object
    [("id", .object [("type", .str "integer")]),
     ("lines", .object
       [("type", .str "array"),
        ("items", .object [("properties", .object
          [("sku", .object [("type", .str "string"), ("example", .str "A-1")]),
           ("items", .object [("properties", .object [])])])])]),
     ("meta", .object [("properties", .object [])])]

/-- The order as a schema of the grammar. -/
def orderGrammar : Schema :=
  .object
    [("id", .leaf "integer" none),
     ("lines", .listOf [("sku", .leaf "string" (some (.str "A-1"))), ("items", .object [])]),
     ("meta", .object [])]

/-- The example of an order from a congruential source, at noon of a day in May. -/
theorem composite_orderSchema :
    IsSchema orderSchema orderGrammar ∧
      (composite ⟨⟨2024, 5, 17⟩, 12, 0, 0, 0, some 0⟩ orderSchema : Synth Congruential Value)
        = orderGrammar.draw ⟨⟨2024, 5, 17⟩, 12, 0, 0, 0, some 0⟩ := by
  have hempty : IsNode (.object [("properties", .object [])]) (.object []) :=
    .object rfl rfl .nil (by simp)
  have helement : AreFields
      [(.str "sku", .object [("type", .str "string"), ("example", .str "A-1")]),
       (.str "items", .object [("properties", .object [])])]
      [("sku", .leaf "string" (some (.str "A-1"))), ("items", .object [])] :=
    .cons ⟨by decide, by decide, by decide⟩ (by decide) (.leaf rfl rfl rfl)
      (.cons ⟨by decide, by decide, by decide⟩ (by decide) hempty .nil)
  have hschema : IsSchema orderSchema orderGrammar := by
    refine .fields
      (.cons ⟨by decide, by decide, by decide⟩ (by decide) (.leaf rfl rfl rfl)
        (.cons ⟨by decide, by decide, by decide⟩ (by decide)
          (.listOf rfl (by simp) helement)
          (.cons ⟨by decide, by decide, by decide⟩ (by decide) hempty .nil))) ?_
    -- No field is called `properties` or `items`, so each of them stands as a field.
    intro name node hmem
    have hnames : name = "id" ∨ name = "lines" ∨ name = "meta" := by
      simpa using List.mem_map_of_mem (f := Prod.fst) hmem
    obtain rfl | rfl | rfl := hnames <;> exact ⟨by decide, fun h => absurd h (by decide)⟩
  exact ⟨hschema, composite_eq_draw _ hschema⟩

end RouteDocs.Synthesis
