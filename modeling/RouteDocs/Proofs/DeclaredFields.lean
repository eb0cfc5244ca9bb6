import RouteDocs.Proofs.CompositeExample
import RouteDocs.Proofs.SchemaFaults

/-!
# `RouteDocs.Proofs.DeclaredFields`: which declared fields an example shows

A schema declares fields in four forms: by a type name alone, by a mapping with a type, as an
object with properties, and as a list of objects with properties. The example of the schema is
meant to have a value for each of them, and it does not: the walk passes over a type name
that stands alone, and over a list whose elements have no properties (`not_showsAll_bareSchema`).

`Declared` is the grammar of such schemas, and `Declares` lists its fields under their paths.
`composite_shows_iff` says exactly when every field is shown: if none is a type name alone or
a list without properties, and no date is drawn on a clock that is partly out of the calendar.
`exists_at_composite_iff` is the law behind it, for one field: it is shown exactly if it leaves
a trace, which is a leaf or an empty object at or below it.

One name among fields has a meaning of its own: a mapping with a type name alone under `type` is
read as a single field of that type. The condition is sufficient there too, and a schema with
such a mapping never satisfies it; that nothing else satisfies the claim is said of schemas
without one (`Declared.NamesNoType`).

The walk is coupled with a plain recursion, `Declared.draw`, as in
`RouteDocs.Proofs.CompositeExample`, but for fields that leave nothing.
-/

set_option autoImplicit false

namespace RouteDocs.Synthesis

open Text PathTree

/-! ### The grammar -/

/-- A field as a schema declares it. -/
inductive Declared where
  /-- A type name alone. -/
  | named (type : Text)
  /-- A mapping with a type, and perhaps an example. -/
  | leaf (type : Text) (sample : Option Value)
  /-- A mapping with properties. -/
  | object (fields : List (Text × Declared))
  /-- A mapping with properties of elements. -/
  | listOf (fields : List (Text × Declared))

/-- A name of a field that has no meaning of its own in a schema. -/
structure IsPropertyName (name : Text) : Prop extends IsFieldName name where
  ne_properties : name ≠ "properties"
  ne_items : name ≠ "items"

mutual

/-- The value declares this field. Keys that the grammar does not know may have any value. -/
inductive IsDeclared : Value → Declared → Prop where
  /-- A type name alone. -/
  | named (type : Text) : IsDeclared (.str type) (.named type)
  /-- A type that is a text makes a leaf, unless there are properties. -/
  | leaf {entries : List (Scalar × Value)} {type : Text}
      (hitems : elementProperties? entries = none)
      (hproperties : mapUnder? "properties" entries = none)
      (htype : Entries.get? (.str "type") entries = some (.str type)) :
      IsDeclared (.map entries) (.leaf type (Entries.get? (.str "example") entries))
  /-- Properties make an object, unless there are properties of elements. -/
  | object {entries es : List (Scalar × Value)} {fields : List (Text × Declared)}
      (hitems : elementProperties? entries = none)
      (hproperties : mapUnder? "properties" entries = some es)
      (hfields : AreDeclared es fields) : IsDeclared (.map entries) (.object fields)
  /-- Properties of elements make a list of objects. -/
  | listOf {entries es : List (Scalar × Value)} {fields : List (Text × Declared)}
      (hitems : elementProperties? entries = some es) (hfields : AreDeclared es fields) :
      IsDeclared (.map entries) (.listOf fields)

/-- The entries declare these fields. A mapping has no name twice. -/
inductive AreDeclared : List (Scalar × Value) → List (Text × Declared) → Prop where
  /-- No fields. -/
  | nil : AreDeclared [] []
  /-- A field and the ones after it. -/
  | cons {name : Text} {node : Value} {f : Declared} {es : List (Scalar × Value)}
      {fields : List (Text × Declared)}
      (hname : IsPropertyName name) (hnew : name ∉ fields.map Prod.fst)
      (hnode : IsDeclared node f) (hfields : AreDeclared es fields) :
      AreDeclared ((.str name, node) :: es) ((name, f) :: fields)

end

/-- The value is a whole schema: fields by name, or a list of objects. -/
inductive IsDeclaration : Value → Declared → Prop where
  /-- Fields by name. -/
  | fields {es : List (Scalar × Value)} {fields : List (Text × Declared)}
      (hfields : AreDeclared es fields) : IsDeclaration (.map es) (.object fields)
  /-- A list of objects. -/
  | listOf {entries es : List (Scalar × Value)} {fields : List (Text × Declared)}
      (hitems : elementProperties? entries = some es) (hfields : AreDeclared es fields) :
      IsDeclaration (.map entries) (.listOf fields)

/-- A field declares itself, at the empty path, and the fields below it. Those of a list are below
its first element. -/
inductive Declares : Declared → List Text → Declared → Prop where
  /-- Itself. -/
  | here (f : Declared) : Declares f [] f
  /-- A field of an object. -/
  | object {fields : List (Text × Declared)} {name : Text} {f g : Declared} {path : List Text}
      (hmem : (name, f) ∈ fields) (hrest : Declares f path g) :
      Declares (.object fields) (name :: path) g
  /-- A field of the elements of a list. -/
  | listOf {fields : List (Text × Declared)} {name : Text} {f g : Declared} {path : List Text}
      (hmem : (name, f) ∈ fields) (hrest : Declares f path g) :
      Declares (.listOf fields) ("0" :: name :: path) g

/-- A part of a part is a part. -/
theorem Declares.trans {f g k : Declared} {path rest : List Text} (hfg : Declares f path g)
    (hgk : Declares g rest k) : Declares f (path ++ rest) k := by
  induction hfg with
  | here => exact hgk
  | object hmem _ ih => exact .object hmem (ih hgk)
  | listOf hmem _ ih => exact .listOf hmem (ih hgk)

/-- A value has another one at a path, through the first elements of lists. -/
inductive At : Value → List Text → Value → Prop where
  /-- Itself. -/
  | here (v : Value) : At v [] v
  /-- Below a key of a mapping. -/
  | field {entries : List (Scalar × Value)} {name : Text} {v w : Value} {path : List Text}
      (hget : Entries.get? (.str name) entries = some v) (hrest : At v path w) :
      At (.map entries) (name :: path) w
  /-- Below the first element of a list. -/
  | first {v w : Value} {vs : List Value} {path : List Text} (hrest : At v path w) :
      At (.list (v :: vs)) ("0" :: path) w

namespace Declared

/-- The field has the property, or a field below it has. -/
def Has (P : Declared → Prop) (f : Declared) : Prop := ∃ path g, Declares f path g ∧ P g

/-- The walk writes a value for the field itself: it is a leaf, or an object without fields. -/
inductive IsWritten : Declared → Prop where
  /-- A leaf. -/
  | leaf (type : Text) (sample : Option Value) : IsWritten (.leaf type sample)
  /-- An object without fields. -/
  | empty : IsWritten (.object [])

/-- The field leaves a trace: a value is written for it, or for a field below it. -/
def Traces (f : Declared) : Prop := f.Has IsWritten

/-- A date is drawn for the field, or for a field below it. -/
def DrawsDate (f : Declared) : Prop := f.Has (· = .leaf CanonicalType.date.name none)

/-- The walk passes over the field: it is a type name alone, or a list whose elements have no
properties. -/
inductive IsGap : Declared → Prop where
  /-- A type name alone. -/
  | named (type : Text) : IsGap (.named type)
  /-- A list whose elements have no properties. -/
  | empty : IsGap (.listOf [])

/-- None of the fields is passed over. -/
def IsComplete (f : Declared) : Prop := ∀ path g, Declares f path g → path ≠ [] → ¬ g.IsGap

/-- In no object of the schema a type name alone stands under `type`. -/
def NamesNoType (f : Declared) : Prop :=
  ∀ path fields, Declares f path (.object fields) → ∀ type,
    ((ofString "type", .named type) : Text × Declared) ∉ fields

/-- Where nothing is passed over, no type name stands alone under `type` either. -/
theorem IsComplete.namesNoType {f : Declared} (h : f.IsComplete) : f.NamesNoType := by
  intro path fields hdeclares type hmem
  exact h _ _ (hdeclares.trans (.object hmem (.here _))) (by simp) (.named type)

/-- What is said of all objects of a schema is said of those below a field. -/
theorem NamesNoType.of_object {fields : List (Text × Declared)}
    (h : (object fields).NamesNoType) : ∀ e ∈ fields, e.2.NamesNoType :=
  fun e hmem path fields' hrest => h (e.1 :: path) fields' (.object hmem hrest)

/-- The same below the elements of a list. -/
theorem NamesNoType.of_listOf {fields : List (Text × Declared)}
    (h : (listOf fields).NamesNoType) : ∀ e ∈ fields, e.2.NamesNoType :=
  fun e hmem path fields' hrest => h ("0" :: e.1 :: path) fields' (.listOf hmem hrest)

section

variable {P : Declared → Prop} {fields : List (Text × Declared)}

/-- A type name alone has no fields below it. -/
theorem has_named_iff (type : Text) : (named type).Has P ↔ P (named type) := by
  constructor
  · rintro ⟨path, g, hdeclares, hg⟩
    cases hdeclares
    exact hg
  · intro h
    exact ⟨[], _, .here _, h⟩

/-- Nor has a leaf. -/
theorem has_leaf_iff (type : Text) (sample : Option Value) :
    (leaf type sample).Has P ↔ P (leaf type sample) := by
  constructor
  · rintro ⟨path, g, hdeclares, hg⟩
    cases hdeclares
    exact hg
  · intro h
    exact ⟨[], _, .here _, h⟩

/-- An object has the property, or one of its fields has it somewhere. -/
theorem has_object_iff :
    (object fields).Has P ↔ P (object fields) ∨ ∃ e ∈ fields, e.2.Has P := by
  constructor
  · rintro ⟨path, g, hdeclares, hg⟩
    cases hdeclares with
    | here => exact .inl hg
    | object hmem hrest => exact .inr ⟨_, hmem, _, g, hrest, hg⟩
  · rintro (h | ⟨⟨name, f⟩, hmem, path, g, hrest, hg⟩)
    · exact ⟨[], _, .here _, h⟩
    · exact ⟨name :: path, g, .object hmem hrest, hg⟩

/-- A list has the property, or one of the fields of its elements has it somewhere. -/
theorem has_listOf_iff :
    (listOf fields).Has P ↔ P (listOf fields) ∨ ∃ e ∈ fields, e.2.Has P := by
  constructor
  · rintro ⟨path, g, hdeclares, hg⟩
    cases hdeclares with
    | here => exact .inl hg
    | listOf hmem hrest => exact .inr ⟨_, hmem, _, g, hrest, hg⟩
  · rintro (h | ⟨⟨name, f⟩, hmem, path, g, hrest, hg⟩)
    · exact ⟨[], _, .here _, h⟩
    · exact ⟨"0" :: name :: path, g, .listOf hmem hrest, hg⟩

end

/-- The walk passes over a type name alone. -/
theorem not_traces_named (type : Text) : ¬ (named type).Traces := by
  rw [Traces, has_named_iff]
  exact nofun

/-- It writes a value for a leaf. -/
theorem traces_leaf (type : Text) (sample : Option Value) : (leaf type sample).Traces :=
  (has_leaf_iff type sample).mpr (.leaf type sample)

/-- It writes an empty mapping for an object without fields. -/
theorem traces_empty : (object []).Traces := has_object_iff.mpr (.inl .empty)

/-- An object with fields leaves a trace exactly if one of them does. -/
theorem traces_object_iff {fields : List (Text × Declared)} (hne : fields ≠ []) :
    (object fields).Traces ↔ ∃ e ∈ fields, e.2.Traces := by
  have hself : ¬ (object fields).IsWritten := by
    intro h
    cases h
    exact hne rfl
  rw [Traces, has_object_iff, or_iff_right hself]
  rfl

/-- A list leaves a trace exactly if one of the fields of its elements does. -/
theorem traces_listOf_iff {fields : List (Text × Declared)} :
    (listOf fields).Traces ↔ ∃ e ∈ fields, e.2.Traces := by
  rw [Traces, has_listOf_iff, or_iff_right nofun]
  rfl

end Declared

/-! ### The example as a recursion -/

section Draw

variable {σ : Type} [RandomSource σ]

mutual

/-- The example of a field, if it leaves a trace: the one that is given, or one that is made up,
for every leaf. A list has one element. -/
def Declared.draw (now : Moment) : Declared → Synth σ (Option Value)
  | .named _ => pure none
  | .leaf _ (some v) => pure (some v)
  | .leaf type none => do
    let v ← synthesize now type none
    pure (some v)
  | .object fields =>
    if fields.isEmpty then pure (some (.map []))
    else do
      let vs ← drawDeclared now fields
      pure (if vs.isEmpty then none else some (.ofFields vs))
  | .listOf fields => do
    let vs ← drawDeclared now fields
    pure (if vs.isEmpty then none else some (.list [.ofFields vs]))

/-- The examples of fields, in order, of those that leave a trace. -/
def drawDeclared (now : Moment) : List (Text × Declared) → Synth σ (List (Text × Value))
  | [] => pure []
  | (name, f) :: rest => do
    let v ← Declared.draw now f
    let vs ← drawDeclared now rest
    pure (v.toList.map (fun v => (name, v)) ++ vs)

end

end Draw

mutual

/-- What may be drawn for a field. -/
inductive IsDrawn : Declared → Option Value → Prop where
  /-- Nothing for a type name alone. -/
  | named (type : Text) : IsDrawn (.named type) none
  /-- The example that is given. -/
  | given (type : Text) (v : Value) : IsDrawn (.leaf type (some v)) (some v)
  /-- Any value, where none is given. -/
  | synthesized (type : Text) (v : Value) : IsDrawn (.leaf type none) (some v)
  /-- An empty mapping for an object without fields. -/
  | empty : IsDrawn (.object []) (some (.map []))
  /-- A mapping of fields. -/
  | object {fields : List (Text × Declared)} {vs : List (Text × Value)} (hne : fields ≠ [])
      (h : AreDrawn fields vs) :
      IsDrawn (.object fields) (if vs.isEmpty then none else some (.ofFields vs))
  /-- A list of one mapping of fields. -/
  | listOf {fields : List (Text × Declared)} {vs : List (Text × Value)} (h : AreDrawn fields vs) :
      IsDrawn (.listOf fields) (if vs.isEmpty then none else some (.list [.ofFields vs]))

/-- What may be drawn for fields. -/
inductive AreDrawn : List (Text × Declared) → List (Text × Value) → Prop where
  /-- Nothing for none. -/
  | nil : AreDrawn [] []
  /-- What is drawn for a field, if anything is, and for the ones after it. -/
  | cons {name : Text} {f : Declared} {v : Option Value} {rest : List (Text × Declared)}
      {vs : List (Text × Value)} (hf : IsDrawn f v) (hrest : AreDrawn rest vs) :
      AreDrawn ((name, f) :: rest) (v.toList.map (fun v => (name, v)) ++ vs)

end

section Draw

variable {σ : Type} [RandomSource σ]

/-- Why no example is drawn: some second of the month has no date, and a date is drawn. -/
def FailsByDate (now : Moment) (f : Declared) (e : Error) : Prop :=
  (∃ fault, e = .fault fault ∧ now.Misses fault) ∧ f.DrawsDate

mutual

/-- A draw fails only by a date. -/
theorem draw_ends (now : Moment) : (f : Declared) →
    AlwaysEnds (IsDrawn f) (FailsByDate now f) (f.draw now : Synth σ _)
  | .named type => .pure (.named type)
  | .leaf type (some v) => .pure (.given type v)
  -- Only a typed field without an example draws, so only its date can fail.
  | .leaf type none => by
    refine ((synthesize_ends now type none).mono (fun _ h => h) ?_).bind
      fun v _ => .pure (.synthesized type v)
    rintro e ⟨hclock, rfl⟩
    exact ⟨hclock, (Declared.has_leaf_iff _ _).mpr rfl⟩
  | .object fields => by
    rw [Declared.draw]
    cases fields with
    | nil => exact .pure .empty
    | cons field rest =>
        rw [if_neg (by simp)]
        refine ((drawDeclared_ends now (field :: rest)).mono (fun _ h => h) ?_).bind
          fun vs hvs => .pure (.object (by simp) hvs)
        rintro e ⟨hclock, hdate⟩
        exact ⟨hclock, Declared.has_object_iff.mpr (.inr hdate)⟩
  | .listOf fields => by
    rw [Declared.draw]
    refine ((drawDeclared_ends now fields).mono (fun _ h => h) ?_).bind
      fun vs hvs => .pure (.listOf hvs)
    rintro e ⟨hclock, hdate⟩
    exact ⟨hclock, Declared.has_listOf_iff.mpr (.inr hdate)⟩

/-- The draws of fields fail only by the date of one of them. -/
theorem drawDeclared_ends (now : Moment) : (fields : List (Text × Declared)) →
    AlwaysEnds (AreDrawn fields)
      (fun e => (∃ f, e = .fault f ∧ now.Misses f) ∧ ∃ e ∈ fields, e.2.DrawsDate)
      (drawDeclared now fields : Synth σ _)
  | [] => .pure .nil
  | (name, f) :: rest => by
    rw [drawDeclared]
    refine ((draw_ends now f).mono (fun _ h => h) ?_).bind fun v hv => ?_
    · rintro e ⟨hclock, hdate⟩
      exact ⟨hclock, _, List.mem_cons_self, hdate⟩
    refine ((drawDeclared_ends now rest).mono (fun _ h => h) ?_).bind
      fun vs hvs => .pure (.cons hv hvs)
    rintro e ⟨hclock, field, hmem, hdate⟩
    exact ⟨hclock, field, List.mem_cons_of_mem _ hmem, hdate⟩

end

mutual

/-- On a clock that is partly out of the calendar, no example with a date is drawn from the worst
moment. -/
theorem outcome_draw_of_drawsDate {now : Moment} (hclock : now.IsPartial) : (f : Declared) →
    f.DrawsDate →
      ∃ e, (f.draw now : Synth (Pinned now.worstSecond) _).outcome ⟨⟩ = .error e
  | .named type, h => by
    cases (Declared.has_named_iff type).mp h
  | .leaf type sample, h => by
    cases (Declared.has_leaf_iff type sample).mp h
    obtain ⟨fault, hfault⟩ := exists_outcome_synthesize_date hclock
    exact ⟨_, Synth.outcome_bind_error hfault _⟩
  | .object fields, h => by
    obtain h | hdate := Declared.has_object_iff.mp h
    · cases h
    -- An object without fields draws nothing at all.
    have hne : ¬ fields.isEmpty = true := by
      obtain ⟨field, hmem, -⟩ := hdate
      simpa using List.ne_nil_of_mem hmem
    obtain ⟨e, he⟩ := outcome_drawDeclared_of_drawsDate hclock fields hdate
    rw [Declared.draw, if_neg hne]
    exact ⟨e, Synth.outcome_bind_error he _⟩
  | .listOf fields, h => by
    obtain h | hdate := Declared.has_listOf_iff.mp h
    · cases h
    obtain ⟨e, he⟩ := outcome_drawDeclared_of_drawsDate hclock fields hdate
    rw [Declared.draw]
    exact ⟨e, Synth.outcome_bind_error he _⟩

/-- The same of fields, if a date is drawn for one of them. -/
theorem outcome_drawDeclared_of_drawsDate {now : Moment} (hclock : now.IsPartial) :
    (fields : List (Text × Declared)) → (∃ e ∈ fields, e.2.DrawsDate) →
    ∃ e, (drawDeclared now fields : Synth (Pinned now.worstSecond) _).outcome ⟨⟩ = .error e
  | [], h => by
    obtain ⟨field, hmem, -⟩ := h
    cases hmem
  | (name, f) :: rest, h => by
    rw [drawDeclared]
    -- The date is in this field, unless it is in one behind it, which finds the source unchanged.
    cases hout : (f.draw now : Synth (Pinned now.worstSecond) _).outcome ⟨⟩ with
    | error e => exact ⟨e, Synth.outcome_bind_error hout _⟩
    | ok v =>
        obtain hdate | hdate := (List.exists_mem_cons_iff ..).mp h
        · obtain ⟨e, he⟩ := outcome_draw_of_drawsDate hclock f hdate
          rw [hout] at he
          cases he
        · obtain ⟨e, he⟩ := outcome_drawDeclared_of_drawsDate hclock rest hdate
          rw [Synth.outcome_bind_ok hout]
          exact ⟨e, Synth.outcome_bind_error he _⟩

end

end Draw

/-! ### The walk -/

section Walk

variable {σ : Type} [RandomSource σ]

/-- The findings below a path leave the example there, or there are none. -/
def Leaves (path : Text) (found : List Finding) : Option Value → Prop
  | none => found = []
  | some v => ∃ ws, FoundAs path found ws ∧ Builds ws v

/-- Without fields there is nothing to write. -/
theorem BuildsFields.found_eq_nil {ws : List (List Text × Value)} {path : Text}
    {found : List Finding} (h : BuildsFields ws []) (hfound : FoundAs path found ws) :
    found = [] := by
  have hws : ws = [] := by
    rw [List.eq_nil_iff_forall_not_mem]
    intro w hw
    obtain ⟨name, rest, -, hname⟩ := h.heads w hw
    cases hname
  rw [FoundAs, hws] at hfound
  simpa using hfound

/-- The findings below a path leave the examples of some of the fields there. -/
def LeavesFields (fields : List (Text × Declared)) (path : Text) (found : List Finding)
    (vs : List (Text × Value)) : Prop :=
  (∀ name ∈ vs.map Prod.fst, name ∈ fields.map Prod.fst) ∧
    ∃ ws, FoundAs path found ws ∧ BuildsFields ws vs

namespace LeavesFields

variable {fields : List (Text × Declared)} {path : Text} {found : List Finding}
  {vs : List (Text × Value)}

/-- No findings leave the examples of no fields. -/
theorem nil (path : Text) : LeavesFields [] path [] [] :=
  ⟨by simp, [], rfl, buildsFields_nil⟩

/-- The findings of a field, if there are any, go before those of the fields after it. -/
theorem cons {name : Text} {first : List Finding} {v : Option Value} (f : Declared)
    (hname : IsFieldName name) (hnew : name ∉ fields.map Prod.fst)
    (hfirst : Leaves (below path name) first v) (hrest : LeavesFields fields path found vs) :
    LeavesFields ((name, f) :: fields) path (first ++ found)
      (v.toList.map (fun v => (name, v)) ++ vs) := by
  obtain ⟨hnames, us, hfound, hvs⟩ := hrest
  cases v with
  | none =>
      obtain rfl : first = [] := hfirst
      exact ⟨fun n hn => List.mem_cons_of_mem _ (hnames n hn), us, hfound, hvs⟩
  | some v =>
      obtain ⟨ws, hfirst, hv⟩ := hfirst
      have hnew' : name ∉ vs.map Prod.fst := fun h => hnew (hnames name h)
      refine ⟨fun n hn => ?_, under name ws ++ us, hfirst.under.append hfound,
        .cons hname hnew' hv hvs⟩
      obtain rfl | hn := List.mem_cons.mp hn
      · exact List.mem_cons_self
      · exact List.mem_cons_of_mem _ (hnames n hn)

/-- The fields of an object leave the object, unless they leave nothing. -/
theorem object (h : LeavesFields fields path found vs) :
    Leaves path found (if vs.isEmpty then none else some (.ofFields vs)) := by
  obtain ⟨-, ws, hfound, hbuilds⟩ := h
  cases vs with
  | nil => exact hbuilds.found_eq_nil hfound
  | cons v vs => exact ⟨ws, hfound, hbuilds.object (by simp)⟩

/-- The fields of the first element leave the list, unless they leave nothing. -/
theorem listOf (h : LeavesFields fields (below path "0") found vs) :
    Leaves path found (if vs.isEmpty then none else some (.list [.ofFields vs])) := by
  obtain ⟨-, ws, hfound, hbuilds⟩ := h
  cases vs with
  | nil => exact hbuilds.found_eq_nil hfound
  | cons v vs => exact ⟨under "0" ws, hfound.under, hbuilds.listOf (by simp)⟩

end LeavesFields

/-- A name with a meaning in a schema is none of a field. -/
theorem AreDeclared.get?_eq_none {es : List (Scalar × Value)} {fields : List (Text × Declared)}
    (h : AreDeclared es fields) {name : Text} (hname : ¬ IsPropertyName name) :
    Entries.get? (.str name) es = none := by
  induction es generalizing fields with
  | nil => rfl
  | cons e es ih =>
      cases h with
      | @cons other node f _ fields hother _ _ hfields =>
          have hne : other ≠ name := by
            rintro rfl
            exact hname hother
          rw [Entries.get?_cons, if_neg (by simpa using hne), ih hfields]

/-- A type name that stands in a mapping of fields declares a field. -/
theorem AreDeclared.named_mem {es : List (Scalar × Value)} {fields : List (Text × Declared)}
    (h : AreDeclared es fields) {name type : Text}
    (hget : Entries.get? (.str name) es = some (.str type)) : (name, .named type) ∈ fields := by
  induction es generalizing fields with
  | nil => cases hget
  | cons e es ih =>
      cases h with
      | @cons other node f _ fields _ _ hnode hfields =>
          rw [Entries.get?_cons] at hget
          by_cases heq : other = name
          · rw [if_pos (by simpa using heq)] at hget
            cases hget
            cases hnode
            rw [heq]
            exact List.mem_cons_self
          · rw [if_neg (by simpa using heq)] at hget
            exact List.mem_cons_of_mem _ (ih hfields hget)

/-- A mapping of fields is read as one. -/
theorem AreDeclared.shape_eq {es : List (Scalar × Value)} {fields : List (Text × Declared)}
    (h : AreDeclared es fields)
    (hnames : ∀ type, ((ofString "type", .named type) : Text × Declared) ∉ fields) :
    shape es = .fields := by
  have hitems : mapUnder? "items" es = none := by
    rw [mapUnder?, h.get?_eq_none fun hname => hname.ne_items rfl]
  have hproperties : mapUnder? "properties" es = none := by
    rw [mapUnder?, h.get?_eq_none fun hname => hname.ne_properties rfl]
  rw [shape, hitems, hproperties]
  simp only [Option.bind_none, Option.isSome_none, Bool.false_eq_true, if_false]
  split
  · rename_i type hget
    exact absurd (h.named_mem hget) (hnames type)
  · rfl

mutual

/-- The walk of a field is coupled with its example. The path is not empty, as an object without
fields leaves no trace at the root. -/
theorem collect_coupled_declared (now : Moment) : (f : Declared) → f.NamesNoType →
    (v : Value) → IsDeclared v f → (path : Text) → path ≠ [] → (address : List Scalar) →
    Coupled .none (fun s t => s = t) (Leaves path)
      (collect now path address v : Synth σ (List Finding)) (f.draw now)
  | .named type => by
    intro _ v hv path _ address
    cases hv
    rw [collect, Declared.draw]
    · exact .pure rfl
    · simp
  | .leaf type _ => by
    intro _ v hv path _ address
    cases hv with
    | @leaf entries _ hitems hproperties htype =>
        rw [collect_of_field hitems hproperties htype]
        -- A given example is taken as it is, and otherwise both sides draw the same one.
        cases hsample : Entries.get? (.str "example") entries with
        | some v => exact .pure ⟨_, .self path v _, builds_leaf v⟩
        | none =>
            rw [Declared.draw]
            refine (Coupled.refl _).bind ?_
            rintro v _ rfl
            exact .pure ⟨_, .self path v _, builds_leaf v⟩
  | .object fields => by
    intro hnames v hv path hpath address
    cases hv with
    | @object entries es _ hitems hproperties hfields =>
        rw [collect_of_object hitems hproperties, Declared.draw]
        by_cases hes : es = []
        · -- An object without fields is written as a whole, since nothing is found below it.
          subst hes
          cases hfields
          rw [if_pos rfl, if_neg (by simpa using hpath)]
          exact .pure ⟨_, .self path (.map []) _, builds_leaf _⟩
        · have hne : ¬ fields.isEmpty = true := by
            cases hfields with
            | nil => exact absurd rfl hes
            | cons => simp
          rw [if_neg hes, if_neg hne,
            collect_of_fields (hfields.shape_eq (hnames [] fields (.here _))),
            ← bind_pure (collectFields now path _ es)]
          exact (collectFields_coupled_declared now fields hnames.of_object es hfields path _).bind
            fun found vs hvs => .pure hvs.object
  | .listOf fields => by
    intro hnames v hv path hpath address
    cases hv with
    | @listOf entries es _ hitems hfields =>
        rw [collect_of_listOfObjects hitems, Declared.draw,
          ← bind_pure (collectFields now _ _ es)]
        exact (collectFields_coupled_declared now fields hnames.of_listOf es hfields _ _).bind
          fun found vs hvs => .pure hvs.listOf

/-- The walk of fields is coupled with their examples. -/
theorem collectFields_coupled_declared (now : Moment) : (fields : List (Text × Declared)) →
    (∀ e ∈ fields, e.2.NamesNoType) → (es : List (Scalar × Value)) → AreDeclared es fields →
    (path : Text) → (address : List Scalar) →
    Coupled .none (fun s t => s = t) (LeavesFields fields path)
      (collectFields now path address es : Synth σ (List Finding)) (drawDeclared now fields)
  | [] => by
    intro _ es hes path address
    cases hes
    rw [collectFields, drawDeclared]
    exact .pure (.nil path)
  | (name, f) :: fields => by
    intro hnames es hes path address
    rw [List.forall_mem_cons] at hnames
    cases hes with
    | @cons _ node _ es _ hname hnew hnode hfields =>
        rw [collectFields, drawDeclared]
        -- The name of a field is a text, and shows as itself.
        show Coupled _ _ _ (pure name >>= fun name => _) _
        rw [pure_bind]
        refine (collect_coupled_declared now f hnames.1 node hnode (below path name)
          (by simp [below, hname.ne_nil]) _).bind ?_
        intro first v hfirst
        exact (collectFields_coupled_declared now fields hnames.2 es hfields path address).bind
          fun others vs hvs => .pure (hvs.cons f hname.toIsFieldName hnew hfirst)

end

/-- The example of a whole schema is what is drawn for it, or an empty mapping if nothing is. -/
theorem composite_eq_declared (now : Moment) {v : Value} {f : Declared} (h : IsDeclaration v f)
    (hnames : f.NamesNoType) :
    (composite now v : Synth σ Value)
      = f.draw now >>= fun drawn => pure (drawn.getD (.map [])) := by
  refine Coupled.eq ?_
  cases h with
  | @fields es fields hfields =>
      -- Whether there are fields or not, the example is the mapping of what is drawn for them.
      have hdraw : ((Declared.object fields).draw now >>= fun drawn => pure (drawn.getD (.map []))
            : Synth σ Value)
          = drawDeclared now fields >>= fun vs => pure (.ofFields vs) := by
        rw [Declared.draw]
        cases fields with
        | nil => rfl
        | cons field rest =>
            rw [if_neg (by simp), bind_assoc]
            refine bind_congr fun vs => ?_
            cases vs <;> rfl
      rw [composite, collect_of_fields (hfields.shape_eq (hnames [] fields (.here _))), hdraw]
      refine (collectFields_coupled_declared now fields hnames.of_object es hfields [] []).bind ?_
      rintro found vs ⟨-, ws, hfound, hbuilds⟩
      rw [treeOf_fields hfound hbuilds]
      exact .pure rfl
  | @listOf entries es fields hitems hfields =>
      rw [composite, collect_of_listOfObjects hitems, Declared.draw, bind_assoc]
      refine (collectFields_coupled_declared now fields hnames.of_listOf es hfields _ _).bind ?_
      rintro found vs ⟨-, ws, hfound, hbuilds⟩
      rw [pure_bind]
      cases vs with
      | nil =>
          rw [hbuilds.found_eq_nil hfound]
          exact .pure rfl
      | cons v vs =>
          rw [treeOf_listOf hfound hbuilds (by simp)]
          exact .pure rfl

end Walk

/-! ### What is shown -/

/-- The fields of an object, or of the elements of a list. -/
def Declared.fields : Declared → List (Text × Declared)
  | .object fields => fields
  | .listOf fields => fields
  | _ => []

/-- Nowhere below the field two fields have one name. -/
def Declared.IsDistinct (f : Declared) : Prop :=
  ∀ path g, Declares f path g → (g.fields.map Prod.fst).Nodup

/-- Where names are distinct throughout, they are below every field of an object. -/
theorem Declared.IsDistinct.of_object {fields : List (Text × Declared)} {name : Text}
    {f : Declared} (h : (Declared.object fields).IsDistinct) (hmem : (name, f) ∈ fields) :
    f.IsDistinct := fun path g hrest => h (name :: path) g (.object hmem hrest)

/-- And below every field of the elements of a list. -/
theorem Declared.IsDistinct.of_listOf {fields : List (Text × Declared)} {name : Text}
    {f : Declared} (h : (Declared.listOf fields).IsDistinct) (hmem : (name, f) ∈ fields) :
    f.IsDistinct := fun path g hrest => h ("0" :: name :: path) g (.listOf hmem hrest)

/-- Entries declare fields of distinct names, as a mapping has no key twice. -/
theorem AreDeclared.nodup {es : List (Scalar × Value)} {fields : List (Text × Declared)}
    (h : AreDeclared es fields) : (fields.map Prod.fst).Nodup := by
  induction es generalizing fields with
  | nil =>
      cases h
      exact List.nodup_nil
  | cons e es ih =>
      cases h with
      | cons _ hnew _ hfields => exact List.nodup_cons.mpr ⟨hnew, ih hfields⟩

/-- Every field that entries declare is declared by the value of one of them. -/
theorem AreDeclared.exists_of_mem {es : List (Scalar × Value)} {fields : List (Text × Declared)}
    (h : AreDeclared es fields) {name : Text} {f : Declared} (hmem : (name, f) ∈ fields) :
    ∃ node, IsDeclared node f := by
  induction es generalizing fields with
  | nil =>
      cases h
      cases hmem
  | cons e es ih =>
      cases h with
      | cons _ _ hnode hfields =>
          obtain heq | hmem := List.mem_cons.mp hmem
          · cases heq
            exact ⟨_, hnode⟩
          · exact ih hfields hmem

/-- A mapping has no name twice, and so no object of a schema has. -/
theorem IsDeclared.isDistinct {v : Value} {f : Declared} (h : IsDeclared v f) : f.IsDistinct := by
  intro path g hdeclares
  -- Along the path to the field `g`: each step on it enters a part that is declared as well.
  induction hdeclares generalizing v with
  | here f =>
      cases h with
      | object _ _ hfields => exact hfields.nodup
      | listOf _ hfields => exact hfields.nodup
      | _ => exact List.nodup_nil
  | object hmem _ ih =>
      cases h with
      | object _ _ hfields =>
          obtain ⟨node, hnode⟩ := hfields.exists_of_mem hmem
          exact ih hnode
  | listOf hmem _ ih =>
      cases h with
      | listOf _ hfields =>
          obtain ⟨node, hnode⟩ := hfields.exists_of_mem hmem
          exact ih hnode

/-- A schema declares fields of distinct names, at every depth. -/
theorem IsDeclaration.isDistinct {v : Value} {f : Declared} (h : IsDeclaration v f) :
    f.IsDistinct := by
  intro path g hdeclares
  cases h with
  | fields hfields =>
      cases hdeclares with
      | here => exact hfields.nodup
      | object hmem hrest =>
          obtain ⟨node, hnode⟩ := hfields.exists_of_mem hmem
          exact hnode.isDistinct _ _ hrest
  | listOf hitems hfields => exact (IsDeclared.listOf hitems hfields).isDistinct path g hdeclares

/-- Examples are drawn under names of the fields only. -/
theorem AreDrawn.mem_names {fields : List (Text × Declared)} {vs : List (Text × Value)}
    (h : AreDrawn fields vs) : ∀ name ∈ vs.map Prod.fst, name ∈ fields.map Prod.fst := by
  induction fields generalizing vs with
  | nil =>
      cases h
      simp
  | cons field rest ih =>
      cases h with
      | @cons first f v _ vs hf hrest =>
          intro name hname
          rw [List.map_append, List.mem_append] at hname
          obtain hname | hname := hname
          · cases v with
            | none => cases hname
            | some v =>
                obtain rfl := List.mem_singleton.mp hname
                exact List.mem_cons_self
          · exact List.mem_cons_of_mem _ (ih hrest name hname)

/-- What is drawn for a field stands under its name, if it is not nothing. -/
theorem AreDrawn.isDrawn_get? {fields : List (Text × Declared)} {vs : List (Text × Value)}
    (h : AreDrawn fields vs) (hnodup : (fields.map Prod.fst).Nodup) {name : Text} {f : Declared}
    (hmem : (name, f) ∈ fields) : IsDrawn f (Entries.get? name vs) := by
  induction fields generalizing vs with
  | nil => cases hmem
  | cons field rest ih =>
      cases h with
      | @cons first g v _ vs hg hrest =>
          rw [List.map_cons, List.nodup_cons] at hnodup
          -- In front stands what was drawn for the first field, if anything was.
          have hget : Entries.get? name (v.toList.map (fun v => (first, v)) ++ vs)
              = if first = name then v.or (Entries.get? name vs) else Entries.get? name vs := by
            cases v with
            | none => simp
            | some v => simp [Entries.get?_cons]
          rw [hget]
          obtain heq | hmem := List.mem_cons.mp hmem
          · -- The name is that of this field only, so nothing behind it stands under the name.
            cases heq
            have hnone : Entries.get? name vs = none := by
              rw [Entries.get?_eq_none_iff]
              intro hname
              exact hnodup.1 (hrest.mem_names name hname)
            rw [if_pos rfl, hnone, Option.or_none]
            exact hg
          · have hne : first ≠ name := by
              intro heq
              have hname : name ∈ rest.map Prod.fst := List.mem_map.mpr ⟨_, hmem, rfl⟩
              exact hnodup.1 (heq ▸ hname)
            rw [if_neg hne]
            exact ih hrest hnodup.2 hmem

mutual

/-- Something is drawn for a field exactly if it leaves a trace. -/
theorem isDrawn_isSome_iff : (f : Declared) → (drawn : Option Value) → IsDrawn f drawn →
    (drawn.isSome = true ↔ f.Traces)
  | .named type => by
    intro drawn h
    cases h
    simp [Declared.not_traces_named]
  | .leaf type sample => by
    intro drawn h
    cases h <;> simp [Declared.traces_leaf]
  | .object fields => by
    intro drawn h
    cases h with
    | empty => simp [Declared.traces_empty]
    | @object _ vs hne hvs =>
        rw [Declared.traces_object_iff hne, ← areDrawn_ne_nil_iff fields vs hvs]
        cases vs <;> simp
  | .listOf fields => by
    intro drawn h
    cases h with
    | @listOf _ vs hvs =>
        rw [Declared.traces_listOf_iff, ← areDrawn_ne_nil_iff fields vs hvs]
        cases vs <;> simp

/-- An example is drawn for some field exactly if one of them leaves a trace. -/
theorem areDrawn_ne_nil_iff : (fields : List (Text × Declared)) → (vs : List (Text × Value)) →
    AreDrawn fields vs → (vs ≠ [] ↔ ∃ e ∈ fields, e.2.Traces)
  | [] => by
    intro vs h
    cases h
    simp
  | (name, f) :: rest => by
    intro vs h
    cases h with
    | @cons _ _ v _ vs hf hrest =>
        rw [List.exists_mem_cons_iff, ← isDrawn_isSome_iff f v hf,
          ← areDrawn_ne_nil_iff rest vs hrest]
        cases v <;> simp

end

/-- Below a name of a mapping. -/
theorem at_ofFields_iff {vs : List (Text × Value)} {name : Text} {path : List Text} {w : Value} :
    At (.ofFields vs) (name :: path) w ↔ ∃ v, Entries.get? name vs = some v ∧ At v path w := by
  constructor
  · intro h
    cases h with
    | field hget hrest =>
        rw [Entries.get?_map_str] at hget
        exact ⟨_, hget, hrest⟩
  · rintro ⟨v, hget, hrest⟩
    refine .field ?_ hrest
    rw [Entries.get?_map_str]
    exact hget

/-- Below the position `0` a list has what its first element has. -/
theorem at_first_iff {v : Value} {vs : List Value} {path : List Text} {w : Value} :
    At (.list (v :: vs)) ("0" :: path) w ↔ At v path w := by
  constructor
  · intro h
    cases h with
    | first hrest => exact hrest
  · exact .first

/-- At the path of a declared field stands what is drawn for it, if it is not nothing. -/
theorem Declares.exists_isDrawn {f g : Declared} {path : List Text} (h : Declares f path g)
    (hdistinct : f.IsDistinct) {drawn : Option Value} (hdrawn : IsDrawn f drawn) :
    ∃ shown, IsDrawn g shown ∧ ∀ w, (∃ v, drawn = some v ∧ At v path w) ↔ shown = some w := by
  induction h generalizing drawn with
  | here f =>
      -- At the empty path stands the value itself.
      refine ⟨drawn, hdrawn, fun w => ⟨?_, fun hw => ⟨w, hw, .here w⟩⟩⟩
      rintro ⟨v, hv, hat⟩
      cases hat
      exact hv
  | object hmem _ ih =>
      cases hdrawn with
      | empty => cases hmem
      | @object fields vs _ hvs =>
          obtain ⟨shown, hshown, hiff⟩ := ih (hdistinct.of_object hmem)
            (hvs.isDrawn_get? (hdistinct [] _ (.here _)) hmem)
          refine ⟨shown, hshown, fun w => ?_⟩
          rw [← hiff w]
          -- Without fields nothing is drawn, and nothing is found under the name either.
          cases vs <;> simp [at_ofFields_iff]
  | listOf hmem _ ih =>
      cases hdrawn with
      | @listOf fields vs hvs =>
          obtain ⟨shown, hshown, hiff⟩ := ih (hdistinct.of_listOf hmem)
            (hvs.isDrawn_get? (hdistinct [] _ (.here _)) hmem)
          refine ⟨shown, hshown, fun w => ?_⟩
          rw [← hiff w]
          cases vs <;> simp [at_ofFields_iff, at_first_iff]

section Shown

variable {σ : Type} [RandomSource σ] {now : Moment} {v made : Value} {f g : Declared}
  {path : List Text} {s : σ}

/-- The example of a whole schema fails only by a date. -/
theorem composite_ends_declared (now : Moment) (h : IsDeclaration v f) (hnames : f.NamesNoType) :
    AlwaysEnds (fun made => ∃ drawn, IsDrawn f drawn ∧ made = drawn.getD (.map []))
      (FailsByDate now f) (composite now v : Synth σ Value) := by
  rw [composite_eq_declared now h hnames]
  exact (draw_ends now f).bind fun drawn hdrawn => .pure ⟨drawn, hdrawn, rfl⟩

/-- At the path of a declared field, the example of a schema has what is drawn for the field, if
it is not nothing. -/
theorem at_composite_iff (h : IsDeclaration v f) (hnames : f.NamesNoType)
    (hout : (composite now v).outcome s = .ok made) (hdeclares : Declares f path g)
    (hpath : path ≠ []) : ∃ shown, IsDrawn g shown ∧ ∀ w, At made path w ↔ shown = some w := by
  have hends := composite_ends_declared now h hnames s
  rw [hout] at hends
  cases hends with
  | ok hexample =>
      obtain ⟨drawn, hdrawn, rfl⟩ := hexample
      obtain ⟨shown, hshown, hiff⟩ := hdeclares.exists_isDrawn h.isDistinct hdrawn
      refine ⟨shown, hshown, fun w => ?_⟩
      rw [← hiff w]
      cases drawn with
      | some v => simp
      | none =>
          -- Nothing is below the empty mapping that stands for nothing.
          have hnot : ¬ At (.map []) path w := by
            intro hat
            cases hat with
            | here => exact hpath rfl
            | field hget => cases hget
          simpa using hnot

/-- A declared field is shown exactly if it leaves a trace. -/
theorem exists_at_composite_iff (h : IsDeclaration v f) (hnames : f.NamesNoType)
    (hout : (composite now v).outcome s = .ok made) (hdeclares : Declares f path g)
    (hpath : path ≠ []) : (∃ w, At made path w) ↔ g.Traces := by
  obtain ⟨shown, hshown, hiff⟩ := at_composite_iff h hnames hout hdeclares hpath
  rw [← isDrawn_isSome_iff g shown hshown, Option.isSome_iff_exists]
  exact exists_congr hiff

end Shown

/-! ### All fields -/

namespace Declared

/-- The fields that are passed over: type names alone, and lists whose elements have no
properties. -/
theorem isGap_iff {f : Declared} : f.IsGap ↔ (∃ type, f = .named type) ∨ f = .listOf [] := by
  constructor
  · intro h
    cases h with
    | named type => exact .inl ⟨type, rfl⟩
    | empty => exact .inr rfl
  · rintro (⟨type, rfl⟩ | rfl)
    · exact .named type
    · exact .empty

/-- A field that is passed over leaves no trace. -/
theorem IsGap.not_traces {f : Declared} (h : f.IsGap) : ¬ f.Traces := by
  cases h with
  | named type => exact not_traces_named type
  | empty => simp [traces_listOf_iff]

/-- A field leaves a trace if nothing at it or below it is passed over. -/
theorem traces_of_forall_not_isGap : (f : Declared) → (∀ path g, Declares f path g → ¬ g.IsGap) →
    f.Traces
  | .named type, h => absurd (.named type) (h [] _ (.here _))
  | .leaf type sample, _ => traces_leaf type sample
  | .object [], _ => traces_empty
  | .object ((name, f) :: rest), h => by
    have hf : f.Traces := traces_of_forall_not_isGap f fun path g hrest =>
      h (name :: path) g (.object List.mem_cons_self hrest)
    exact (traces_object_iff (by simp)).mpr ⟨_, List.mem_cons_self, hf⟩
  | .listOf [], h => absurd .empty (h [] _ (.here _))
  | .listOf ((name, f) :: rest), h => by
    have hf : f.Traces := traces_of_forall_not_isGap f fun path g hrest =>
      h ("0" :: name :: path) g (.listOf List.mem_cons_self hrest)
    exact traces_listOf_iff.mpr ⟨_, List.mem_cons_self, hf⟩

end Declared

/-- No field is passed over exactly if each leaves a trace. -/
theorem Declared.isComplete_iff (f : Declared) :
    f.IsComplete ↔ ∀ path g, Declares f path g → path ≠ [] → g.Traces := by
  constructor
  · intro h path g hdeclares hpath
    refine traces_of_forall_not_isGap g fun rest k hrest => ?_
    exact h (path ++ rest) k (hdeclares.trans hrest) (by simp [hpath])
  · intro h path g hdeclares hpath hgap
    exact hgap.not_traces (h path g hdeclares hpath)

/-- A leaf has no fields below it that could be passed over. -/
theorem Declared.isComplete_leaf (type : Text) (sample : Option Value) :
    (leaf type sample).IsComplete := by
  intro path g hdeclares hpath
  cases hdeclares
  exact absurd rfl hpath

/-- An object is complete if none of its fields is passed over and all of them are complete. -/
theorem Declared.isComplete_object_iff {fields : List (Text × Declared)} :
    (object fields).IsComplete ↔ ∀ e ∈ fields, ¬ e.2.IsGap ∧ e.2.IsComplete := by
  constructor
  · intro h e hmem
    exact ⟨h [e.1] e.2 (.object hmem (.here _)) (by simp),
      fun path g hrest _ => h (e.1 :: path) g (.object hmem hrest) (by simp)⟩
  · intro h path g hdeclares hpath
    cases hdeclares with
    | here => exact absurd rfl hpath
    | @object _ name f _ path hmem hrest =>
        obtain ⟨hgap, hcomplete⟩ := h _ hmem
        cases path with
        | nil =>
            cases hrest
            exact hgap
        | cons => exact hcomplete _ g hrest (by simp)

/-- From every state of every random source there is an example, and it has a value for every
declared field. -/
def ShowsAll (now : Moment) (v : Value) (f : Declared) : Prop :=
  ∀ (σ : Type) [RandomSource σ] (s : σ), ∃ made,
    (composite now v : Synth σ Value).outcome s = .ok made ∧
    ∀ path g, Declares f path g → path ≠ [] → ∃ w, At made path w

/-- If no declared field is a type name alone or a list without properties, and no date is drawn on
a clock that is partly out of the calendar, the example shows every declared field. Otherwise it
does not, unless a type name alone stands under `type` in some object: such an object is read as a
single field of that type, and what it shows depends on what its other fields look like. -/
theorem composite_shows_iff (now : Moment) {v : Value} {f : Declared} (h : IsDeclaration v f) :
    (f.IsComplete ∧ (now.IsPartial → ¬ f.DrawsDate) → ShowsAll now v f) ∧
      (f.NamesNoType →
        (ShowsAll now v f ↔ f.IsComplete ∧ (now.IsPartial → ¬ f.DrawsDate))) := by
  have hshows : f.IsComplete ∧ (now.IsPartial → ¬ f.DrawsDate) → ShowsAll now v f := by
    rintro ⟨hcomplete, hclock⟩ σ _ s
    have hnames := hcomplete.namesNoType
    cases hout : (composite now v : Synth σ Value).outcome s with
    | ok made =>
        refine ⟨made, rfl, fun path g hdeclares hpath => ?_⟩
        exact (exists_at_composite_iff h hnames hout hdeclares hpath).mpr
          (f.isComplete_iff.mp hcomplete path g hdeclares hpath)
    | error e =>
        have hends := composite_ends_declared now h hnames s
        rw [hout] at hends
        cases hends with
        | error hfails =>
            obtain ⟨⟨fault, -, hmiss⟩, hdate⟩ := hfails
            exact absurd hdate (hclock ⟨fault, hmiss⟩)
  refine ⟨hshows, fun hnames => ⟨fun hall => ⟨?_, ?_⟩, hshows⟩⟩
  · rw [Declared.isComplete_iff]
    intro path g hdeclares hpath
    -- One run is enough here, as the outcome decides nothing about what is shown.
    obtain ⟨made, hout, hat⟩ := hall (Pinned now.worstSecond) ⟨⟩
    exact (exists_at_composite_iff h hnames hout hdeclares hpath).mp (hat path g hdeclares hpath)
  · intro hclock hdate
    -- The run from the worst second fails by the date.
    obtain ⟨made, hout, -⟩ := hall (Pinned now.worstSecond) ⟨⟩
    obtain ⟨e, he⟩ := outcome_draw_of_drawsDate hclock f hdate
    rw [composite_eq_declared now h hnames, Synth.outcome_bind_error he] at hout
    cases hout

/-- An invoice with a number, an address without properties, and a bank account. -/
def invoiceSchema : Value :=
  .object
    [("number", .object [("type", .str "integer")]),
     ("address", .object [("properties", .object [])]),
     ("account", .object [("properties", .object
       [("holder", .object [("type", .str "string"), ("example", .str "A. Lovelace")])])])]

/-- The fields of an invoice. -/
def invoiceFields : Declared :=
  .object
    [("number", .leaf "integer" none),
     ("address", .object []),
     ("account", .object [("holder", .leaf "string" (some (.str "A. Lovelace")))])]

/-- The example of an invoice shows all its fields, on a clock at noon of a day in May. -/
theorem composite_shows_invoice :
    IsDeclaration invoiceSchema invoiceFields ∧
      ShowsAll ⟨⟨2024, 5, 17⟩, 12, 0, 0, 0, some (.ofMinutes 0)⟩ invoiceSchema invoiceFields := by
  have haddress : IsDeclared (.object [("properties", .object [])]) (.object []) :=
    .object rfl rfl .nil
  have hholder : AreDeclared
      [(.str "holder", .object [("type", .str "string"), ("example", .str "A. Lovelace")])]
      [("holder", .leaf "string" (some (.str "A. Lovelace")))] :=
    .cons ⟨⟨by decide, by decide, by decide⟩, by decide, by decide⟩ (by decide)
      (.leaf rfl rfl rfl) .nil
  have hschema : IsDeclaration invoiceSchema invoiceFields := by
    refine .fields
      (.cons ⟨⟨by decide, by decide, by decide⟩, by decide, by decide⟩ (by decide)
        (.leaf rfl rfl rfl)
        (.cons ⟨⟨by decide, by decide, by decide⟩, by decide, by decide⟩ (by decide) haddress
          (.cons ⟨⟨by decide, by decide, by decide⟩, by decide, by decide⟩ (by decide)
            (.object rfl rfl hholder) .nil)))
  -- No field is a gap, so the clock alone decides.
  have hcomplete : invoiceFields.IsComplete := by
    simp only [invoiceFields, Declared.isComplete_object_iff, List.forall_mem_cons]
    simp [Declared.isComplete_leaf, Declared.isGap_iff]
  have hdate : ¬ invoiceFields.DrawsDate := by
    have hinteger : ofString "integer" ≠ CanonicalType.date.name := by decide
    simp [invoiceFields, Declared.DrawsDate, Declared.has_object_iff, Declared.has_leaf_iff,
      hinteger]
  exact ⟨hschema, (composite_shows_iff _ hschema).1 ⟨hcomplete, fun _ => hdate⟩⟩

/-- The example of a field with nothing but its type does not show the field. -/
theorem not_showsAll_bareSchema :
    IsDeclaration (.object [("id", .str "integer")]) (.object [("id", .named "integer")]) ∧
      ∀ now, ¬ ShowsAll now (.object [("id", .str "integer")])
        (.object [("id", .named "integer")]) := by
  have hschema : IsDeclaration (.object [("id", .str "integer")])
      (.object [("id", .named "integer")]) :=
    .fields (.cons ⟨⟨by decide, by decide, by decide⟩, by decide, by decide⟩ (by decide)
      (.named _) .nil)
  refine ⟨hschema, fun now hshows => ?_⟩
  obtain ⟨made, hout, hat⟩ := hshows (Pinned 0) ⟨⟩
  have hid : Declares (.object [("id", .named "integer")]) ["id"] (.named "integer") :=
    .object List.mem_cons_self (.here _)
  have hnames : (Declared.object [("id", .named "integer")]).NamesNoType := by
    intro path fields hdeclares type hmem
    cases hdeclares with
    | here =>
        have hkey : ofString "type" ≠ "id" := by decide
        simp [hkey] at hmem
    | object hfield hrest =>
        cases List.mem_singleton.mp hfield
        cases hrest
  -- A field that is shown leaves a trace, and a type name alone leaves none.
  have htraces := (exists_at_composite_iff hschema hnames hout hid (by simp)).mp
    (hat _ _ hid (by simp))
  exact Declared.not_traces_named _ htraces

end RouteDocs.Synthesis
