import RouteDocs.Random.Congruential
import RouteDocs.Proofs.AlikeEndpoint
import RouteDocs.Proofs.NoonTrials
import RouteDocs.Proofs.RouteRuns
import RouteDocs.Proofs.SchemaFaults
import RouteDocs.Proofs.TimeStamps

/-!
# `RouteDocs.Proofs.ErrorBoundary`: failures that end a run

A run leaves out the routes whose tags are malformed or whose path variables name no
argument. Every other failure ends it, and the routes after it are not documented. The
boundary is meant to hold for any tags, and it does not: a date in a property block that is
in no calendar is enough to cross it (`documentRoutes_badDate`).

`documentRoutes_boundary` says exactly when it holds. Whether a list of routes can end a run
does not depend on the random source but for the clock, so one trial of each route decides
it: the trial draws the second of the month that is worst for the clock (`worstSecond`).
And a failure that ends a run has one of the causes that `Cause` lists, in one of the routes.

The first half of the module follows `Endpoint.ofRoute` step by step, as
`RouteDocs.Proofs.AlikeEndpoint` does, and collects the causes. The second half is about the
trial.
-/

set_option autoImplicit false

namespace RouteDocs

open Text Tag Synthesis PathTree

/-! ### Properties -/

/-- A key in a mapping of one field is the name of the field, or a key in its value. -/
theorem Value.hasKey_singleton_cases {name : Text} {v : Value} {k : Scalar}
    (h : (Value.map [(.str name, v)]).HasKey k) : k = .str name ∨ v.HasKey k := by
  obtain ⟨entries, hhas, e, he, rfl⟩ := h
  obtain heq | ⟨e', -, heq⟩ | ⟨e', he', hhas⟩ := Value.map_has_cases hhas
  · cases heq
    rw [List.mem_singleton.mp he]
    exact .inl rfl
  · cases heq
  · rw [List.mem_singleton.mp he'] at hhas
    exact .inr ⟨entries, hhas, e, he, rfl⟩

/-- A scalar has no keys. -/
theorem Value.not_hasKey_scalar (s k : Scalar) : ¬ (Value.scalar s).HasKey k := by
  rintro ⟨entries, hhas, -⟩
  cases Value.eq_of_scalar_has hhas

/-- An empty mapping has no keys. -/
theorem Value.not_hasKey_empty (k : Scalar) : ¬ (Value.map []).HasKey k := by
  rintro ⟨entries, hhas, e, he, -⟩
  obtain heq | ⟨e', he', -⟩ | ⟨e', he', -⟩ := Value.map_has_cases hhas
  · cases heq
    cases he
  · cases he'
  · cases he'

/-- What a mapping has under a key is a part of it. -/
theorem Value.map_has_of_get? {entries : List (Scalar × Value)} {key : Scalar} {v : Value}
    (h : Entries.get? key entries = some v) : (Value.map entries).Has v := by
  obtain ⟨k, hmem, -⟩ := Entries.exists_mem_of_get? h
  exact .value hmem (.self v)

/-- A schema of one field is to blame only for its value, unless for its name. -/
theorem Synthesis.SchemaFault.of_singleton {now : Moment} {name : Text} {v : Value} {f : Fault}
    (hname : ∀ segment ∈ splitOn separator name, ¬ IsBadIndex segment)
    (h : SchemaFault now (.map [(.str name, v)]) f) : SchemaFault now v f := by
  cases h with
  | clock h => exact .clock h
  | key hkey h =>
      obtain rfl | hkey := Value.hasKey_singleton_cases hkey
      · cases h
      · exact .key hkey h
  | digits hkey hdisplay hsegment hbad =>
      obtain rfl | hkey := Value.hasKey_singleton_cases hkey
      · -- The name is known to be good.
        cases hdisplay
        exact absurd hbad (hname _ hsegment)
      · exact .digits hkey hdisplay hsegment hbad

/-- An empty schema is to blame only by the clock. -/
theorem Synthesis.SchemaFault.of_empty {now : Moment} {v : Value} {f : Fault}
    (h : SchemaFault now (.map []) f) : SchemaFault now v f := by
  cases h with
  | clock h => exact .clock h
  | key hkey => exact absurd hkey (Value.not_hasKey_empty _)
  | digits hkey => exact absurd hkey (Value.not_hasKey_empty _)

/-- A scalar in the place of a schema is to blame only by the clock. -/
theorem Synthesis.SchemaFault.of_scalar {now : Moment} {s : Scalar} {v : Value} {f : Fault}
    (h : SchemaFault now (.scalar s) f) : SchemaFault now v f := by
  cases h with
  | clock h => exact .clock h
  | key hkey => exact absurd hkey (Value.not_hasKey_scalar s _)
  | digits hkey => exact absurd hkey (Value.not_hasKey_scalar s _)

/-- Why a property of a block becomes no parameter, with the fault. -/
inductive PropertyFault (now : Moment) (whole : Value) : Fault → Prop where
  /-- No example is made of it. -/
  | schema {f : Fault} (h : SchemaFault now whole f) : PropertyFault now whole f
  /-- A part of it is to be shown, and cannot be. -/
  | unshown {w : Value} {f : Fault} (hw : whole.Has w) (h : w.Unshown f) : PropertyFault now whole f

/-- What is wrong with a part of a block is wrong with the block. -/
theorem PropertyFault.of_has {now : Moment} {v w : Value} {f : Fault} (h : PropertyFault now w f)
    (hv : v.Has w) : PropertyFault now v f := by
  cases h with
  | schema h => exact .schema (h.of_has hv)
  | unshown hw h => exact .unshown (hv.trans hw) h

/-- A type name alone is to blame only by the clock. -/
theorem PropertyFault.of_typeName {now : Moment} {s : Scalar} {v : Value} {f : Fault}
    (hs : s = .null ∨ ∃ t, s = .str t)
    (h : PropertyFault now (.map [(.str "type", .scalar s)]) f) : PropertyFault now v f := by
  cases h with
  | schema h =>
      refine .schema (h.of_singleton fun segment hsegment => ?_).of_scalar
      rw [List.mem_singleton.mp (show segment ∈ [Text.ofString "type"] from hsegment)]
      exact nofun
  | unshown hw h =>
      -- Nothing of it is a number, and nothing is nested deeply.
      obtain rfl | ⟨e, he, rfl⟩ | ⟨e, he, hhas⟩ := Value.map_has_cases hw
      · obtain rfl | ⟨t, rfl⟩ := hs <;>
          simp [Value.Unshown, Value.parts, Value.entryParts, Value.flaw?, Value.isOverlong,
            Value.maxLiteralDepth] at h
      · rw [List.mem_singleton.mp he, Value.unshown_scalar_iff] at h
        cases h
      · rw [List.mem_singleton.mp he] at hhas
        rw [Value.eq_of_scalar_has hhas, Value.unshown_scalar_iff] at h
        obtain rfl | ⟨t, rfl⟩ := hs <;> cases h

/-- The failures of a property that becomes no parameter. -/
def FailsByProperty (now : Moment) (whole : Value) (e : Error) : Prop :=
  ∃ f, e = .fault f ∧ PropertyFault now whole f

namespace Endpoint

variable {σ : Type} [RandomSource σ] {now : Moment}

section Property

variable {whole : Value}

/-- A result that shows a part of the block fails only by the block. -/
theorem shown_ends {α : Type} {w : Value} {x : Except Fault α}
    (h : Ends (fun _ => True) w.Unshown x) (hw : whole.Has w) :
    Ends (fun _ => True) (MalformedOr (FailsByProperty now whole)) (x.mapError .fault) :=
  h.mapError fun f hf => .inr ⟨f, rfl, .unshown hw hf⟩

/-- What a property stands for is a schema, which is to blame only where the block is. -/
theorem propertySchema_ends (tag : Text) {name : Scalar} {node : Value}
    (hname : whole.Has (.scalar name)) (hnode : whole.Has node) :
    Ends (fun schema => ∀ f, PropertyFault now (.map schema) f → PropertyFault now whole f)
      (MalformedOr (FailsByProperty now whole)) (propertySchema tag name node) := by
  -- The refusal quotes the name and the value, which may themselves not be shown.
  have hrefused : Ends (fun schema => ∀ f, PropertyFault now (.map schema) f →
      PropertyFault now whole f) (MalformedOr (FailsByProperty now whole))
      (do let name ← name.display.mapError .fault
          let shown ← node.literal.mapError .fault
          .error (.malformedTag tag (.propertyNotSchema name shown))) := by
    refine (shown_ends name.display_ends hname).bind fun _ _ => ?_
    exact (shown_ends node.literal_ends hnode).bind fun _ _ => .error (.inl ⟨_, _, rfl⟩)
  unfold propertySchema
  split
  · exact .ok fun f h => h.of_has hnode
  · exact .ok fun f h => h.of_typeName (.inl rfl)
  · exact .ok fun f h => h.of_typeName (.inr ⟨_, rfl⟩)
  · exact hrefused

variable {schema : List (Scalar × Value)}

/-- The nested schema of a property is to blame only where the block is. -/
theorem nestedSchema_ends (tag : Text) {name : Scalar} (hname : whole.Has (.scalar name))
    (hschema : ∀ f, PropertyFault now (.map schema) f → PropertyFault now whole f) :
    Ends (fun nested => ∀ f, SchemaFault now (.map (nested.getD [])) f → PropertyFault now whole f)
      (MalformedOr (FailsByProperty now whole)) (nestedSchema tag name schema) := by
  have hitems : ∀ segment ∈ splitOn separator "items", ¬ IsBadIndex segment := by
    intro segment hsegment
    rw [List.mem_singleton.mp (show segment ∈ [Text.ofString "items"] from hsegment)]
    exact nofun
  unfold nestedSchema
  split
  · split
    · rename_i items h
      refine .ok fun f hfault => hschema f (.schema ?_)
      exact (hfault.of_singleton hitems).of_has (Value.map_has_of_get? h)
    · exact .ok fun f hfault => .schema hfault.of_empty
  · rename_i entries h
    -- The nested properties are there, and not by default: the default is no mapping.
    refine .ok fun f hfault => hschema f (.schema (hfault.of_has ?_))
    cases hget : Entries.get? (Scalar.str "properties") schema with
    | none =>
        rw [hget] at h
        cases h
    | some v =>
        rw [hget] at h
        exact Value.map_has_of_get? (hget.trans (congrArg some h))
  · exact (shown_ends name.display_ends hname).bind fun _ _ => .error (.inl ⟨_, _, rfl⟩)

/-- What a schema has under a key is shown, or the block is to blame. -/
theorem display_getD_ends
    (hschema : ∀ f, PropertyFault now (.map schema) f → PropertyFault now whole f) (key : Scalar) :
    Ends (fun _ => True) (fun f => FailsByProperty now whole (.fault f))
      ((Entries.get? key schema).getD .null).display := by
  cases hget : Entries.get? key schema with
  | none => exact .ok trivial
  | some v =>
      refine v.display_ends.mono_error fun f hf => ⟨f, rfl, hschema f ?_⟩
      exact .unshown (Value.map_has_of_get? hget) hf

/-- The type of a property is named, or a part of the property is to be shown and cannot be. -/
theorem propertyType_ends
    (hschema : ∀ f, PropertyFault now (.map schema) f → PropertyFault now whole f)
    (nested : Option Properties) :
    Ends (fun _ => True) (fun f => FailsByProperty now whole (.fault f))
      (propertyType schema nested) := by
  unfold propertyType
  dsimp only
  split
  · unfold normalizeTypeValue
    split
    · exact .ok trivial
    · exact (display_getD_ends hschema _).map fun _ _ => trivial
  · split <;> exact .ok trivial

/-- So it is with its description. -/
theorem propertyDescription_ends
    (hschema : ∀ f, PropertyFault now (.map schema) f → PropertyFault now whole f) :
    Ends (fun _ => True) (fun f => FailsByProperty now whole (.fault f))
      (propertyDescription schema) := by
  unfold propertyDescription
  dsimp only
  split
  · exact display_getD_ends hschema _
  · exact .ok trivial

end Property

/-- The failures of a property that stands beside others: those that cost the route only, those
of the block, and that of a name that is no text. -/
def PropertyFails (now : Moment) (properties : Properties) (e : Error) : Prop :=
  FailsByProperty now (.map properties) e ∨
    (e = .invalid ⟨1, .parameter⟩ ∧ ∃ p ∈ properties, Check.text? p.1 = none)

/-- A property becomes a parameter, or costs the route only, or fails by what is wrong with the
block or with a name that is no text. -/
theorem ofProperty_ends (tag location : Text) {properties : Properties} {p : Scalar × Value}
    (hp : p ∈ properties) :
    AlwaysEnds (fun _ => True) (MalformedOr (PropertyFails now properties))
      (ofProperty now tag location p.1 p.2 : Synth σ _) := by
  have hkey : (Value.map properties).Has (.scalar p.1) := .key hp
  have hnode : (Value.map properties).Has p.2 := .value hp (.self p.2)
  have hskips : ∀ e, MalformedOr (FailsByProperty now (.map properties)) e →
      MalformedOr (PropertyFails now properties) e := fun _ => Or.imp_right .inl
  have hfault : ∀ e, FailsByProperty now (.map properties) e →
      MalformedOr (PropertyFails now properties) e := fun _ h => .inr (.inl h)
  refine (AlwaysEnds.lift ((propertySchema_ends tag hkey hnode).mono_error hskips)).bind
    fun schema hschema => ?_
  refine (AlwaysEnds.lift ((nestedSchema_ends tag hkey hschema).mono_error hskips)).bind
    fun nested hnested => ?_
  refine (AlwaysEnds.orThrow (propertyType_ends hschema nested) fun f => hfault _).bind
    fun type _ => ?_
  have hvalue : AlwaysEnds (fun _ => True) (MalformedOr (PropertyFails now properties))
      (valueFor now type nested : Synth σ _) := by
    refine (valueFor_ends type nested).mono (fun _ h => h) ?_
    rintro e ⟨f, rfl, h⟩
    exact hfault _ ⟨f, rfl, hnested f h⟩
  dsimp only
  -- With an example or without one, what follows is the same.
  split
  on_goal 1 => refine AlwaysEnds.bind (.pure (R := fun _ => True) trivial) ?_
  on_goal 2 => refine hvalue.bind ?_
  all_goals
    rintro ⟨v, left⟩ -
    refine (AlwaysEnds.orThrow (propertyDescription_ends hschema) fun f => hfault _).bind
      fun description _ => ?_
    split
    · rename_i htext
      exact .throw (.inr (.inr ⟨rfl, p, hp, htext⟩))
    · exact .pure trivial

/-- So do all the properties of a block, by the step for one of them. -/
theorem ofProperties_ends (tag location : Text) {ps properties : Properties}
    (hps : ∀ p ∈ ps, p ∈ properties) :
    AlwaysEnds (fun _ => True) (MalformedOr (PropertyFails now properties))
      (ofProperties now tag location ps : Synth σ _) := by
  induction ps with
  | nil => exact .pure trivial
  | cons p ps ih =>
      rw [List.forall_mem_cons] at hps
      refine (ofProperty_ends tag location hps.1).bind fun _ _ => ?_
      exact (ih hps.2).bind fun _ _ => .pure trivial

/-! ### Causes -/

/-- Whether a tag describes a parameter. -/
def IsParameterTag (tag : AnnotationTag) : Prop := tag.name = "queryParam" ∨ tag.name = "bodyParam"

/-- Why documenting a route ends a run, with the failure. -/
inductive Cause (now : Moment) (r : Route) : Error → Prop where
  /-- A date is made of a second of the month that has none. -/
  | clock {f : Fault} (h : now.Misses f) : Cause now r (.fault f)
  /-- Path and methods have no UTF-8 form. -/
  | signature (h : ¬ IsPlain (r.uri ++ ":" ++ r.listedMethods.flatten)) :
      Cause now r (.fault .unencodable)
  /-- The text of a parameter tag cannot be read. -/
  | parameterText {tag : AnnotationTag} {f : Fault} (htag : tag ∈ r.tags)
      (hname : IsParameterTag tag) (h : ParameterFault tag.name tag.content f) :
      Cause now r (.fault f)
  /-- No example is made of the schema of a parameter. -/
  | parameterSchema {tag : AnnotationTag} {p : ParameterTag} {f : Fault} (htag : tag ∈ r.tags)
      (hname : IsParameterTag tag) (hparse : parseParameter tag.name tag.content = .ok p)
      (h : SchemaFault now (.map (p.properties.getD [])) f) : Cause now r (.fault f)
  /-- Of properties that stand beside each other, one becomes no parameter. -/
  | property {tag : AnnotationTag} {p : ParameterTag} {f : Fault} (htag : tag ∈ r.tags)
      (hname : IsParameterTag tag) (hparse : parseParameter tag.name tag.content = .ok p)
      (hall : p.name = compositionName)
      (h : PropertyFault now (.map (p.properties.getD [])) f) : Cause now r (.fault f)
  /-- Of properties that stand beside each other, one has a name that is no text. -/
  | propertyName {tag : AnnotationTag} {p : ParameterTag} {e : Scalar × Value}
      (htag : tag ∈ r.tags) (hname : IsParameterTag tag)
      (hparse : parseParameter tag.name tag.content = .ok p) (hall : p.name = compositionName)
      (hmem : e ∈ p.properties.getD []) (htext : Check.text? e.1 = none) :
      Cause now r (.invalid ⟨1, .parameter⟩)
  /-- The text of a response tag cannot be read. -/
  | responseText {tag : AnnotationTag} {f : Fault} (htag : tag ∈ r.tags)
      (hname : tag.name = "response") (h : ResponseFault tag.name tag.content f) :
      Cause now r (.fault f)
  /-- No example is made of the schema of a response. -/
  | responseSchema {tag : AnnotationTag} {q : Response} {f : Fault} (htag : tag ∈ r.tags)
      (hname : tag.name = "response") (hparse : parseResponse tag.name tag.content = .ok q)
      (h : SchemaFault now (.map (q.content.getD [])) f) : Cause now r (.fault f)

variable {r : Route}

/-- A parameter with a synthesised value is not made only by the clock, and only if it is dated. -/
theorem synthesized_fails (now : Moment) (location name : Text) (type : Option Text) :
    AlwaysEnds (fun _ => True)
      (fun e => (∃ f, e = .fault f ∧ now.Misses f) ∧
        normalizeType (type.getD []) = CanonicalType.date.name)
      (synthesized now location name type : Synth σ _) :=
  (synthesize_ends now _ none).bind fun _ _ => .pure trivial

/-- A parameter for which a value is made up: only the clock can fail it. -/
theorem synthesized_ends (location name : Text) (type : Option Text) :
    AlwaysEnds (fun _ => True) (Cause now r) (synthesized now location name type : Synth σ _) := by
  refine (synthesized_fails now location name type).mono (fun _ h => h) ?_
  rintro e ⟨⟨f, rfl, hmiss⟩, -⟩
  exact .clock hmiss

/-- The parameters of an address, one for each name in it. A name that is no argument of the
handler costs the route only. -/
theorem pathParameters_ends (arguments : List (Text × Argument)) (title : Text)
    (names : List Text) :
    AlwaysEnds (fun _ => True) (SkipsOr (Cause now r))
      (pathParameters now arguments title names : Synth σ _) := by
  induction names with
  | nil => exact .pure trivial
  | cons name rest ih =>
      rw [pathParameters]
      split
      · exact .throw (.inl rfl)
      · refine ((synthesized_ends _ _ _).mono (fun _ h => h) fun _ h => .inr h).bind fun p _ => ?_
        exact ih.bind fun ps _ => .pure trivial

/-- The parameters of input fields, whose values are made up. -/
theorem fieldParameters_ends (fields : List Argument) :
    AlwaysEnds (fun _ => True) (Cause now r) (fieldParameters now fields : Synth σ _) := by
  induction fields with
  | nil => exact .pure trivial
  | cons field rest ih =>
      refine (synthesized_ends _ _ _).bind fun p _ => ?_
      exact ih.bind fun ps _ => .pure trivial

/-- The parameters of one tag. What it fails by is wrong with its text or with its block. -/
theorem ofTag_ends (location : Text) {tag : AnnotationTag} (htag : tag ∈ r.tags)
    (hname : IsParameterTag tag) :
    AlwaysEnds (fun _ => True) (MalformedOr (Cause now r)) (ofTag now location tag : Synth σ _) := by
  refine (AlwaysEnds.lift ((parseParameter_ends tag.name tag.content).with_self.mono_error
    fun e => Or.imp_right ?_)).bind ?_
  · rintro ⟨f, rfl, hf⟩
    exact .parameterText htag hname hf
  rintro p ⟨hparse, -⟩
  have hschema : ∀ e, FailsBySchema now (.map (p.properties.getD [])) e → Cause now r e := by
    rintro e ⟨f, rfl, h⟩
    exact .parameterSchema htag hname hparse h
  split
  · rename_i hall
    refine (ofProperties_ends tag.name location (fun e he => he)).mono (fun _ h => h)
      fun e => Or.imp_right ?_
    -- Only properties that stand beside each other become parameters of their own, with names.
    rintro (⟨f, rfl, h⟩ | ⟨rfl, property, hmem, htext⟩)
    · exact .property htag hname hparse hall h
    · exact .propertyName htag hname hparse hall hmem htext
  · have hvalue : AlwaysEnds (fun _ => True) (MalformedOr (Cause now r))
        (valueFor now p.type p.properties : Synth σ _) :=
      (valueFor_ends p.type p.properties).mono (fun _ h => h) fun e h => .inr (hschema e h)
    dsimp only
    split
    · exact AlwaysEnds.bind (.pure (R := fun _ => True) trivial) fun _ _ => .pure trivial
    · exact hvalue.bind fun _ _ => .pure trivial

/-- The parameters of all tags of one name. -/
theorem tagParameters_ends {tagName : Text} (hname : ∀ tag : AnnotationTag, tag.name = tagName →
    IsParameterTag tag) (location : Text) {tags : List AnnotationTag}
    (htags : ∀ tag ∈ tags, tag ∈ r.tags) :
    AlwaysEnds (fun _ => True) (MalformedOr (Cause now r))
      (tagParameters now tagName location tags : Synth σ _) := by
  induction tags with
  | nil => exact .pure trivial
  | cons tag rest ih =>
      rw [List.forall_mem_cons] at htags
      rw [tagParameters]
      split
      · rename_i h
        refine (ofTag_ends location htags.1 (hname tag h)).bind fun ps _ => ?_
        exact (ih htags.2).bind fun qs _ => .pure trivial
      · exact ih htags.2

/-- The body parameters of a route come from its input fields or from its tags. -/
theorem bodyParametersOf_ends (r : Route) :
    AlwaysEnds (fun _ => True) (MalformedOr (Cause now r)) (bodyParametersOf now r : Synth σ _) := by
  rw [bodyParametersOf]
  split
  · exact tagParameters_ends (fun _ h => .inr h) _ fun _ h => h
  · exact (fieldParameters_ends _).mono (fun _ h => h) fun _ h => .inr h

/-- The responses of the response tags, each with an example body that is given or put together. -/
theorem responsesOf_ends {tags : List AnnotationTag} (htags : ∀ tag ∈ tags, tag ∈ r.tags) :
    AlwaysEnds (fun _ => True) (MalformedOr (Cause now r)) (responsesOf now tags : Synth σ _) := by
  induction tags with
  | nil => exact .pure trivial
  | cons tag rest ih =>
      rw [List.forall_mem_cons] at htags
      rw [responsesOf]
      split
      · rename_i hname
        refine (AlwaysEnds.lift ((parseResponse_ends tag.name tag.content).with_self.mono_error
          fun e => Or.imp_right ?_)).bind ?_
        · rintro ⟨f, rfl, hf⟩
          exact .responseText htags.1 hname hf
        rintro parsed ⟨hparse, -⟩
        refine AlwaysEnds.bind (R := fun _ => True) ?_ fun q _ => ?_
        -- Only a content with entries gets an example.
        · unfold withSample
          split
          · exact .pure trivial
          split
          · exact .pure trivial
          split
          · rename_i e es hcontent
            refine ((compositeOfEntries_ends (e :: es)).mono (fun _ h => h) ?_).bind
              fun _ _ => .pure trivial
            rintro e' ⟨f, rfl, h⟩
            refine .inr (.responseSchema htags.1 hname hparse ?_)
            rwa [hcontent]
          · exact .pure trivial
        · exact (ih htags.2).bind fun rs _ => .pure trivial
      · exact ih htags.2

/-- The responses of the return types, which draw nothing. They can only be malformed. -/
theorem returnsOf_ends (tags : List AnnotationTag) :
    Ends (fun _ => True) IsMalformed (returnsOf tags) := by
  induction tags with
  | nil => exact .ok trivial
  | cons tag rest ih =>
      rw [returnsOf]
      split
      · refine (parseReturn_ends tag.name tag.content).bind fun r _ => ?_
        exact ih.bind fun rs _ => .ok trivial
      · exact ih

/-- The responses of a route come from its response tags, or else from its return types. -/
theorem allResponses_ends (r : Route) :
    AlwaysEnds (fun _ => True) (MalformedOr (Cause now r))
      (allResponses now r.tags : Synth σ _) := by
  refine (responsesOf_ends fun _ h => h).bind fun rs _ => ?_
  split
  · refine AlwaysEnds.lift (((returnsOf_ends r.tags).mono_error fun _ h => .inl h).map
      fun _ _ => trivial)
  · exact .pure trivial

/-- A route has an identifier exactly if its path and methods can be encoded. -/
theorem signatureId_ends (uri : Text) (methods : List Text) :
    Ends (fun _ => True)
      (fun f => f = .unencodable ∧ ¬ IsPlain (uri ++ ":" ++ methods.flatten))
      (Route.signatureId uri methods) := by
  unfold Route.signatureId
  split
  · exact .ok trivial
  · rename_i h
    refine .error ⟨rfl, fun hplain => ?_⟩
    rw [Digest.md5Hex?, Option.map_eq_none_iff] at h
    have hutf8 := isSome_utf8?_of_isPlain hplain
    rw [h] at hutf8
    cases hutf8

/-- Documenting a route whose path parameters are known. -/
def ofPathParameters (now : Moment) (defaultGroup : Text) (r : Route)
    (path : List (Scalar × Parameter)) : Synth σ (Option Endpoint) := do
  let query ← tagParameters now "queryParam" "query" r.tags
  let id ← Synthesis.orThrow (Route.signatureId r.uri r.listedMethods)
  let body ← bodyParametersOf now r
  let responses ← allResponses now r.tags
  pure (some {
    id := id
    group := r.groupOr defaultGroup
    title := r.title
    description := if r.longDescription.isEmpty then r.shortDescription else r.longDescription
    methods := r.listedMethods
    uri := r.uri
    parameters := byName (path ++ query)
    bodyParameters := byName body
    authenticated := r.isAuthenticated
    responses := responses
    headers := r.sentHeaders })

/-- The path parameters come first, by the arguments of the handler. -/
theorem ofRoute_eq (now : Moment) (defaultGroup : Text) {r : Route} (htags : r.tags ≠ []) :
    (ofRoute now defaultGroup r : Synth σ _)
      = pathParameters now (Entries.ofList (r.arguments.map fun a => (a.name, a))) r.title
          (Template.variableNames r.uri) >>= ofPathParameters now defaultGroup r := by
  rw [ofRoute, if_neg (by simpa using htags)]
  rfl

/-- Behind the path parameters, a failure is that of a malformed tag, or it has a cause. -/
theorem ofPathParameters_ends (now : Moment) (defaultGroup : Text) (r : Route)
    (path : List (Scalar × Parameter)) :
    AlwaysEnds (fun _ => True) (MalformedOr (Cause now r))
      (ofPathParameters now defaultGroup r path : Synth σ _) := by
  refine (tagParameters_ends (fun _ h => .inl h) _ fun _ h => h).bind fun query _ => ?_
  refine (AlwaysEnds.orThrow (signatureId_ends r.uri r.listedMethods) ?_).bind fun id _ => ?_
  · rintro f ⟨rfl, h⟩
    exact .inr (.signature h)
  refine (bodyParametersOf_ends r).bind fun body _ => ?_
  exact (allResponses_ends r).bind fun responses _ => .pure trivial

/-- Documenting a route ends in an endpoint, in none, in a failure that costs the route only,
or in a failure with one of the causes. -/
theorem ofRoute_ends (now : Moment) (defaultGroup : Text) (r : Route) :
    AlwaysEnds (fun _ => True) (SkipsOr (Cause now r))
      (ofRoute now defaultGroup r : Synth σ _) := by
  by_cases htags : r.tags = []
  · rw [ofRoute, if_pos (by simpa using htags)]
    exact .pure trivial
  · rw [ofRoute_eq now defaultGroup htags]
    refine (pathParameters_ends _ _ _).bind fun path _ => ?_
    exact (ofPathParameters_ends now defaultGroup r path).mono (fun _ h => h) fun _ h => h.skipsOr

end Endpoint

namespace Generation

open Endpoint

variable {σ : Type} [RandomSource σ] {now : Moment} {defaultGroup : Text}

/-! ### The trial of a route -/

/-- The trial has an excuse: its own second may have no date. -/
def worstExcuse (now : Moment) : Excuse where
  left _ := False
  right e := ∃ f, e = .fault f ∧ now.drawn now.worstSecond = .error f

/-- Draws from any source agree with those of the trial, unless the second of the trial has no
date. -/
theorem drawsAgree_worstSecond (σ : Type) [RandomSource σ] (now : Moment) :
    DrawsAgree σ (Pinned now.worstSecond) (worstExcuse now) AnyStates
      (Drawn σ (Pinned now.worstSecond) now now) now now := by
  refine drawsAgree_of fun s t => ?_
  rw [drawnSeconds_pinned, Nat.min_eq_left now.worstSecond_le]
  cases hworst : now.drawn now.worstSecond with
  | error f => exact .inr (.inl ⟨f, ⟨f, rfl, hworst⟩, rfl⟩)
  | ok m =>
      obtain ⟨a, ha⟩ := Moment.exists_drawn_of_worstSecond hworst (drawnSeconds_le now s)
      rw [ha]
      exact .inr (.inr (.ok trivial))

/-- In the trial of a route, which draws the worst second of the month, the route is
documented or left out. -/
def Contained (now : Moment) (defaultGroup : Text) (r : Route) : Prop :=
  ∀ e, (ofRoute now defaultGroup r : Synth (Pinned now.worstSecond) _).outcome ⟨⟩ = .error e →
    e.skipsRoute = true

/-- From any state a contained route gives what its trial gives, but for what is drawn. -/
theorem agree_of_contained {r : Route} (h : Contained now defaultGroup r) (s : σ) :
    Agree (Option.Rel (Endpoint.Alike (Drawn σ (Pinned now.worstSecond) now now)
        (PropertiesAlike (Drawn σ (Pinned now.worstSecond) now now))))
      ((ofRoute now defaultGroup r).outcome s)
      ((ofRoute now defaultGroup r : Synth (Pinned now.worstSecond) _).outcome ⟨⟩) := by
  obtain ⟨e, he, -⟩ | ⟨e, ⟨f, rfl, -⟩, htrial⟩ | ⟨hagree, -⟩ :=
    ofRoute_coupled (drawsAgree_worstSecond σ now) defaultGroup r s ⟨⟩ trivial
  · exact he.elim
  · -- A trial that the clock broke is no trial of a contained route.
    cases h _ htrial
  · exact hagree

/-- A contained route that fails in a run costs itself only. -/
theorem skipsRoute_of_contained {r : Route} (h : Contained now defaultGroup r) {s : σ} {e : Error}
    (he : (ofRoute now defaultGroup r).outcome s = .error e) : e.skipsRoute = true := by
  have hagree := agree_of_contained h s
  rw [he] at hagree
  exact h e hagree.eq_of_error

/-! ### Runs -/

/-- Contained routes are documented or left out, one after the other, from any state. -/
theorem returns_of_contained {routes : List Route}
    (h : ∀ r ∈ routes, Contained now defaultGroup r) (s : σ) :
    ∃ es, (reportOf now defaultGroup routes s).2 = .ok es := by
  induction routes generalizing s with
  | nil => exact ⟨[], rfl⟩
  | cons r rest ih =>
      rw [List.forall_mem_cons] at h
      exact returns_cons_iff.mpr ⟨fun e he => skipsRoute_of_contained h.1 he, ih h.2 _⟩

/-- A run of the worst second that returns is a trial of all its routes: its source has one
state only, so each route leaves it to the next. -/
theorem contained_of_returns {routes : List Route}
    (h : ∃ es, (reportOf now defaultGroup routes (⟨⟩ : Pinned now.worstSecond)).2 = .ok es) :
    ∀ r ∈ routes, Contained now defaultGroup r := by
  induction routes with
  | nil => simp
  | cons r rest ih =>
      obtain ⟨hr, hrest⟩ := returns_cons_iff.mp h
      exact List.forall_mem_cons.mpr ⟨hr, ih hrest⟩

/-- A failure that ends a run has a cause in one of the routes. -/
theorem exists_cause_of_error {routes : List Route} {s : σ} {e : Error}
    (h : (reportOf now defaultGroup routes s).2 = .error e) :
    ∃ r ∈ routes, ¬ Contained now defaultGroup r ∧ Cause now r e := by
  induction routes generalizing s with
  | nil => cases h
  | cons r rest ih =>
      have hrest : (reportOf now defaultGroup rest ((ofRoute now defaultGroup r).after s)).2
          = .error e → ∃ q ∈ r :: rest, ¬ Contained now defaultGroup q ∧ Cause now q e := by
        intro h
        obtain ⟨q, hq, hcause⟩ := ih h
        exact ⟨q, List.mem_cons_of_mem _ hq, hcause⟩
      have hends := ofRoute_ends now defaultGroup r s
      -- The failure is that of the first route, or that of the run over the others.
      rw [reportOf_cons] at h
      cases hout : (ofRoute now defaultGroup r).outcome s with
      | error e' =>
          rw [hout] at h hends
          dsimp only at h
          split at h
          · exact hrest h
          · rename_i hskip
            cases h
            refine ⟨r, List.mem_cons_self, fun hcontained => ?_, ?_⟩
            · exact hskip (skipsRoute_of_contained hcontained hout)
            · exact hends.of_error.resolve_left hskip
      | ok found =>
          rw [hout] at h
          cases found with
          | none => exact hrest h
          | some endpoint =>
              change (reportOf now defaultGroup rest _).2.map (endpoint :: ·) = .error e at h
              cases hothers : (reportOf now defaultGroup rest
                  ((ofRoute now defaultGroup r).after s)).2 with
              | error e' =>
                  rw [hothers] at h hrest
                  exact hrest h
              | ok es =>
                  rw [hothers] at h
                  cases h

/-- A run over a list of routes returns from every state of every source exactly when each
route is contained, which one trial of it tells. Where a run does not return, its failure has
a cause in a route that is not contained. -/
theorem documentRoutes_boundary (now : Moment) (defaultGroup : Text) (routes : List Route) :
    ((∀ (σ : Type) [RandomSource σ] (s : σ),
        ∃ es, ((documentRoutes now defaultGroup routes).run s).1.2 = .ok es)
      ↔ ∀ r ∈ routes, Contained now defaultGroup r) ∧
    ∀ (σ : Type) [RandomSource σ] (s : σ) (e : Error),
      ((documentRoutes now defaultGroup routes).run s).1.2 = .error e →
        ∃ r ∈ routes, ¬ Contained now defaultGroup r ∧ Cause now r e := by
  refine ⟨⟨fun h => ?_, fun h σ _ s => ?_⟩, fun σ _ s e he => ?_⟩
  · exact contained_of_returns (h (Pinned now.worstSecond) ⟨⟩)
  · exact returns_of_contained h s
  · exact exists_cause_of_error he

/-! ### A date that is in no calendar -/

/-- A body parameter in whose property block a date has a thirteenth month. -/
def badDateTag : AnnotationTag :=
  { name := "bodyParam", content := "order object\nproperties:\n  due: 2024-13-01" }

/-- A route with this tag alone. -/
def badDateRoute : Route :=
  { uri := "orders", methods := ["POST"], handler := "Orders@store", tags := [badDateTag] }

/-- The tag cannot be read, by a fault. -/
theorem parseParameter_badDateTag :
    parseParameter badDateTag.name badDateTag.content = .error (.fault .badValue) := by
  decide +kernel

/-- The route fails from every state and at every moment, before anything is drawn. -/
theorem outcome_badDateRoute (now : Moment) (defaultGroup : Text) (s : σ) :
    (ofRoute now defaultGroup badDateRoute).outcome s = .error (.fault .badValue) := by
  have htag : (ofTag now "body" badDateTag : Synth σ _) = throw (.fault .badValue) := by
    rw [ofTag, parseParameter_badDateTag]
    rfl
  have hbody : (bodyParametersOf now badDateRoute : Synth σ _) = throw (.fault .badValue) := by
    have hname : badDateTag.name = Text.ofString "bodyParam" := rfl
    show tagParameters now "bodyParam" "body" [badDateTag] = _
    rw [tagParameters, if_pos hname, htag]
    rfl
  obtain ⟨id, hid⟩ : ∃ id, Route.signatureId badDateRoute.uri badDateRoute.listedMethods = .ok id :=
    ⟨_, rfl⟩
  rw [ofRoute, if_neg (by decide)]
  dsimp only
  rw [hid, hbody]
  rfl

/-- At an ordinary time, the route with the bad date ends the run before anything is reported,
and the route after it is not documented. Alone that one is. -/
theorem documentRoutes_badDate :
    ((documentRoutes noon [] [badDateRoute, datedRoute]).run (Congruential.ofSeed 0)).1
        = ([], .error (.fault .badValue)) ∧
      ∃ e, ((documentRoutes noon [] [datedRoute]).run (Congruential.ofSeed 0)).1
        = ([processed datedRoute], .ok [e]) := by
  constructor
  · show reportOf noon [] [badDateRoute, datedRoute] (Congruential.ofSeed 0) = _
    rw [reportOf_cons, outcome_badDateRoute]
    rfl
  · show ∃ e, reportOf noon [] [datedRoute] (Congruential.ofSeed 0) = _
    obtain ⟨id, hid⟩ := reportOf_datedRoute noon [] (Congruential.ofSeed 0)
    obtain ⟨m, hm⟩ := exists_drawn_noon (drawnSeconds_le noon (Congruential.ofSeed 0))
    rw [hm] at hid
    exact ⟨_, hid⟩

end Generation

end RouteDocs
