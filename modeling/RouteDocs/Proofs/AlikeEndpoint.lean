import RouteDocs.Proofs.SchemaDraws

/-!
# `RouteDocs.Proofs.AlikeEndpoint`: endpoints that differ by what was drawn

A route is documented by resolving its parameters and responses one after the other, with
draws on the way. `Endpoint.Alike D S` relates two endpoints that agree in everything but
example values, where leaves may be related by `D`, and in nested schemas, which `S` relates.
Two choices of `S` are used. Equality says that nothing of a nested schema was drawn, the
examples that it gives included. `PropertiesAlike D` lets these examples differ, as a draw may
be written into one of them.

`ofRoute_coupled` says that two runs over one route give endpoints that are alike, or no
endpoint, or fail by the same error, if `S` relates what is left of each block of the route
(`AnnotationTag.HasBlock`). Each step of the resolution has its own coupling, in the order in
which `Endpoint.ofRoute` takes them.

The relation is handled as `Alike` is: `Endpoint.Alike.of_forall` takes it from a family of
relations to one, and `Endpoint.Alike.join` relates endpoints that are both like a third.
-/

set_option autoImplicit false

namespace RouteDocs

open Synthesis Tag

/-- A relation between nested schemas, if there are any. -/
abbrev SchemaRelation := Option Properties → Option Properties → Prop

/-- Two parameters that agree but for the leaves of the example value, which `D` may relate,
and the nested schemas, which `S` relates. -/
structure Parameter.Alike (D : Scalar → Scalar → Prop) (S : SchemaRelation)
    (p q : Parameter) : Prop where
  name : p.name = q.name
  type : p.type = q.type
  location : p.location = q.location
  required : p.required = q.required
  description : p.description = q.description
  value : RouteDocs.Alike D D .sample p.value q.value
  properties : S p.properties q.properties

/-- Two responses that agree but for the leaves of the example body, which `D` may relate, and
the content, which `S` relates. -/
structure Response.Alike (D : Scalar → Scalar → Prop) (S : SchemaRelation)
    (r q : Response) : Prop where
  status : r.status = q.status
  description : r.description = q.description
  content : S r.content q.content
  sample : Option.Rel (RouteDocs.Alike D D .sample) r.sample q.sample
  schemaRef : r.schemaRef = q.schemaRef

/-- Two endpoints that agree but for what `D` relates in example values and `S` in nested
schemas. Their parameters and responses stand under the same names, in the same order. -/
structure Endpoint.Alike (D : Scalar → Scalar → Prop) (S : SchemaRelation)
    (e f : Endpoint) : Prop where
  id : e.id = f.id
  group : e.group = f.group
  title : e.title = f.title
  description : e.description = f.description
  methods : e.methods = f.methods
  uri : e.uri = f.uri
  parameters : Entries.Matched (fun _ => Parameter.Alike D S) e.parameters f.parameters
  bodyParameters :
    Entries.Matched (fun _ => Parameter.Alike D S) e.bodyParameters f.bodyParameters
  authenticated : e.authenticated = f.authenticated
  responses : Entries.Matched (fun _ => Response.Alike D S) e.responses f.responses
  headers : e.headers = f.headers

/-! ### From one relation to another -/

section
variable {ι : Type} [Nonempty ι] {F : ι → Scalar → Scalar → Prop} {T : ι → SchemaRelation}
  {D D' D'' : Scalar → Scalar → Prop} {S S' S'' : SchemaRelation}

/-- Parameters that are alike in each of a family of ways. -/
theorem Parameter.Alike.of_forall (hD : ∀ s t, (∀ i, s = t ∨ F i s t) → s = t ∨ D s t)
    (hS : ∀ a b, (∀ i, T i a b) → S a b) {p q : Parameter}
    (h : ∀ i, Parameter.Alike (F i) (T i) p q) : Parameter.Alike D S p q :=
  let one := h (Classical.arbitrary ι)
  { name := one.name
    type := one.type
    location := one.location
    required := one.required
    description := one.description
    value := .forall_place hD hD fun i => (h i).value
    properties := hS _ _ fun i => (h i).properties }

/-- Responses that are alike in each of a family of ways. -/
theorem Response.Alike.of_forall (hD : ∀ s t, (∀ i, s = t ∨ F i s t) → s = t ∨ D s t)
    (hS : ∀ a b, (∀ i, T i a b) → S a b) {r q : Response}
    (h : ∀ i, Response.Alike (F i) (T i) r q) : Response.Alike D S r q :=
  let one := h (Classical.arbitrary ι)
  { status := one.status
    description := one.description
    content := hS _ _ fun i => (h i).content
    sample :=
      Entries.optionRel_of_forall (fun _ _ h => .forall_place hD hD h) fun i => (h i).sample
    schemaRef := one.schemaRef }

/-- Endpoints that are alike in each of a family of ways are alike in one that follows from all
of them, for example values and for nested schemas. -/
theorem Endpoint.Alike.of_forall (hD : ∀ s t, (∀ i, s = t ∨ F i s t) → s = t ∨ D s t)
    (hS : ∀ a b, (∀ i, T i a b) → S a b) {e f : Endpoint}
    (h : ∀ i, Endpoint.Alike (F i) (T i) e f) : Endpoint.Alike D S e f :=
  let one := h (Classical.arbitrary ι)
  { id := one.id
    group := one.group
    title := one.title
    description := one.description
    methods := one.methods
    uri := one.uri
    parameters := .of_forall (fun _ _ _ => .of_forall hD hS) fun i => (h i).parameters
    bodyParameters := .of_forall (fun _ _ _ => .of_forall hD hS) fun i => (h i).bodyParameters
    authenticated := one.authenticated
    responses := .of_forall (fun _ _ _ => .of_forall hD hS) fun i => (h i).responses
    headers := one.headers }

/-- Weaker relations hold too. -/
theorem Endpoint.Alike.mono (hD : ∀ s t, D s t → D' s t) (hS : ∀ a b, S a b → S' a b)
    {e f : Endpoint} (h : Endpoint.Alike D S e f) : Endpoint.Alike D' S' e f :=
  .of_forall (ι := Unit) (F := fun _ => D) (T := fun _ => S)
    (fun s t h => (h ()).imp_right (hD s t)) (fun a b h => hS a b (h ())) fun _ => h

variable (hD : ∀ s t u, s = u ∨ D s u → t = u ∨ D' t u → s = t ∨ D'' s t)
  (hS : ∀ a b c, S a c → S' b c → S'' a b)

include hD hS

/-- Parameters that are both like a third are like each other. -/
theorem Parameter.Alike.join {p q r : Parameter} (h : Parameter.Alike D S p r)
    (h' : Parameter.Alike D' S' q r) : Parameter.Alike D'' S'' p q where
  name := h.name.trans h'.name.symm
  type := h.type.trans h'.type.symm
  location := h.location.trans h'.location.symm
  required := h.required.trans h'.required.symm
  description := h.description.trans h'.description.symm
  value := .join hD hD r.value h.value h'.value
  properties := hS _ _ _ h.properties h'.properties

/-- Responses that are both like a third are like each other. -/
theorem Response.Alike.join {p q r : Response} (h : Response.Alike D S p r)
    (h' : Response.Alike D' S' q r) : Response.Alike D'' S'' p q where
  status := h.status.trans h'.status.symm
  description := h.description.trans h'.description.symm
  content := hS _ _ _ h.content h'.content
  sample := Entries.optionRel_join (fun _ _ u h h' => .join hD hD u h h') h.sample h'.sample
  schemaRef := h.schemaRef.trans h'.schemaRef.symm

/-- Endpoints that are both like a third are like each other. -/
theorem Endpoint.Alike.join {e f g : Endpoint} (h : Endpoint.Alike D S e g)
    (h' : Endpoint.Alike D' S' f g) : Endpoint.Alike D'' S'' e f where
  id := h.id.trans h'.id.symm
  group := h.group.trans h'.group.symm
  title := h.title.trans h'.title.symm
  description := h.description.trans h'.description.symm
  methods := h.methods.trans h'.methods.symm
  uri := h.uri.trans h'.uri.symm
  parameters := h.parameters.join h'.parameters fun _ _ _ _ h h' => .join hD hS h h'
  bodyParameters := h.bodyParameters.join h'.bodyParameters fun _ _ _ _ h h' => .join hD hS h h'
  authenticated := h.authenticated.trans h'.authenticated.symm
  responses := h.responses.join h'.responses fun _ _ _ _ h h' => .join hD hS h h'
  headers := h.headers.trans h'.headers.symm

end

section
variable {D : Scalar → Scalar → Prop} {S : SchemaRelation}

/-- A parameter is like itself. -/
theorem Parameter.Alike.refl (hS : ∀ o, S o o) (p : Parameter) : Parameter.Alike D S p p where
  name := rfl
  type := rfl
  location := rfl
  required := rfl
  description := rfl
  value := .refl .sample p.value
  properties := hS p.properties

/-- A response is like itself. -/
theorem Response.Alike.refl (hS : ∀ o, S o o) (r : Response) : Response.Alike D S r r where
  status := rfl
  description := rfl
  content := hS r.content
  sample := by
    cases r.sample with
    | none => exact .none
    | some v => exact .some (.refl .sample v)
  schemaRef := rfl

/-- An endpoint is like itself. -/
theorem Endpoint.Alike.refl (hS : ∀ o, S o o) (e : Endpoint) : Endpoint.Alike D S e e where
  id := rfl
  group := rfl
  title := rfl
  description := rfl
  methods := rfl
  uri := rfl
  parameters := List.forall₂_same.mpr fun p _ => ⟨rfl, .refl hS p.2⟩
  bodyParameters := List.forall₂_same.mpr fun p _ => ⟨rfl, .refl hS p.2⟩
  authenticated := rfl
  responses := List.forall₂_same.mpr fun r _ => ⟨rfl, .refl hS r.2⟩
  headers := rfl

/-- Endpoints with the same nested schemas are alike the other way round, whatever their
examples are. -/
theorem Endpoint.Alike.symm {e f : Endpoint} (h : Endpoint.Alike D (fun o o' => o = o') e f) :
    Endpoint.Alike (fun _ _ => True) (fun o o' => o = o') f e :=
  .join (fun _ _ _ _ _ => .inr trivial) (fun _ _ _ h h' => h.trans h'.symm)
    (.refl (D := D) (fun _ => rfl) f) h

end

/-! ### The blocks of a tag -/

namespace AnnotationTag

/-- The nested schemas that a tag brings when it is read as a parameter: its block, or for a
composition the blocks of the properties that stand beside each other. -/
inductive HasParameterBlock (tag : AnnotationTag) : Properties → Prop where
  | own {p : ParameterTag} {es : Properties}
      (hparse : parseParameter tag.name tag.content = .ok p) (hblock : p.properties = some es) :
      HasParameterBlock tag es
  | member {p : ParameterTag} {e : Scalar × Value} {schema : List (Scalar × Value)}
      {es : Properties} (hparse : parseParameter tag.name tag.content = .ok p)
      (hmember : e ∈ p.properties.getD [])
      (hschema : Endpoint.propertySchema tag.name e.1 e.2 = .ok schema)
      (hblock : Endpoint.nestedSchema tag.name e.1 schema = .ok (some es)) :
      HasParameterBlock tag es

/-- The nested schemas that a tag brings to its route, as a parameter or as a response. -/
inductive HasBlock (tag : AnnotationTag) : Properties → Prop where
  | parameter {es : Properties} (hname : tag.name = "queryParam" ∨ tag.name = "bodyParam")
      (hblock : tag.HasParameterBlock es) : HasBlock tag es
  | response {r : Response} {es : Properties} (hname : tag.name = "response")
      (hparse : parseResponse tag.name tag.content = .ok r) (hblock : r.content = some es) :
      HasBlock tag es

end AnnotationTag

namespace Endpoint

variable {σ τ : Type} [RandomSource σ] [RandomSource τ] {E : Excuse} {Q : σ → τ → Prop}
  {D : Scalar → Scalar → Prop} {S : SchemaRelation} {now now' : Moment}

/-! ### Parameters -/

section
variable (hdraws : DrawsAgree σ τ E Q D now now') (hS : ∀ o, S o o)

include hdraws hS

/-- A parameter whose type alone is known. It has no nested schema. -/
theorem synthesized_coupled (location name : Text) (type : Option Text) :
    Coupled E Q (Parameter.Alike D S) (synthesized now location name type : Synth σ _)
      (synthesized now' location name type : Synth τ _) := by
  refine (hdraws _ none).bind fun v w hvw => ?_
  exact .pure ⟨rfl, rfl, rfl, rfl, rfl, hvw.alike, hS none⟩

/-- Path variables. Whether each of them names an argument is not decided by a draw. -/
theorem pathParameters_coupled (arguments : List (Text × Argument)) (title : Text)
    (names : List Text) :
    Coupled E Q (Entries.Matched fun _ => Parameter.Alike D S)
      (pathParameters now arguments title names : Synth σ _)
      (pathParameters now' arguments title names : Synth τ _) := by
  induction names with
  | nil => exact .pure .nil
  | cons name rest ih =>
      rw [pathParameters, pathParameters]
      split
      · exact .throw _
      · refine (synthesized_coupled hdraws hS _ _ _).bind fun p q hpq => ?_
        refine ih.bind fun ps qs hps => ?_
        exact .pure (.cons ⟨rfl, hpq⟩ hps)

/-- The fields of a structured input. -/
theorem fieldParameters_coupled (fields : List Argument) :
    Coupled E Q (Entries.Matched fun _ => Parameter.Alike D S)
      (fieldParameters now fields : Synth σ _) (fieldParameters now' fields : Synth τ _) := by
  induction fields with
  | nil => exact .pure .nil
  | cons field rest ih =>
      refine (synthesized_coupled hdraws hS _ _ _).bind fun p q hpq => ?_
      refine ih.bind fun ps qs hps => ?_
      exact .pure (.cons ⟨rfl, hpq⟩ hps)

/-- The example of a property of a block: the one that is given, without any draw, or one that
is made for it. -/
theorem ofProperty_coupled (tag location : Text) (name : Scalar) (node : Value)
    (hblocks : ∀ schema es, propertySchema tag name node = .ok schema →
      nestedSchema tag name schema = .ok (some es) → BlockAgrees σ τ E Q D S now now' es) :
    Coupled E Q (fun a b => a.1 = b.1 ∧ Parameter.Alike D S a.2 b.2)
      (ofProperty now tag location name node : Synth σ _)
      (ofProperty now' tag location name node : Synth τ _) := by
  refine (Coupled.lift (.itself _)).bind ?_
  rintro schema _ ⟨rfl, hschema⟩
  refine (Coupled.lift (.itself _)).bind ?_
  rintro nested _ ⟨rfl, hnested⟩
  refine (Coupled.orThrow (.same _)).bind ?_
  rintro type _ rfl
  have hgiven (v : Value) : ValueAlike D S (v, nested) (v, nested) := ⟨.refl .sample v, hS nested⟩
  have hmade := valueFor_coupled hdraws hS type nested fun es hes =>
    hblocks schema es hschema (hes ▸ hnested)
  dsimp only
  -- An example that is given makes no draw; what follows is the same in both cases.
  split
  on_goal 1 => refine (Coupled.pure (hgiven _)).bind ?_
  on_goal 2 => refine hmade.bind ?_
  all_goals
    rintro ⟨v, left⟩ ⟨w, left'⟩ ⟨hvw, hleft⟩
    refine (Coupled.orThrow (.same _)).bind ?_
    rintro description _ rfl
    split
    · exact .throw _
    · exact .pure ⟨rfl, rfl, rfl, rfl, rfl, rfl, hvw, hleft⟩

/-- The properties of a composition, one after the other. -/
theorem ofProperties_coupled (tag location : Text) (properties : Properties)
    (hblocks : ∀ e ∈ properties, ∀ schema es, propertySchema tag e.1 e.2 = .ok schema →
      nestedSchema tag e.1 schema = .ok (some es) → BlockAgrees σ τ E Q D S now now' es) :
    Coupled E Q (Entries.Matched fun _ => Parameter.Alike D S)
      (ofProperties now tag location properties : Synth σ _)
      (ofProperties now' tag location properties : Synth τ _) := by
  induction properties with
  | nil => exact .pure .nil
  | cons e rest ih =>
      obtain ⟨hfirst, hrest⟩ := List.forall_mem_cons.mp hblocks
      refine (ofProperty_coupled hdraws hS tag location e.1 e.2 hfirst).bind fun p q hpq => ?_
      refine (ih hrest).bind fun ps qs hps => ?_
      exact .pure (.cons hpq hps)

/-- The parameters of one tag. -/
theorem ofTag_coupled (location : Text) (tag : AnnotationTag)
    (hblocks : ∀ es, tag.HasParameterBlock es → BlockAgrees σ τ E Q D S now now' es) :
    Coupled E Q (Entries.Matched fun _ => Parameter.Alike D S)
      (ofTag now location tag : Synth σ _) (ofTag now' location tag : Synth τ _) := by
  refine (Coupled.lift (.itself _)).bind ?_
  rintro p _ ⟨rfl, hparse⟩
  split
  · exact ofProperties_coupled hdraws hS tag.name location _ fun e he schema es hschema hes =>
      hblocks es (.member hparse he hschema hes)
  have hgiven (v : Value) : ValueAlike D S (v, p.properties) (v, p.properties) :=
    ⟨.refl .sample v, hS p.properties⟩
  have hmade := valueFor_coupled hdraws hS p.type p.properties fun es hes =>
    hblocks es (.own hparse hes)
  dsimp only
  split
  on_goal 1 => refine (Coupled.pure (hgiven _)).bind ?_
  on_goal 2 => refine hmade.bind ?_
  all_goals
    rintro ⟨v, left⟩ ⟨w, left'⟩ ⟨hvw, hleft⟩
    exact .pure (.cons ⟨rfl, rfl, rfl, rfl, rfl, rfl, hvw, hleft⟩ .nil)

/-- The parameters of the tags with one name. -/
theorem tagParameters_coupled (tagName location : Text) (tags : List AnnotationTag)
    (hblocks : ∀ tag ∈ tags, tag.name = tagName → ∀ es, tag.HasParameterBlock es →
      BlockAgrees σ τ E Q D S now now' es) :
    Coupled E Q (Entries.Matched fun _ => Parameter.Alike D S)
      (tagParameters now tagName location tags : Synth σ _)
      (tagParameters now' tagName location tags : Synth τ _) := by
  induction tags with
  | nil => exact .pure .nil
  | cons tag rest ih =>
      obtain ⟨hfirst, hrest⟩ := List.forall_mem_cons.mp hblocks
      rw [tagParameters, tagParameters]
      split
      · rename_i hname
        refine (ofTag_coupled hdraws hS location tag (hfirst hname)).bind fun ps ps' hps => ?_
        refine (ih hrest).bind fun qs qs' hqs => ?_
        exact .pure (List.rel_append hps hqs)
      · exact ih hrest

/-- The body parameters, from tags or from a structured input. -/
theorem bodyParametersOf_coupled (r : Route)
    (hblocks : ∀ tag ∈ r.tags, ∀ es, tag.HasBlock es → BlockAgrees σ τ E Q D S now now' es) :
    Coupled E Q (Entries.Matched fun _ => Parameter.Alike D S)
      (bodyParametersOf now r : Synth σ _) (bodyParametersOf now' r : Synth τ _) := by
  rw [bodyParametersOf, bodyParametersOf]
  split
  · exact tagParameters_coupled hdraws hS _ _ _ fun tag htag hname es hes =>
      hblocks tag htag es (.parameter (.inr hname) hes)
  · exact fieldParameters_coupled hdraws hS _

omit hdraws hS in
/-- Parameters under their names. Names do not depend on draws, so the same ones are replaced
by later ones. -/
theorem byName_matched {ps qs : List (Scalar × Parameter)}
    (h : Entries.Matched (fun _ => Parameter.Alike D S) ps qs) :
    Entries.Matched (fun _ => Parameter.Alike D S) (byName ps) (byName qs) := by
  -- Twice, as the program does it: by the keys as written, then by their names.
  refine Entries.Matched.ofList (Entries.respects_const _) ?_
  refine List.rel_map (fun p q hpq => ?_) (h.ofList (Entries.respects_const _))
  exact ⟨hpq.2.name, hpq.2⟩

/-! ### Responses -/

omit hdraws in
/-- The example body of a response. One that the author gives is kept without a draw. -/
theorem withSample_coupled (r : Response)
    (hblocks : ∀ es, r.content = some es → BlockAgrees σ τ E Q D S now now' es) :
    Coupled E Q (Response.Alike D S) (withSample now r : Synth σ _)
      (withSample now' r : Synth τ _) := by
  rw [withSample, withSample]
  split
  · exact .pure ⟨rfl, rfl, hS none, .none, rfl⟩
  split
  · exact .pure (.refl hS r)
  split
  · rename_i e es hes
    refine (hblocks (e :: es) hes).bind fun a b hab => ?_
    exact .pure ⟨rfl, rfl, hab.2, .some hab.1, rfl⟩
  · exact .pure ⟨rfl, rfl, hS r.content, .some (.refl .sample _), rfl⟩

omit hdraws in
/-- The responses of response tags. -/
theorem responsesOf_coupled (tags : List AnnotationTag)
    (hblocks : ∀ tag ∈ tags, ∀ es, tag.HasBlock es → BlockAgrees σ τ E Q D S now now' es) :
    Coupled E Q (Entries.Matched fun _ => Response.Alike D S)
      (responsesOf now tags : Synth σ _) (responsesOf now' tags : Synth τ _) := by
  induction tags with
  | nil => exact .pure .nil
  | cons tag rest ih =>
      obtain ⟨hfirst, hrest⟩ := List.forall_mem_cons.mp hblocks
      rw [responsesOf, responsesOf]
      split
      · rename_i hname
        refine (Coupled.lift (.itself _)).bind ?_
        rintro parsed _ ⟨rfl, hparse⟩
        have hsample := withSample_coupled hS parsed fun es hes =>
          hfirst es (.response hname hparse hes)
        refine hsample.bind fun r q hrq => ?_
        refine (ih hrest).bind fun rs qs hrs => ?_
        exact .pure (.cons ⟨hrq.status, hrq⟩ hrs)
      · exact ih hrest

omit hdraws in
/-- All responses of a route. Those of return tags have nothing that is drawn. -/
theorem allResponses_coupled (tags : List AnnotationTag)
    (hblocks : ∀ tag ∈ tags, ∀ es, tag.HasBlock es → BlockAgrees σ τ E Q D S now now' es) :
    Coupled E Q (Entries.Matched fun _ => Response.Alike D S)
      (allResponses now tags : Synth σ _) (allResponses now' tags : Synth τ _) := by
  refine (responsesOf_coupled hS tags hblocks).bind fun rs qs hrs => ?_
  -- Whether the return tags count depends on how many response tags there are.
  cases hrs with
  | nil =>
      refine (Coupled.lift (.same _)).mono ?_
      rintro rs _ rfl
      exact List.forall₂_same.mpr fun r _ => ⟨rfl, .refl hS r.2⟩
  | cons h hs =>
      exact .pure (Entries.Matched.ofList (Entries.respects_const _) (List.Forall₂.cons h hs))

/-! ### The whole -/

/-- Two runs over one route give endpoints that are alike, or none, or fail by one error, if
`S` relates what is left of each block of the route. -/
theorem ofRoute_coupled_of (defaultGroup : Text) (r : Route)
    (hblocks : ∀ tag ∈ r.tags, ∀ es, tag.HasBlock es → BlockAgrees σ τ E Q D S now now' es) :
    Coupled E Q (Option.Rel (Endpoint.Alike D S))
      (ofRoute now defaultGroup r : Synth σ _) (ofRoute now' defaultGroup r : Synth τ _) := by
  have hparameters := tagParameters_coupled hdraws hS "queryParam" "query" r.tags
    fun tag htag hname es hes => hblocks tag htag es (.parameter (.inl hname) hes)
  -- The steps of the two runs in turn. What no step draws for is the same in both.
  rw [ofRoute, ofRoute]
  split
  · exact .pure .none
  refine (pathParameters_coupled hdraws hS _ _ _).bind fun path path' hpath => ?_
  refine hparameters.bind fun query query' hquery => ?_
  refine (Coupled.orThrow (.same _)).bind ?_
  rintro id _ rfl
  refine (bodyParametersOf_coupled hdraws hS r hblocks).bind fun body body' hbody => ?_
  refine (allResponses_coupled hS r.tags hblocks).bind fun responses responses' hresponses => ?_
  exact .pure (.some {
    id := rfl
    group := rfl
    title := rfl
    description := rfl
    methods := rfl
    uri := rfl
    parameters := byName_matched (List.rel_append hpath hquery)
    bodyParameters := byName_matched hbody
    authenticated := rfl
    responses := hresponses
    headers := rfl })

end

/-- Any two runs over one route give endpoints that are alike, but for the examples in their
nested schemas. -/
theorem ofRoute_coupled (hdraws : DrawsAgree σ τ E Q D now now') (defaultGroup : Text) (r : Route) :
    Coupled E Q (Option.Rel (Endpoint.Alike D (PropertiesAlike D)))
      (ofRoute now defaultGroup r : Synth σ _) (ofRoute now' defaultGroup r : Synth τ _) :=
  ofRoute_coupled_of hdraws PropertiesAlike.refl defaultGroup r fun _ _ es _ =>
    compositeOfEntries_coupled hdraws es

end Endpoint

end RouteDocs
