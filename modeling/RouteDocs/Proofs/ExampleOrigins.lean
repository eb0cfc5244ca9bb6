import RouteDocs.Proofs.AlikeEndpoint
import RouteDocs.Proofs.AuthorExamples

/-!
# `RouteDocs.Proofs.ExampleOrigins`: where the examples of an endpoint come from

Every parameter of an endpoint has an example value, and most responses have one. The tags of
the route say which of them the author gives, which are made up for a type, and which are put
together from a nested schema, where some of the fields may give an example again. `Origin` is
one of these ways, and `Route.origin?` reads it off the route, under the key where the endpoint
has the example (`ExampleKey`). Nothing is drawn for that.

`origin_gives` says that the endpoint of a run has each example by its origin. Two endpoints of
one route are compared by `Endpoint.SameGiven`: each example was given in both, or made up in
both, or put together in both with the same at every field whose example is given. The trials
of a route decide whether all its endpoints are the same in this way (`sameGiven_of_trials`).
-/

set_option autoImplicit false

namespace RouteDocs

open Text Synthesis Tag Endpoint

/-! ### Origins -/

/-- Where an example value comes from. -/
inductive Origin where
  /-- The author gives it. -/
  | given (v : Value)
  /-- It is made up for a type. The schema stands for the value of a list or a mapping. -/
  | made (type : Text) (schema : Option Value)
  /-- It is put together from a nested schema. -/
  | block (es : Properties)
  /-- The same, as the value of a list. -/
  | elements (es : Properties)

namespace Origin

/-- The example of a nested schema as the value of a list: itself, or a list of it alone. -/
def asList : Value → Value
  | .list items => .list items
  | .scalar s => .list [.scalar s]
  | .pair a b => .list [.pair a b]
  | .set members => .list [.set members]
  | .map entries => .list [.map entries]
  | .loop c => .list [.loop c]

/-- The values that an origin gives, by the draws of a source. -/
inductive Gives (σ : Type) [RandomSource σ] (now : Moment) : Origin → Value → Prop where
  | given (v : Value) : Gives σ now (.given v) v
  | made {type : Text} {schema : Option Value} {v : Value} (s : σ)
      (h : (synthesize now type schema).outcome s = .ok v) : Gives σ now (.made type schema) v
  | block {es : Properties} {v : Value} (h : ComposedBy σ now es v) : Gives σ now (.block es) v
  | elements {es : Properties} {v : Value} (h : ComposedBy σ now es v) :
      Gives σ now (.elements es) (asList v)

/-- Two values that an origin gives, by the draws of two sources, with the same in both wherever
the author gives an example. -/
inductive Same (σ τ : Type) [RandomSource σ] [RandomSource τ] (now : Moment) :
    Origin → Value → Value → Prop where
  /-- A value that is given is the same. -/
  | given (v : Value) : Same σ τ now (.given v) v v
  /-- Values that are made up may differ. -/
  | made {type : Text} {schema : Option Value} {v w : Value} (s : σ) (t : τ)
      (hv : (synthesize now type schema).outcome s = .ok v)
      (hw : (synthesize now type schema).outcome t = .ok w) : Same σ τ now (.made type schema) v w
  /-- Trees have the same at the fields whose example is given. -/
  | block {es : Properties} {v w : Value} (hv : ComposedBy σ now es v) (hw : ComposedBy τ now es w)
      (hsame : SameAtGiven es v w) : Same σ τ now (.block es) v w
  /-- So have trees in lists. -/
  | elements {es : Properties} {v w : Value} (hv : ComposedBy σ now es v)
      (hw : ComposedBy τ now es w) (hsame : SameAtGiven es v w) :
      Same σ τ now (.elements es) (asList v) (asList w)

section
variable {σ τ : Type} [RandomSource σ] [RandomSource τ] {now : Moment} {o : Origin} {v w : Value}

/-- What trials have in common at given examples, all values of an origin have in common. -/
theorem same_of_trials {trial : Nat → Value} (htrial : ∀ m, o.Gives (Pinned m) now (trial m))
    (hsame : ∀ m n, o.Same (Pinned m) (Pinned n) now (trial m) (trial n)) (hv : o.Gives σ now v)
    (hw : o.Gives τ now w) : o.Same σ τ now v w := by
  cases hv with
  -- What is given does not come from a run at all.
  | given v =>
      cases hw
      exact .given v
  | made s hs =>
      cases hw with
      | made t ht => exact .made s t hs ht
  | @block es _ hv =>
      cases hw with
      | block hw =>
          have hcomposed : ∀ m, ComposedBy (Pinned m) now es (trial m) := by
            intro m
            cases htrial m with
            | block h => exact h
          refine .block hv hw (sameAtGiven_of_trials hcomposed (fun m n => ?_) hv hw)
          cases hsame m n with
          | block _ _ h => exact h
  | @elements es v hv =>
      cases hw with
      | elements hw =>
          have hinner : ∀ m, ∃ x, ComposedBy (Pinned m) now es x ∧ trial m = asList x := by
            intro m
            generalize htree : trial m = x
            cases htree ▸ htrial m with
            | elements h => exact ⟨_, h, rfl⟩
          choose inner hcomposed hlist using hinner
          refine .elements hv hw (sameAtGiven_of_trials hcomposed (fun m n => ?_) hv hw)
          -- A trial has one tree only, so the trees that are compared are these.
          generalize hm : trial m = x, hn : trial n = y
          cases hm ▸ hn ▸ hsame m n with
          | elements hx hy h =>
              rwa [(hcomposed m).eq_of_pinned hx, (hcomposed n).eq_of_pinned hy]

/-- Values that are both the same as a trial's are the same as each other. -/
theorem Same.join {m : Nat} {u : Value} (hv : o.Same (Pinned m) σ now u v)
    (hw : o.Same (Pinned m) τ now u w) : o.Same σ τ now v w := by
  cases hv with
  | given v =>
      cases hw
      exact .given v
  | made _ s _ hs =>
      cases hw with
      | made _ t _ ht => exact .made s t hs ht
  | block hu hv hsame =>
      cases hw with
      | block hu' hw hsame' => exact .block hv hw (hsame.symm.trans hsame')
  | @elements es x y hx hy hsame =>
      -- The trial has one tree, and it is in both lists.
      generalize hlist : asList x = u at hw
      cases hw with
      | elements hx' hw hsame' =>
          obtain rfl := hx.eq_of_pinned hx'
          exact .elements hy hw (hsame.symm.trans hsame')

end

end Origin

/-! ### The origins of a route -/

/-- Where an endpoint has an example. -/
inductive ExampleKey where
  /-- The value of a path or query parameter. -/
  | parameter (name : Text)
  /-- The value of a body parameter. -/
  | body (name : Text)
  /-- The body of a response. -/
  | response (status : Int)

/-- The example of an endpoint under a key. -/
def Endpoint.example? (e : Endpoint) : ExampleKey → Option Value
  | .parameter name => (Entries.get? name e.parameters).map (·.value)
  | .body name => (Entries.get? name e.bodyParameters).map (·.value)
  | .response status => (Entries.get? status e.responses).bind (·.sample)

namespace Origin

/-- The origin of a parameter's example, from its type and its nested schema. -/
def ofProperties (type : Text) (properties : Option Properties) : Origin :=
  match properties with
  | some (e :: es) =>
    match Entries.get? (.str "$ref") (e :: es) with
    | some ref => .made type (some (.object [("$ref", ref)]))
    | none =>
      match CanonicalType.ofName? type with
      | some .object => .block (e :: es)
      | some .array => .elements (e :: es)
      | _ => .made type none
  | _ => .made type none

/-- The origin of the example of a variable or field with this type. -/
def ofType (type : Option Text) : Origin := .made (normalizeType (type.getD [])) none

/-- The origin of the example of a property that becomes a parameter, with the name of that
parameter. -/
def ofProperty (tag : Text) (name : Scalar) (node : Value) : Except Error (Scalar × Text × Origin) :=
  do
  let schema ← propertySchema tag name node
  let nested ← nestedSchema tag name schema
  let type ← (propertyType schema nested).mapError .fault
  return (name, (Check.text? name).getD [], match Entries.get? (.str "example") schema with
    | some v => .given v
    | none => ofProperties type nested)

/-- The origins of the examples that a parameter tag brings. -/
def ofTag (tag : AnnotationTag) : Except Error (List (Scalar × Text × Origin)) := do
  let p ← parseParameter tag.name tag.content
  if p.name = compositionName then
    (p.properties.getD []).mapM fun e => ofProperty tag.name e.1 e.2
  else
    return [(.str p.name, p.name, match p.sample with
      | some s => .given (.scalar s)
      | none => ofProperties p.type p.properties)]

/-- The origins of the examples that the tags with a name bring. -/
def ofTags (tagName : Text) : List AnnotationTag → Except Error (List (Scalar × Text × Origin))
  | [] => .ok []
  | tag :: rest =>
    if tag.name = tagName then do return (← ofTag tag) ++ (← ofTags tagName rest)
    else ofTags tagName rest

/-- Origins under the names of their parameters. As for the parameters, the later of two with
one key or name counts. -/
def byName (os : List (Scalar × Text × Origin)) : List (Text × Origin) :=
  Entries.ofList ((Entries.ofList os).map (·.2))

/-- The origin of the example body of a response, if it has one. -/
def ofResponse (r : Response) : Option Origin :=
  if r.status = 204 then none
  else match r.sample with
    | some v => some (.given v)
    | none =>
      match r.content with
      | some (e :: es) => some (.block (e :: es))
      | _ => some (.given (.map []))

/-- The origins of the example bodies that response tags bring. -/
def ofResponses : List AnnotationTag → Except Error (List (Int × Option Origin))
  | [] => .ok []
  | tag :: rest =>
    if tag.name = "response" then do
      let parsed ← parseResponse tag.name tag.content
      return (parsed.status, ofResponse parsed) :: (← ofResponses rest)
    else ofResponses rest

end Origin

namespace Route

/-- The origins of the examples of path and query parameters. -/
def parameterOrigins (r : Route) : Except Error (List (Text × Origin)) := do
  let arguments := Entries.ofList (r.arguments.map fun a => (a.name, a))
  let path := (Template.variableNames r.uri).map fun name =>
    (Scalar.str name, name, Origin.ofType ((Entries.get? name arguments).bind (·.type)))
  return Origin.byName (path ++ (← Origin.ofTags "queryParam" r.tags))

/-- The origins of the examples of body parameters. -/
def bodyOrigins (r : Route) : Except Error (List (Text × Origin)) :=
  match r.inputFields with
  | none => (Origin.ofTags "bodyParam" r.tags).map Origin.byName
  | some fields => .ok (Origin.byName (fields.map fun f => (.str f.name, f.name, .ofType f.type)))

/-- The origins of the example bodies of responses. A response of a return tag has none. -/
def responseOrigins (r : Route) : Except Error (List (Int × Option Origin)) := do
  match ← Origin.ofResponses r.tags with
  | [] => return Entries.ofList ((← returnsOf r.tags).map fun q => (q.1, q.2.sample.map .given))
  | os => return Entries.ofList os

/-- The origin of the example that an endpoint of the route has under a key. -/
def origin? (r : Route) : ExampleKey → Option Origin
  | .parameter name => r.parameterOrigins.toOption.bind (Entries.get? name)
  | .body name => r.bodyOrigins.toOption.bind (Entries.get? name)
  | .response status => r.responseOrigins.toOption.bind fun os => (Entries.get? status os).join

end Route

/-! ### Origins and examples -/

section
variable {σ : Type} [RandomSource σ] {now : Moment}

/-- A parameter that has its name and its example from an origin. -/
abbrev FromOrigin (σ : Type) [RandomSource σ] (now : Moment) (o : Text × Origin) (p : Parameter) :
    Prop :=
  o.1 = p.name ∧ o.2.Gives σ now p.value

namespace Origin

/-- The value of a parameter comes from its type and its nested schema. -/
theorem gives_valueFor {type : Text} {properties left : Option Properties} {s : σ} {v : Value}
    (h : (valueFor now type properties).outcome s = .ok (v, left)) :
    (ofProperties type properties).Gives σ now v := by
  -- In all cases but two the value is made up for the type alone.
  have hplain : ∀ schema, (do return (← synthesize now type schema, properties) :
      Synth σ _).outcome s = .ok (v, left) → (Origin.made type schema).Gives σ now v := by
    intro schema h
    obtain ⟨a, ha, h⟩ := Synth.outcome_bind_eq_ok_iff.mp h
    cases h
    exact .made s ha
  unfold valueFor at h
  unfold ofProperties
  obtain _ | _ | ⟨e, es⟩ := properties
  · exact hplain none h
  · exact hplain none h
  dsimp only at h ⊢
  cases href : Entries.get? (Scalar.str "$ref") (e :: es) with
  | some ref =>
      rw [href] at h
      exact hplain _ h
  | none =>
      rw [href] at h
      dsimp only at h ⊢
      cases htype : CanonicalType.ofName? type with
      | none =>
          rw [htype] at h
          exact hplain none h
      | some canonical =>
          rw [htype] at h
          -- Only for objects and lists is the nested schema looked at.
          cases canonical with
          | object =>
              obtain ⟨⟨a, entries⟩, ha, h⟩ := Synth.outcome_bind_eq_ok_iff.mp h
              cases h
              exact .block ⟨s, entries, ha⟩
          | array =>
              obtain ⟨⟨a, entries⟩, ha, h⟩ := Synth.outcome_bind_eq_ok_iff.mp h
              have hcomposed : ComposedBy σ now (e :: es) a := ⟨s, entries, ha⟩
              cases a <;> cases h <;> exact .elements hcomposed
          | _ => exact hplain none h

/-- A property that becomes a parameter has its example from the property. -/
theorem gives_ofProperty {tag location : Text} {name : Scalar} {node : Value} {s : σ}
    {p : Scalar × Parameter}
    (h : (Endpoint.ofProperty now tag location name node).outcome s = .ok p) :
    ∃ o, ofProperty tag name node = .ok (p.1, o) ∧ FromOrigin σ now o p.2 := by
  obtain ⟨schema, hschema, h⟩ := Synth.outcome_bind_eq_ok_iff.mp h
  obtain ⟨nested, hnested, h⟩ := Synth.outcome_bind_eq_ok_iff.mp h
  obtain ⟨type, htype, h⟩ := Synth.outcome_bind_eq_ok_iff.mp h
  rw [Synth.outcome_lift] at hschema hnested
  rw [Synth.outcome_orThrow] at htype
  -- Reading a property draws nothing, so the origin reads the same schema and type.
  have horigin : ofProperty tag name node = .ok (name, (Check.text? name).getD [],
      match Entries.get? (.str "example") schema with
      | some v => .given v
      | none => ofProperties type nested) := by
    simp only [ofProperty, hschema, hnested, htype, bind, Except.bind]
    rfl
  rw [horigin]
  -- The value is given or made up, and then the key is looked at.
  cases hexample : Entries.get? (.str "example") schema
  all_goals
    rw [hexample] at h
    obtain ⟨⟨v, left⟩, hvalue, h⟩ := Synth.outcome_bind_eq_ok_iff.mp h
    obtain ⟨description, -, h⟩ := Synth.outcome_bind_eq_ok_iff.mp h
    split at h
    · cases h
    · rename_i text hname
      cases h
      refine ⟨_, rfl, by rw [hname]; rfl, ?_⟩
      first
        | exact gives_valueFor hvalue
        | cases hvalue; exact .given _

/-- The properties of a composition have their examples from the properties. -/
theorem gives_ofProperties {tag location : Text} {properties : Properties} {s : σ}
    {ps : List (Scalar × Parameter)}
    (h : (Endpoint.ofProperties now tag location properties).outcome s = .ok ps) :
    ∃ os, (properties.mapM fun e => ofProperty tag e.1 e.2) = .ok os ∧
      Entries.Matched (fun _ => FromOrigin σ now) os ps := by
  induction properties generalizing s ps with
  | nil =>
      cases h
      exact ⟨[], rfl, .nil⟩
  | cons e rest ih =>
      obtain ⟨q, hq, h⟩ := Synth.outcome_bind_eq_ok_iff.mp h
      obtain ⟨qs, hqs, h⟩ := Synth.outcome_bind_eq_ok_iff.mp h
      cases h
      obtain ⟨o, ho, hfrom⟩ := gives_ofProperty hq
      obtain ⟨os, hos, hmatched⟩ := ih hqs
      refine ⟨(q.1, o) :: os, ?_, .cons ⟨rfl, hfrom⟩ hmatched⟩
      rw [List.mapM_cons, ho, hos]
      rfl

/-- A parameter tag brings the parameters whose examples it has the origins of. -/
theorem gives_ofTag {location : Text} {tag : AnnotationTag} {s : σ}
    {ps : List (Scalar × Parameter)} (h : (Endpoint.ofTag now location tag).outcome s = .ok ps) :
    ∃ os, ofTag tag = .ok os ∧ Entries.Matched (fun _ => FromOrigin σ now) os ps := by
  obtain ⟨p, hp, h⟩ := Synth.outcome_bind_eq_ok_iff.mp h
  rw [Synth.outcome_lift] at hp
  simp only [ofTag, hp, bind, Except.bind]
  split at h
  -- A composition brings a parameter for each of its properties, any other tag brings one.
  · rename_i hall
    rw [if_pos hall]
    exact gives_ofProperties h
  · rename_i hname
    rw [if_neg hname]
    refine ⟨_, rfl, ?_⟩
    cases hsample : p.sample with
    | some x =>
        rw [hsample] at h
        cases h
        exact .cons ⟨rfl, rfl, .given _⟩ .nil
    | none =>
        rw [hsample] at h
        obtain ⟨⟨v, left⟩, hvalue, h⟩ := Synth.outcome_bind_eq_ok_iff.mp h
        cases h
        exact .cons ⟨rfl, rfl, gives_valueFor hvalue⟩ .nil

/-- So do the tags with one name, one after the other. -/
theorem gives_ofTags {tagName location : Text} {tags : List AnnotationTag} {s : σ}
    {ps : List (Scalar × Parameter)}
    (h : (tagParameters now tagName location tags).outcome s = .ok ps) :
    ∃ os, ofTags tagName tags = .ok os ∧ Entries.Matched (fun _ => FromOrigin σ now) os ps := by
  induction tags generalizing s ps with
  | nil =>
      cases h
      exact ⟨[], rfl, .nil⟩
  | cons tag rest ih =>
      rw [tagParameters] at h
      rw [ofTags]
      split at h
      · rename_i hname
        obtain ⟨qs, hqs, h⟩ := Synth.outcome_bind_eq_ok_iff.mp h
        obtain ⟨others, hothers, h⟩ := Synth.outcome_bind_eq_ok_iff.mp h
        cases h
        obtain ⟨os, hos, hmatched⟩ := gives_ofTag hqs
        obtain ⟨os', hos', hmatched'⟩ := ih hothers
        refine ⟨os ++ os', ?_, List.rel_append hmatched hmatched'⟩
        rw [if_pos hname, hos, hos']
        rfl
      · rename_i hname
        rw [if_neg hname]
        exact ih h

/-- Path parameters have values of the types of their arguments. -/
theorem gives_pathParameters {arguments : List (Text × Argument)} {title : Text}
    {names : List Text} {s : σ} {ps : List (Scalar × Parameter)}
    (h : (pathParameters now arguments title names).outcome s = .ok ps) :
    Entries.Matched (fun _ => FromOrigin σ now) (names.map fun name =>
      (Scalar.str name, name, ofType ((Entries.get? name arguments).bind (·.type)))) ps := by
  induction names generalizing s ps with
  | nil =>
      cases h
      exact .nil
  | cons name rest ih =>
      rw [pathParameters] at h
      split at h
      · cases h
      -- A variable without an argument ends the run.
      · rename_i a ha
        obtain ⟨p, hp, h⟩ := Synth.outcome_bind_eq_ok_iff.mp h
        obtain ⟨qs, hqs, h⟩ := Synth.outcome_bind_eq_ok_iff.mp h
        obtain ⟨v, hv, hp⟩ := Synth.outcome_bind_eq_ok_iff.mp hp
        cases h
        cases hp
        refine .cons ⟨rfl, rfl, ?_⟩ (ih hqs)
        show Gives σ now (ofType ((Entries.get? name arguments).bind _)) v
        rw [ha]
        exact .made s hv

/-- Fields of a structured input have values of their types. -/
theorem gives_fieldParameters {fields : List Argument} {s : σ} {ps : List (Scalar × Parameter)}
    (h : (fieldParameters now fields).outcome s = .ok ps) :
    Entries.Matched (fun _ => FromOrigin σ now)
      (fields.map fun f => (Scalar.str f.name, f.name, ofType f.type)) ps := by
  induction fields generalizing s ps with
  | nil =>
      cases h
      exact .nil
  | cons field rest ih =>
      obtain ⟨p, hp, h⟩ := Synth.outcome_bind_eq_ok_iff.mp h
      obtain ⟨qs, hqs, h⟩ := Synth.outcome_bind_eq_ok_iff.mp h
      obtain ⟨v, hv, hp⟩ := Synth.outcome_bind_eq_ok_iff.mp hp
      cases h
      cases hp
      exact .cons ⟨rfl, rfl, .made s hv⟩ (ih hqs)

omit [RandomSource σ] in
/-- Under their names, the same parameters replace earlier ones as origins do. -/
theorem matched_byName [RandomSource σ] {os : List (Scalar × Text × Origin)}
    {ps : List (Scalar × Parameter)} (h : Entries.Matched (fun _ => FromOrigin σ now) os ps) :
    Entries.Matched (fun _ o p => o.Gives σ now p.value) (byName os) (Endpoint.byName ps) := by
  -- Two tables, one over the other, are made in the same way of both.
  refine Entries.Matched.ofList (Entries.respects_const _) ?_
  exact List.rel_map (fun _ _ hfrom => hfrom.2) (h.ofList (Entries.respects_const _))

/-- A response has its example body from the tag, or none. -/
theorem gives_ofResponse {parsed r : Response} {s : σ}
    (h : (withSample now parsed).outcome s = .ok r) :
    r.status = parsed.status ∧
      Option.Rel (fun o v => o.Gives σ now v) (ofResponse parsed) r.sample := by
  unfold withSample at h
  unfold ofResponse
  split at h
  · rename_i hstatus
    cases h
    rw [if_pos hstatus]
    exact ⟨rfl, .none⟩
  rename_i hstatus
  rw [if_neg hstatus]
  cases hsample : parsed.sample with
  | some x =>
      rw [hsample] at h
      cases h
      rw [hsample]
      exact ⟨rfl, .some (.given x)⟩
  | none =>
      rw [hsample] at h
      dsimp only at h ⊢
      rcases hcontent : parsed.content with _ | _ | ⟨e, es⟩
      · rw [hcontent] at h
        cases h
        exact ⟨rfl, .some (.given _)⟩
      · rw [hcontent] at h
        cases h
        exact ⟨rfl, .some (.given _)⟩
      · rw [hcontent] at h
        obtain ⟨⟨v, left⟩, hv, h⟩ := Synth.outcome_bind_eq_ok_iff.mp h
        cases h
        exact ⟨rfl, .some (.block ⟨s, left, hv⟩)⟩

/-- Response tags bring the responses whose example bodies they have the origins of. -/
theorem gives_ofResponses {tags : List AnnotationTag} {s : σ} {rs : List (Int × Response)}
    (h : (responsesOf now tags).outcome s = .ok rs) :
    ∃ os, ofResponses tags = .ok os ∧ Entries.Matched (fun _ o r =>
      Option.Rel (fun o v => Gives σ now o v) o r.sample) os rs := by
  induction tags generalizing s rs with
  | nil =>
      cases h
      exact ⟨[], rfl, .nil⟩
  | cons tag rest ih =>
      rw [responsesOf] at h
      rw [ofResponses]
      split at h
      · rename_i hname
        obtain ⟨parsed, hparse, h⟩ := Synth.outcome_bind_eq_ok_iff.mp h
        obtain ⟨r, hr, h⟩ := Synth.outcome_bind_eq_ok_iff.mp h
        obtain ⟨others, hothers, h⟩ := Synth.outcome_bind_eq_ok_iff.mp h
        cases h
        rw [Synth.outcome_lift] at hparse
        obtain ⟨hstatus, hsample⟩ := gives_ofResponse hr
        obtain ⟨os, hos, hmatched⟩ := ih hothers
        refine ⟨(parsed.status, ofResponse parsed) :: os, ?_, .cons ⟨hstatus.symm, hsample⟩ hmatched⟩
        rw [if_pos hname, hparse, hos]
        rfl
      · rename_i hname
        rw [if_neg hname]
        exact ih h

/-- The responses of a route, of whichever tags, have their example bodies by their origins. -/
theorem gives_allResponses {r : Route} {s : σ} {rs : List (Int × Response)}
    (h : (allResponses now r.tags).outcome s = .ok rs) :
    ∃ os, r.responseOrigins = .ok os ∧ Entries.Matched (fun _ o r =>
      Option.Rel (fun o v => Gives σ now o v) o r.sample) os rs := by
  obtain ⟨qs, hqs, h⟩ := Synth.outcome_bind_eq_ok_iff.mp h
  obtain ⟨os, hos, hmatched⟩ := gives_ofResponses hqs
  simp only [Route.responseOrigins, hos, bind, Except.bind]
  cases hmatched with
  -- Only without a response tag is the return tag looked at.
  | nil =>
      rw [Synth.outcome_lift] at h
      obtain ⟨returned, hreturned, rfl⟩ := exists_of_map_eq_ok h
      rw [hreturned]
      refine ⟨_, rfl, Entries.Matched.ofList (Entries.respects_const _) ?_⟩
      refine List.forall₂_map_left_iff.mpr (List.forall₂_same.mpr fun q _ => ⟨rfl, ?_⟩)
      show Option.Rel (fun o v => Gives σ now o v) (q.2.sample.map given) q.2.sample
      cases q.2.sample with
      | none => exact .none
      | some v => exact .some (.given v)
  | cons hfirst hrest =>
      cases h
      exact ⟨_, rfl, Entries.Matched.ofList (Entries.respects_const _) (.cons hfirst hrest)⟩

end Origin

/-- The example of a parameter, among parameters that have theirs by these origins. -/
theorem example_gives {os : List (Scalar × Text × Origin)} {ps : List (Scalar × Parameter)}
    (h : Entries.Matched (fun _ => FromOrigin σ now) os ps) (name : Text) :
    Option.Rel (fun o v => o.Gives σ now v) (Entries.get? name (Origin.byName os))
      ((Entries.get? name (byName ps)).map (·.value)) := by
  have hget := (Origin.matched_byName h).get? (Entries.respects_const _) name
  generalize Entries.get? name (Origin.byName os) = a, Entries.get? name (byName ps) = b at hget ⊢
  cases hget with
  | none => exact .none
  | some h => exact .some h

/-- The endpoint of a run has each of its examples by the origin that the route says. -/
theorem origin_gives {defaultGroup : Text} {r : Route} {s : σ} {e : Endpoint}
    (h : (ofRoute now defaultGroup r).outcome s = .ok (some e)) (key : ExampleKey) :
    Option.Rel (fun o v => o.Gives σ now v) (r.origin? key) (e.example? key) := by
  rw [ofRoute] at h
  split at h
  · cases h
  obtain ⟨path, hpath, h⟩ := Synth.outcome_bind_eq_ok_iff.mp h
  obtain ⟨query, hquery, h⟩ := Synth.outcome_bind_eq_ok_iff.mp h
  obtain ⟨id, -, h⟩ := Synth.outcome_bind_eq_ok_iff.mp h
  obtain ⟨body, hbody, h⟩ := Synth.outcome_bind_eq_ok_iff.mp h
  obtain ⟨responses, hresponses, h⟩ := Synth.outcome_bind_eq_ok_iff.mp h
  cases h
  -- Each of the three kinds of example has the parts of the run that it comes from.
  cases key with
  | parameter name =>
      obtain ⟨os, hos, hmatched⟩ := Origin.gives_ofTags hquery
      rw [Route.origin?, Route.parameterOrigins, hos]
      exact example_gives (List.rel_append (Origin.gives_pathParameters hpath) hmatched) name
  | body name =>
      rw [bodyParametersOf] at hbody
      rw [Route.origin?, Route.bodyOrigins]
      cases hfields : r.inputFields with
      | none =>
          rw [hfields] at hbody
          obtain ⟨os, hos, hmatched⟩ := Origin.gives_ofTags hbody
          rw [hos]
          exact example_gives hmatched name
      | some fields =>
          rw [hfields] at hbody
          exact example_gives (Origin.gives_fieldParameters hbody) name
  | response status =>
      obtain ⟨os, hos, hmatched⟩ := Origin.gives_allResponses hresponses
      rw [Route.origin?, hos]
      have hget := hmatched.get? (Entries.respects_const _) status
      show Option.Rel _ (Entries.get? status os).join ((Entries.get? status responses).bind _)
      generalize Entries.get? status os = a, Entries.get? status responses = b at hget ⊢
      cases hget with
      | none => exact .none
      | some h => exact h

end

/-! ### Two endpoints of a route -/

/-- Endpoints that are alike have examples that are alike under every key, or none in both. -/
theorem example?_alike {D : Scalar → Scalar → Prop} {S : SchemaRelation} {e f : Endpoint}
    (h : Endpoint.Alike D S e f) (key : ExampleKey) :
    Option.Rel (Alike D D .sample) (e.example? key) (f.example? key) := by
  -- Parameters of the path and of the body differ in nothing but the table.
  have hparameter : ∀ {ps qs : List (Text × Parameter)} (name : Text),
      Entries.Matched (fun _ => Parameter.Alike D S) ps qs → Option.Rel (Alike D D .sample)
        ((Entries.get? name ps).map (·.value)) ((Entries.get? name qs).map (·.value)) := by
    intro ps qs name h
    have hget := h.get? (Entries.respects_const _) name
    generalize Entries.get? name ps = a, Entries.get? name qs = b at hget ⊢
    cases hget with
    | none => exact .none
    | some h => exact .some h.value
  cases key with
  | parameter name => exact hparameter name h.parameters
  | body name => exact hparameter name h.bodyParameters
  | response status =>
      have hget := h.responses.get? (Entries.respects_const _) status
      show Option.Rel _ ((Entries.get? status e.responses).bind _)
        ((Entries.get? status f.responses).bind _)
      generalize Entries.get? status e.responses = a, Entries.get? status f.responses = b at hget ⊢
      cases hget with
      | none => exact .none
      | some h => exact h.sample

/-- Two endpoints of a route have the same wherever the author gives an example: every example
of both comes from one origin, by the draws of their sources, with the same at what is given. -/
def Endpoint.SameGiven (σ τ : Type) [RandomSource σ] [RandomSource τ] (now : Moment) (r : Route)
    (e f : Endpoint) : Prop :=
  ∀ key v w, e.example? key = some v → f.example? key = some w →
    ∃ o, r.origin? key = some o ∧ o.Same σ τ now v w

section
variable {σ τ : Type} [RandomSource σ] [RandomSource τ] {now : Moment} {defaultGroup : Text}
  {r : Route} {e f : Endpoint}

/-- Endpoints that are both the same as a trial's wherever the author gives an example are the
same as each other there. -/
theorem Endpoint.SameGiven.join {m : Nat} {D : Scalar → Scalar → Prop} {S : SchemaRelation}
    {c : Endpoint} (he : Endpoint.SameGiven (Pinned m) σ now r c e) (halike : Endpoint.Alike D S c e)
    (hf : Endpoint.SameGiven (Pinned m) τ now r c f) : Endpoint.SameGiven σ τ now r e f := by
  intro key v w hv hw
  have hexample := example?_alike halike key
  rw [hv] at hexample
  cases hu : c.example? key with
  | none =>
      rw [hu] at hexample
      cases hexample
  | some u =>
      obtain ⟨o, ho, hsame⟩ := he key u v hu hv
      obtain ⟨o', ho', hsame'⟩ := hf key u w hu hw
      rw [ho] at ho'
      cases ho'
      exact ⟨o, ho, hsame.join hsame'⟩

/-- The endpoint of a trial, if each trial of a route ends with one. -/
abbrev TrialOf (now : Moment) (defaultGroup : Text) (r : Route) (trial : Nat → Endpoint) : Prop :=
  ∀ m, (ofRoute now defaultGroup r : Synth (Pinned m) _).outcome ⟨⟩ = .ok (some (trial m))

/-- If the trials of a route have the same wherever the author gives an example, any two of its
endpoints have. -/
theorem sameGiven_of_trials {trial : Nat → Endpoint} (htrial : TrialOf now defaultGroup r trial)
    (hsame : ∀ m n, Endpoint.SameGiven (Pinned m) (Pinned n) now r (trial m) (trial n))
    {s : σ} {t : τ}
    (he : (ofRoute now defaultGroup r).outcome s = .ok (some e))
    (hf : (ofRoute now defaultGroup r).outcome t = .ok (some f)) :
    Endpoint.SameGiven σ τ now r e f := by
  intro key v w hv hw
  have hexample := origin_gives he key
  have hother := origin_gives hf key
  rw [hv] at hexample
  rw [hw] at hother
  -- The two examples have one origin, as it does not depend on the run.
  cases horigin : r.origin? key with
  | none =>
      rw [horigin] at hexample
      cases hexample
  | some o =>
      rw [horigin] at hexample hother
      obtain ⟨hv⟩ := hexample
      obtain ⟨hw⟩ := hother
      -- Each trial has an example there, too, by the same origin.
      have htrials : ∀ m, ∃ u, (trial m).example? key = some u ∧ o.Gives (Pinned m) now u := by
        intro m
        have hgives := origin_gives (htrial m) key
        rw [horigin] at hgives
        cases hu : (trial m).example? key with
        | none =>
            rw [hu] at hgives
            cases hgives
        | some u =>
            rw [hu] at hgives
            obtain ⟨h⟩ := hgives
            exact ⟨u, rfl, h⟩
      choose u hu hgives using htrials
      refine ⟨o, rfl, Origin.same_of_trials hgives (fun m n => ?_) hv hw⟩
      obtain ⟨o', ho', hsame⟩ := hsame m n key (u m) (u n) (hu m) (hu n)
      rw [horigin] at ho'
      cases ho'
      exact hsame

end

end RouteDocs
