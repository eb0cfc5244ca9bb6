import RouteDocs.Proofs.ClockEdge
import RouteDocs.Proofs.CompositeExample
import RouteDocs.Proofs.ExampleOrigins

/-!
# `RouteDocs.Proofs.UntangledBlocks`: blocks without fields below an example

Where the author gives an example for one field of a nested schema, and a field with a dotted
name stands below it, the value of the second is written into the example of the first, and
what is made up becomes a part of what is given. A block is untangled (`IsUntangled`) if no
field without an example stands at the path of a field with one, or below it.

The main result is `compositeOfEntries_coupled_of_isUntangled`: two runs over an untangled block
have the same at every field whose example is given, and leave the same schema. It rests on
`collect_findsOnly`, which says for which fields a walk of the schema finds something.

For routes, `Route.IsUntangled` says that all blocks of the tags are untangled. Then the
endpoints of two runs have the same nested schemas (`ofRoute_coupled_of_isUntangled`) and the
same wherever the author gives an example (`Route.IsUntangled.sameGiven`).
-/

set_option autoImplicit false

namespace RouteDocs

open Text Number Synthesis Tag Endpoint

namespace Synthesis

/-! ### What is found for which field -/

/-- What a walk from a node finds: the example that a field gives, something made up for a field
that gives none, or an empty mapping for an object without fields. -/
inductive Finding.ComesFrom (path : Text) (address : List Scalar) (v : Value) : Finding → Prop where
  | given {p : Text} {a : List Scalar} {x : Value} (h : Visits path address v ⟨p, a, some x⟩) :
      ComesFrom path address v ⟨p, x, some (a ++ [.str "example"])⟩
  | made {p : Text} {a : List Scalar} (h : Visits path address v ⟨p, a, none⟩) (x : Value) :
      ComesFrom path address v ⟨p, x, none⟩
  | empty (p : Text) : ComesFrom path address v ⟨p, .map [], none⟩

/-- What comes from a node comes from any node whose walk visits the same fields. -/
theorem Finding.ComesFrom.mono {path path' : Text} {address address' : List Scalar} {v v' : Value}
    {f : Finding} (h : f.ComesFrom path address v)
    (hv : ∀ g, Visits path address v g → Visits path' address' v' g) :
    f.ComesFrom path' address' v' := by
  cases h with
  | given h => exact .given (hv _ h)
  | made h x => exact .made (hv _ h) x
  | empty p => exact .empty p

section
variable {σ : Type} [RandomSource σ]

/-- A walk that finds nothing but this, from whatever state. -/
def FindsOnly (x : Synth σ (List Finding)) (P : Finding → Prop) : Prop :=
  ∀ s found, x.outcome s = .ok found → ∀ f ∈ found, P f

omit [RandomSource σ] in
/-- A walk that ends at once finds what it was given. -/
theorem FindsOnly.pure {P : Finding → Prop} {found : List Finding} (h : ∀ f ∈ found, P f) :
    FindsOnly (Pure.pure found : Synth σ _) P := by
  rintro s _ ⟨⟩
  exact h

mutual

/-- A walk finds something for the fields that it comes to, and nothing else. -/
theorem collect_findsOnly (now : Moment) (path : Text) (address : List Scalar) : (v : Value) →
    FindsOnly (collect now path address v : Synth σ _) (Finding.ComesFrom path address v)
  | .map entries => by
    -- The cases are the shapes of a node: a list of objects, an object, a typed field, fields.
    rw [collect]
    split
    · rename_i hshape
      refine collectItems_findsOnly (P := Finding.ComesFrom path address (.map entries)) now path
        address entries ?_
      intro items es k v name f hitems hproperties hmem hname hf
      exact hf.mono fun g hg => .elements hshape (mapUnder?_eq_some_iff.mpr hitems)
        (mapUnder?_eq_some_iff.mpr hproperties) hmem hname hg
    · rename_i hshape
      refine collectProperties_findsOnly (P := Finding.ComesFrom path address (.map entries)) now
        path address entries (.empty path) ?_
      intro v f hv hf
      cases v with
      | map es => exact hf.mono fun g hg => .object hshape (mapUnder?_eq_some_iff.mpr hv) hg
      | _ => exact hf.mono fun g hg => nomatch hg
    · rename_i type hshape
      -- A typed field is itself visited. Its example, if it has one, stands one key further down.
      have hfield : Visits path address (.map entries)
          ⟨path, address.reverse, Entries.get? (.str "example") entries⟩ := .field hshape
      split
      · rename_i v hv
        refine .pure (List.forall_mem_singleton.mpr ?_)
        rw [hv] at hfield
        rw [List.reverse_cons]
        exact .given hfield
      · rename_i hnone
        intro s found hfound
        obtain ⟨v, -, hfound⟩ := Synth.outcome_bind_eq_ok_iff.mp hfound
        cases hfound
        rw [hnone] at hfield
        exact List.forall_mem_singleton.mpr (.made hfield v)
    · rename_i hshape
      refine collectFields_findsOnly (P := Finding.ComesFrom path address (.map entries)) now path
        address entries ?_
      intro k v name f hmem hname hf
      exact hf.mono fun g hg => .fields hshape hmem hname hg
  | .scalar _ => .pure nofun
  | .list _ => .pure nofun
  | .pair _ _ => .pure nofun
  | .set _ => .pure nofun
  | .loop _ => .pure nofun

/-- The walk of fields finds what the walks of the single fields do, each below the path of its
displayed key. -/
theorem collectFields_findsOnly {P : Finding → Prop} (now : Moment) (path : Text)
    (address : List Scalar) :
    (es : List (Scalar × Value)) →
    (∀ k v name f, (k, v) ∈ es → k.display = .ok name →
      Finding.ComesFrom (below path name) (k :: address) v f → P f) →
    FindsOnly (collectFields now path address es : Synth σ _) P
  | [], _ => .pure nofun
  | (k, v) :: es, h => by
    intro s found hfound
    obtain ⟨name, hname, hfound⟩ := Synth.outcome_bind_eq_ok_iff.mp hfound
    obtain ⟨first, hfirst, hfound⟩ := Synth.outcome_bind_eq_ok_iff.mp hfound
    obtain ⟨others, hothers, hfound⟩ := Synth.outcome_bind_eq_ok_iff.mp hfound
    rw [Synth.outcome_orThrow] at hname
    -- The walk shows the key itself, so the path of the field is the one that the premise names.
    cases hdisplay : k.display with
    | error f =>
        rw [hdisplay] at hname
        cases hname
    | ok text =>
        rw [hdisplay] at hname
        cases hname
        cases hfound
        refine List.forall_mem_append.mpr ⟨fun f hf => ?_, ?_⟩
        · exact h k v name f List.mem_cons_self hdisplay
            (collect_findsOnly now (below path name) (k :: address) v _ _ hfirst f hf)
        · exact collectFields_findsOnly now path address es
            (fun k v name f hmem => h k v name f (List.mem_cons_of_mem _ hmem)) _ _ hothers

/-- The walk of an object finds what is below its `properties`, or an empty mapping in
their place. -/
theorem collectProperties_findsOnly {P : Finding → Prop} (now : Moment) (path : Text)
    (address : List Scalar) :
    (es : List (Scalar × Value)) → P ⟨path, .map [], none⟩ →
    (∀ v f, Entries.get? (.str "properties") es = some v →
      Finding.ComesFrom path (.str "properties" :: address) v f → P f) →
    FindsOnly (collectProperties now path address es : Synth σ _) P
  | [], _, _ => .pure nofun
  | (k, v) :: es, hempty, h => by
    unfold collectProperties
    split
    · rename_i hk
      obtain rfl := (Scalar.beq_str_iff _ _).mp hk
      split
      · refine .pure ?_
        split
        · nofun
        · exact List.forall_mem_singleton.mpr hempty
      · intro s found hfound f hf
        refine h v f ?_ (collect_findsOnly now path _ v s found hfound f hf)
        rw [Entries.get?_cons, if_pos hk]
    · rename_i hk
      refine collectProperties_findsOnly now path address es hempty fun v f hv => h v f ?_
      rw [Entries.get?_cons, if_neg hk]
      exact hv

/-- The walk of a list finds what is below the fields of its elements, all at the position of
the first. -/
theorem collectItems_findsOnly {P : Finding → Prop} (now : Moment) (path : Text)
    (address : List Scalar) :
    (es : List (Scalar × Value)) →
    (∀ items fields k v name f, Entries.get? (.str "items") es = some (.map items) →
      Entries.get? (.str "properties") items = some (.map fields) → (k, v) ∈ fields →
      k.display = .ok name →
      Finding.ComesFrom (below (below path "0") name)
        (k :: .str "properties" :: .str "items" :: address) v f → P f) →
    FindsOnly (collectItems now path address es : Synth σ _) P
  | [], _ => .pure nofun
  | (k, v) :: es, h => by
    unfold collectItems
    split
    · rename_i hk
      -- The first entry under the key counts, as in a look-up.
      obtain rfl := (Scalar.beq_str_iff _ _).mp hk
      cases v with
      | map inner =>
          refine collectElement_findsOnly now path _ inner fun fields k v name f hfields => ?_
          refine h inner fields k v name f ?_ hfields
          rw [Entries.get?_cons, if_pos hk]
      | _ => exact .pure nofun
    · rename_i hk
      refine collectItems_findsOnly now path address es fun items fields k v name f hitems => ?_
      refine h items fields k v name f ?_
      rw [Entries.get?_cons, if_neg hk]
      exact hitems

/-- The same from the description of an element, whose `properties` are the fields. -/
theorem collectElement_findsOnly {P : Finding → Prop} (now : Moment) (path : Text)
    (address : List Scalar) :
    (es : List (Scalar × Value)) →
    (∀ fields k v name f, Entries.get? (.str "properties") es = some (.map fields) →
      (k, v) ∈ fields → k.display = .ok name →
      Finding.ComesFrom (below (below path "0") name) (k :: .str "properties" :: address) v f →
        P f) →
    FindsOnly (collectElement now path address es : Synth σ _) P
  | [], _ => .pure nofun
  | (k, v) :: es, h => by
    unfold collectElement
    split
    · rename_i hk
      obtain rfl := (Scalar.beq_str_iff _ _).mp hk
      cases v with
      | map fields =>
          refine collectFields_findsOnly now (below path "0") _ fields fun k v name f => ?_
          refine h fields k v name f ?_
          rw [Entries.get?_cons, if_pos hk]
      | _ => exact .pure nofun
    · rename_i hk
      refine collectElement_findsOnly now path address es fun fields k v name f hfields => ?_
      refine h fields k v name f ?_
      rw [Entries.get?_cons, if_neg hk]
      exact hfields

end

end

/-! ### Untangled blocks -/

/-- A block in which nothing is made up at the path of a field whose example is given, or below
it. -/
def IsUntangled (es : List (Scalar × Value)) : Prop :=
  ∀ f g, Visits [] [] (.map es) f → Visits [] [] (.map es) g → f.given ≠ none → g.given = none →
    ¬ PathTree.Meets f.keys g.keys

/-- Two values found for one field of a block, under its path. -/
def FoundAlike (D : Scalar → Scalar → Prop) (es : List (Scalar × Value)) (path : Text)
    (f g : Finding) : Prop :=
  Finding.Alike D f g ∧ f.path = path ∧ f.ComesFrom [] [] (.map es)

/-- A path that spells the path of a field whose example is given. -/
def IsGivenPlace (es : List (Scalar × Value)) (place : List Text) : Prop :=
  ∃ g, Visits [] [] (.map es) g ∧ g.given ≠ none ∧
    List.Forall₂ PathTree.SameSegment g.keys place

/-- What a schema gives is written to such a path. -/
theorem Finding.ComesFrom.isGivenPlace {es : List (Scalar × Value)} {f : Finding}
    (h : f.ComesFrom [] [] (.map es)) (hsource : f.source ≠ none) {place : List Text}
    (hspelt : List.Forall₂ PathTree.SameSegment (keysOf f.path) place) : IsGivenPlace es place := by
  cases h with
  | given hv => exact ⟨_, hv, nofun, hspelt⟩
  | made _ _ => exact absurd rfl hsource
  | empty _ => exact absurd rfl hsource

section
variable {σ τ : Type} [RandomSource σ] [RandomSource τ] {E : Excuse} {Q : σ → τ → Prop}
  {D : Scalar → Scalar → Prop} {now now' : Moment} {es : List (Scalar × Value)}
  {found found' : List Finding}

/-- Of several values found at one path the last counts, in both runs, and it comes from the block
as the others do. -/
theorem byPath_found (h : List.Forall₂ (Finding.Alike D) found found')
    (hfrom : ∀ f ∈ found, f.ComesFrom [] [] (.map es)) :
    Entries.Matched (FoundAlike D es) (byPath found) (byPath found') := by
  refine Entries.Matched.ofList ?_ (List.rel_map (fun f g hfg => ?_)
    ((List.forall₂_and_left _ _).mpr ⟨hfrom, h⟩))
  · intro k k' hk f g hfg
    exact eq_of_beq hk ▸ hfg
  · exact ⟨hfg.2.path, hfg.2, rfl, hfg.1⟩

/-- In an untangled block the two values of a field are the same, or the field is not at the
path of one whose example is given, or below it. -/
theorem IsUntangled.value (h : IsUntangled es) {path : Text} {f f' : Finding}
    (hf : FoundAlike D es path f f') {g : Field} (hg : Visits [] [] (.map es) g)
    (hgiven : g.given ≠ none) :
    f.value = f'.value ∨
      ExamplesAlike D f.value f'.value ∧ ¬ PathTree.Meets g.keys (keysOf path) := by
  obtain ⟨halike, rfl, hfrom⟩ := hf
  cases hfrom with
  -- Only what is made up can differ, and that is where the block says no given path meets it.
  | given _ => exact .inl (halike.given nofun)
  | made hv x => exact .inr ⟨halike.value, h g _ hg hv hgiven rfl⟩
  | empty p =>
      have hvalue := halike.value
      generalize f'.value = w at hvalue ⊢
      cases hvalue
      exact .inl rfl

/-- Two trees of an untangled block have the same at every field whose example is given. -/
theorem IsUntangled.sameAtGiven (h : IsUntangled es)
    (hfound : Entries.Matched (FoundAlike D es) (byPath found) (byPath found')) {v w : Value}
    (hv : treeOf found = .ok v) (hw : treeOf found' = .ok w) : SameAtGiven es v w := by
  intro g x hg hx
  refine PathTree.readAt_ofFlat (D := D) (List.rel_map (fun e f hef => ?_) hfound) hv hw
  exact ⟨hef.1, h.value hef.2 hg (by simp [hx])⟩

/-! ### The schema that an untangled block leaves -/

/-- Two writes that come from one place of a schema, and that write the same at every place, or
below it, where the schema gives something. -/
structure SourceSame (P : List Text → Prop) (e f : Option (List Scalar) × List Text × Value) :
    Prop where
  source : e.1 = f.1
  place : e.2.1 = f.2.1
  given : e.1 ≠ none → P e.2.1
  value : ∀ place, P place → place <+: e.2.1 → e.2.2 = f.2.2

/-- Such writes leave the same schema. -/
theorem settleSources_congr {P : List Text → Prop}
    {ws us : List (Option (List Scalar) × List Text × Value)}
    (h : List.Forall₂ (SourceSame P) ws us) (schema : Value) :
    settleSources ws schema = settleSources us schema := by
  induction h generalizing schema with
  | nil => rfl
  | @cons e f ws us hef hrest ih =>
      obtain ⟨source, place, v⟩ := e
      obtain ⟨_, _, w⟩ := f
      obtain ⟨rfl, rfl, hgiven, hvalue⟩ := hef
      -- A write without a source leaves the schema as it is. One with a source settles its value
      -- against all later writes, which agree at or below its place.
      cases source with
      | none => exact ih schema
      | some address =>
          have hplace := hgiven nofun
          obtain rfl : v = w := hvalue place hplace (List.prefix_refl place)
          have hlater : Entries.Matched (fun target a b => place <+: target → a = b)
              (ws.map (·.2)) (us.map (·.2)) :=
            List.rel_map (fun _ _ hef => ⟨hef.place, hef.value place hplace⟩) hrest
          rw [settleSources, settleSources, PathTree.settle_congr hlater v]
          exact ih _

/-- The writes of two runs over an untangled block, with the places in the schema. -/
theorem IsUntangled.zip_sourceSame (h : IsUntangled es) {bs bs' : List (Text × Finding)}
    {ws us : List (List Text × Value)} (hfound : Entries.Matched (FoundAlike D es) bs bs')
    (hws : List.Forall₂ (fun e w => List.Forall₂ PathTree.SameSegment (keysOf e.1) w.1 ∧
      w.2 = e.2.value) bs ws)
    (hus : List.Forall₂ (fun e w => List.Forall₂ PathTree.SameSegment (keysOf e.1) w.1 ∧
      w.2 = e.2.value) bs' us)
    (hplaces : List.Forall₂ (fun w u => w.1 = u.1) ws us) :
    List.Forall₂ (SourceSame (IsGivenPlace es)) ((bs.map (·.2.source)).zip ws)
      ((bs'.map (·.2.source)).zip us) := by
  induction hfound generalizing ws us with
  | nil => exact .nil
  | @cons e f bs bs' hef _ ih =>
      cases hws with
      | cons hw hws =>
          cases hus with
          | cons hu hus =>
              cases hplaces with
              | cons hplace hplaces =>
                  refine .cons ⟨hef.2.1.source, hplace, ?_, ?_⟩ (ih hws hus hplaces)
                  · intro hsource
                    obtain ⟨-, hpath, hfrom⟩ := hef.2
                    exact hfrom.isGivenPlace hsource (hpath ▸ hw.1)
                  -- A write at or below a given place: either both values agree, or the two paths
                  -- meet.
                  · rintro place ⟨g, hg, hgiven, hspelt⟩ hprefix
                    dsimp only at hprefix ⊢
                    rw [hw.2, hu.2]
                    obtain hvalue | ⟨-, hnot⟩ := h.value hef.2 hg hgiven
                    · exact hvalue
                    · exact absurd (PathTree.meets_of_prefix hspelt hw.1 hprefix) hnot

/-- Two runs over an untangled block leave the same schema. -/
theorem IsUntangled.agree_schemaAfter (h : IsUntangled es)
    (hfound : List.Forall₂ (Finding.Alike D) found found')
    (hfrom : ∀ f ∈ found, f.ComesFrom [] [] (.map es)) (schema : Value) :
    Agree (fun v w => v = w) (schemaAfter found schema) (schemaAfter found' schema) := by
  have hwrites := writes_matched hfound
  rw [schemaAfter, schemaAfter, ← PathTree.root_congr hwrites]
  -- The trees that the writes start from are the same, as the paths are.
  cases hroot : PathTree.root separator ((byPath found).map fun e => (e.1, e.2.value)) with
  | error f => exact .error f
  | ok tree =>
      refine (PathTree.agree_placements hwrites (.refl .sample tree)
        (PathTree.isTree_root hroot) separator).with_results.bind ?_
      rintro placed placed' ⟨hplaced, hws, hus⟩
      have hspelt := List.forall₂_map_left_iff.mp (PathTree.placements_spelt hws)
      have hspelt' := List.forall₂_map_left_iff.mp (PathTree.placements_spelt hus)
      have hzip := h.zip_sourceSame (byPath_found hfound hfrom) hspelt hspelt'
        (hplaced.imp fun _ _ h => h.1)
      exact .ok (settleSources_congr hzip schema)

/-- Two runs over an untangled block have the same at every field whose example is given, and
leave the same schema. -/
theorem compositeOfEntries_coupled_of_isUntangled (hdraws : DrawsAgree σ τ E Q D now now')
    (h : IsUntangled es) :
    Coupled E Q (fun a b => SampleAlike D (fun o o' => o = o') a b ∧ SameAtGiven es a.1 b.1)
      (compositeOfEntries now es : Synth σ _) (compositeOfEntries now' es : Synth τ _) := by
  -- The two walks are run side by side, with what the left one finds kept. The other run needs
  -- nothing of the kind, since its findings are those of the left but for draws.
  have hboth : Coupled E Q
      (fun a b => Alike D D .sample a.1 b.1 ∧ SameAtGiven es a.1 b.1 ∧ a.2 = b.2)
      (compositeWithSchema now (.map es) : Synth σ _)
      (compositeWithSchema now' (.map es) : Synth τ _) := by
    refine ((collect_coupled hdraws [] [] (.map es)).with_left
      (collect_findsOnly now [] [] (.map es))).bind ?_
    rintro found found' ⟨hfound, hfrom⟩
    refine (Coupled.orThrow (agree_treeOf hfound).with_results).bind ?_
    rintro tree tree' ⟨htree, hv, hw⟩
    have hgiven := h.sameAtGiven (byPath_found hfound hfrom) hv hw
    refine (Coupled.orThrow (h.agree_schemaAfter hfound hfrom _)).bind ?_
    rintro schema _ rfl
    exact .pure ⟨htree, hgiven, rfl⟩
  refine hboth.bind ?_
  rintro ⟨v, schema⟩ ⟨w, _⟩ ⟨hvw, hgiven, rfl⟩
  -- A schema that is not a mapping is passed over by both runs alike.
  cases schema <;> exact .pure ⟨⟨hvw, rfl⟩, hgiven⟩

/-- Any two examples of an untangled block have the same at every field whose example is
given. -/
theorem IsUntangled.sameAtGiven_of_composed (h : IsUntangled es) {v w : Value}
    (hv : ComposedBy σ now es v) (hw : ComposedBy τ now es w) : SameAtGiven es v w := by
  obtain ⟨s, left, hs⟩ := hv
  obtain ⟨t, left', ht⟩ := hw
  -- Both runs have ended with a value, so neither of the two ways to fail is left.
  obtain ⟨e, -, he⟩ | ⟨e, -, he⟩ | ⟨hagree, -⟩ :=
    compositeOfEntries_coupled_of_isUntangled (drawsAgree_faults σ τ now) h s t trivial
  · rw [hs] at he
    cases he
  · rw [ht] at he
    cases he
  · rw [hs, ht] at hagree
    obtain ⟨-, hgiven⟩ := hagree
    exact hgiven

end

end Synthesis

/-! ### Untangled routes -/

/-- A route whose tags have untangled blocks only. -/
def Route.IsUntangled (r : Route) : Prop :=
  ∀ tag ∈ r.tags, ∀ es, tag.HasBlock es → Synthesis.IsUntangled es

namespace Origin

/-- The nested schema of an origin. -/
def block? : Origin → Option Properties
  | .block es | .elements es => some es
  | _ => none

variable {es : Properties}

/-- The block of an origin that is made of properties is these properties. -/
theorem block?_ofProperties {type : Text} {properties : Option Properties}
    (h : (ofProperties type properties).block? = some es) : properties = some es := by
  unfold ofProperties at h
  split at h
  · split at h
    · cases h
    · split at h <;> cases h <;> rfl
  · cases h

/-- The origin of a property that stands beside others has a block of its tag. -/
theorem hasBlock_ofProperty {tag : AnnotationTag} {p : ParameterTag} {e : Scalar × Value}
    (hparse : parseParameter tag.name tag.content = .ok p) (he : e ∈ p.properties.getD [])
    {o : Scalar × Text × Origin} (ho : ofProperty tag.name e.1 e.2 = .ok o)
    (h : o.2.2.block? = some es) : tag.HasParameterBlock es := by
  obtain ⟨schema, hschema, ho⟩ := exists_of_bind_eq_ok ho
  obtain ⟨nested, hnested, ho⟩ := exists_of_bind_eq_ok ho
  obtain ⟨type, -, ho⟩ := exists_of_bind_eq_ok ho
  cases ho
  dsimp only at h
  -- A property with an example of its own has no block to put together.
  split at h
  · cases h
  · rw [block?_ofProperties h] at hnested
    exact .member hparse he hschema hnested

/-- The nested schemas of the origins of a parameter tag are blocks of the tag. -/
theorem hasBlock_ofTag {tag : AnnotationTag} {os : List (Scalar × Text × Origin)}
    (hos : ofTag tag = .ok os) : ∀ o ∈ os, ∀ es, o.2.2.block? = some es →
      tag.HasParameterBlock es := by
  obtain ⟨p, hparse, hos⟩ := exists_of_bind_eq_ok hos
  split at hos
  · intro o ho es hes
    obtain ⟨e, he, hproperty⟩ := exists_of_mem_mapM_right hos ho
    exact hasBlock_ofProperty hparse he hproperty hes
  · cases hos
    refine List.forall_mem_singleton.mpr fun es hes => ?_
    dsimp only at hes
    split at hes
    · cases hes
    · exact .own hparse (block?_ofProperties hes)

/-- The origins of parameter tags have blocks of those tags only. -/
theorem hasBlock_ofTags {tagName : Text} {tags : List AnnotationTag}
    {os : List (Scalar × Text × Origin)} (hos : ofTags tagName tags = .ok os) :
    ∀ o ∈ os, ∀ es, o.2.2.block? = some es →
      ∃ tag ∈ tags, tag.name = tagName ∧ tag.HasParameterBlock es := by
  induction tags generalizing os with
  | nil =>
      cases hos
      nofun
  | cons tag rest ih =>
      rw [ofTags] at hos
      split at hos
      · rename_i hname
        obtain ⟨first, hfirst, hos⟩ := exists_of_bind_eq_ok hos
        obtain ⟨others, hothers, hos⟩ := exists_of_bind_eq_ok hos
        cases hos
        refine List.forall_mem_append.mpr ⟨fun o ho es hes => ?_, fun o ho es hes => ?_⟩
        · exact ⟨tag, List.mem_cons_self, hname, hasBlock_ofTag hfirst o ho es hes⟩
        · obtain ⟨other, hmem, hblock⟩ := ih hothers o ho es hes
          exact ⟨other, List.mem_cons_of_mem _ hmem, hblock⟩
      -- A tag of another name adds no origin.
      · intro o ho es hes
        obtain ⟨other, hmem, hblock⟩ := ih hos o ho es hes
        exact ⟨other, List.mem_cons_of_mem _ hmem, hblock⟩

/-- What is under a name is one of the origins. -/
theorem forall_byName {P : Origin → Prop} {os : List (Scalar × Text × Origin)}
    (h : ∀ o ∈ os, P o.2.2) {name : Text} {o : Origin}
    (ho : Entries.get? name (byName os) = some o) : P o := by
  obtain ⟨key, hmem, -⟩ := Entries.exists_mem_of_get? ho
  -- Two tables stand one over the other: the origins under their keys, and under their names.
  refine Entries.forall_ofList (P := P) ?_ _ hmem
  intro e he
  obtain ⟨e', he', rfl⟩ := List.mem_map.mp he
  exact Entries.forall_ofList (P := fun o => P o.2) h e' he'

/-- The block of the origin of an example body is the content of the response. -/
theorem block?_ofResponse {r : Response} (h : (ofResponse r).bind block? = some es) :
    r.content = some es := by
  unfold ofResponse at h
  split at h
  · cases h
  split at h
  · cases h
  split at h
  · rename_i hcontent
    cases h
    exact hcontent
  · cases h

/-- The origins of example bodies have blocks of response tags only. -/
theorem hasBlock_ofResponses {tags : List AnnotationTag} {os : List (Int × Option Origin)}
    (hos : ofResponses tags = .ok os) : ∀ o ∈ os, ∀ es, o.2.bind block? = some es →
      ∃ tag ∈ tags, tag.HasBlock es := by
  induction tags generalizing os with
  | nil =>
      cases hos
      nofun
  | cons tag rest ih =>
      rw [ofResponses] at hos
      split at hos
      · rename_i hname
        obtain ⟨parsed, hparse, hos⟩ := exists_of_bind_eq_ok hos
        obtain ⟨others, hothers, hos⟩ := exists_of_bind_eq_ok hos
        cases hos
        refine List.forall_mem_cons.mpr ⟨fun es hes => ?_, fun o ho es hes => ?_⟩
        · exact ⟨tag, List.mem_cons_self, .response hname hparse (block?_ofResponse hes)⟩
        · obtain ⟨other, hmem, hblock⟩ := ih hothers o ho es hes
          exact ⟨other, List.mem_cons_of_mem _ hmem, hblock⟩
      -- A tag that is no response adds none either.
      · intro o ho es hes
        obtain ⟨other, hmem, hblock⟩ := ih hos o ho es hes
        exact ⟨other, List.mem_cons_of_mem _ hmem, hblock⟩

end Origin

namespace Route

variable {r : Route}

/-- The parameters of a route have blocks of its tags: the tags of the query bring them, and the
address brings none. -/
theorem hasBlock_parameterOrigins {os : List (Text × Origin)} (hos : r.parameterOrigins = .ok os)
    {name : Text} {o : Origin} (ho : Entries.get? name os = some o) :
    ∀ es, o.block? = some es → ∃ tag ∈ r.tags, tag.HasBlock es := by
  obtain ⟨query, hquery, hos⟩ := exists_of_bind_eq_ok hos
  cases hos
  refine Origin.forall_byName (P := fun o => ∀ es, o.block? = some es →
    ∃ tag ∈ r.tags, tag.HasBlock es) (List.forall_mem_append.mpr ⟨fun o ho es hes => ?_,
      fun o ho es hes => ?_⟩) ho
  · obtain ⟨name, -, rfl⟩ := List.mem_map.mp ho
    -- A variable of the address has no block.
    cases hes
  · obtain ⟨tag, htag, hname, hblock⟩ := Origin.hasBlock_ofTags hquery o ho es hes
    exact ⟨tag, htag, .parameter (.inl hname) hblock⟩

/-- The body parameters of a route have blocks of its tags. Those of input fields have none. -/
theorem hasBlock_bodyOrigins {os : List (Text × Origin)} (hos : r.bodyOrigins = .ok os)
    {name : Text} {o : Origin} (ho : Entries.get? name os = some o) :
    ∀ es, o.block? = some es → ∃ tag ∈ r.tags, tag.HasBlock es := by
  rw [bodyOrigins] at hos
  split at hos
  · obtain ⟨body, hbody, rfl⟩ := exists_of_map_eq_ok hos
    refine Origin.forall_byName (P := fun o => ∀ es, o.block? = some es →
      ∃ tag ∈ r.tags, tag.HasBlock es) (fun o ho es hes => ?_) ho
    obtain ⟨tag, htag, hname, hblock⟩ := Origin.hasBlock_ofTags hbody o ho es hes
    exact ⟨tag, htag, .parameter (.inr hname) hblock⟩
  · cases hos
    refine Origin.forall_byName (P := fun o => ∀ es, o.block? = some es →
      ∃ tag ∈ r.tags, tag.HasBlock es) (fun o ho es hes => ?_) ho
    obtain ⟨field, -, rfl⟩ := List.mem_map.mp ho
    cases hes

/-- The example bodies of a route have blocks of its tags. Those of return types have none. -/
theorem hasBlock_responseOrigins {os : List (Int × Option Origin)}
    (hos : r.responseOrigins = .ok os) {status : Int} {o : Origin}
    (ho : (Entries.get? status os).join = some o) :
    ∀ es, o.block? = some es → ∃ tag ∈ r.tags, tag.HasBlock es := by
  obtain ⟨own, hown, hos⟩ := exists_of_bind_eq_ok hos
  have ho := Option.join_eq_some_iff.mp ho
  split at hos
  · obtain ⟨returned, -, hos⟩ := exists_of_bind_eq_ok hos
    cases hos
    -- Without a response tag the origins are those of return types, and no schema is among them.
    have hmem := Entries.mem_of_get?_ofList ho
    obtain ⟨q, -, hq⟩ := List.mem_map.mp hmem
    obtain ⟨v, -, rfl⟩ := Option.map_eq_some_iff.mp (congrArg Prod.snd hq)
    nofun
  · cases hos
    intro es hes
    exact Origin.hasBlock_ofResponses hown _ (Entries.mem_of_get?_ofList ho) es hes

/-- The nested schemas that examples are put together from are blocks of the tags. -/
theorem exists_hasBlock_of_origin? {key : ExampleKey} {o : Origin} (ho : r.origin? key = some o)
    {es : Properties} (hes : o.block? = some es) : ∃ tag ∈ r.tags, tag.HasBlock es := by
  cases key with
  | parameter name =>
      obtain ⟨os, hos, ho⟩ := Option.bind_eq_some_iff.mp ho
      exact hasBlock_parameterOrigins (eq_ok_of_toOption_eq_some hos) ho es hes
  | body name =>
      obtain ⟨os, hos, ho⟩ := Option.bind_eq_some_iff.mp ho
      exact hasBlock_bodyOrigins (eq_ok_of_toOption_eq_some hos) ho es hes
  | response status =>
      obtain ⟨os, hos, ho⟩ := Option.bind_eq_some_iff.mp ho
      exact hasBlock_responseOrigins (eq_ok_of_toOption_eq_some hos) ho es hes

end Route

section
variable {σ τ : Type} [RandomSource σ] [RandomSource τ] {now : Moment} {defaultGroup : Text}
  {r : Route}

/-- Two runs over an untangled route give endpoints that are alike, with the same nested
schemas. -/
theorem ofRoute_coupled_of_isUntangled {E : Excuse} {Q : σ → τ → Prop} {D : Scalar → Scalar → Prop}
    {now' : Moment} (hdraws : DrawsAgree σ τ E Q D now now') (defaultGroup : Text)
    (h : r.IsUntangled) :
    Coupled E Q (Option.Rel (Endpoint.Alike D fun o o' => o = o'))
      (ofRoute now defaultGroup r : Synth σ _) (ofRoute now' defaultGroup r : Synth τ _) :=
  ofRoute_coupled_of hdraws (fun _ => rfl) defaultGroup r fun tag htag es hes =>
    (compositeOfEntries_coupled_of_isUntangled hdraws (h tag htag es hes)).mono fun _ _ h => h.1

/-- Any two endpoints of an untangled route have the same wherever the author gives an
example. -/
theorem Route.IsUntangled.sameGiven (h : r.IsUntangled) {s : σ} {t : τ} {e f : Endpoint}
    (he : (ofRoute now defaultGroup r).outcome s = .ok (some e))
    (hf : (ofRoute now defaultGroup r).outcome t = .ok (some f)) :
    Endpoint.SameGiven σ τ now r e f := by
  intro key v w hv hw
  have hexample := origin_gives he key
  have hother := origin_gives hf key
  rw [hv] at hexample
  rw [hw] at hother
  -- The origin is read off the tags, so it is the same for both runs.
  cases horigin : r.origin? key with
  | none =>
      rw [horigin] at hexample
      cases hexample
  | some o =>
      rw [horigin] at hexample hother
      obtain ⟨hgives⟩ := hexample
      obtain ⟨hgives'⟩ := hother
      have hblock : ∀ es, o.block? = some es → Synthesis.IsUntangled es := by
        intro es hes
        obtain ⟨tag, htag, hblock⟩ := exists_hasBlock_of_origin? horigin hes
        exact h tag htag es hblock
      refine ⟨o, rfl, ?_⟩
      -- Only examples put together from a block need it to be untangled.
      cases hgives with
      | given v =>
          cases hgives'
          exact .given v
      | made s hs =>
          cases hgives' with
          | made t ht => exact .made s t hs ht
      | @block es _ hx =>
          cases hgives' with
          | block hy => exact .block hx hy ((hblock es rfl).sameAtGiven_of_composed hx hy)
      | @elements es _ hx =>
          cases hgives' with
          | elements hy => exact .elements hx hy ((hblock es rfl).sameAtGiven_of_composed hx hy)

end

/-! ### A tangled route -/

/-- The dated route has no blocks at all. -/
theorem isUntangled_datedRoute : datedRoute.IsUntangled := by
  intro tag htag es hblock
  obtain rfl := List.mem_singleton.mp htag
  cases hblock with
  | parameter hname _ => exact absurd hname (by decide)
  | response hname _ _ => exact absurd hname (by decide)

/-- A route with a body in which a number stands below an example that the author gives. -/
def tangledRoute : Route :=
  { uri := "parts"
    methods := ["POST"]
    handler := "Parts@store"
    tags := [{
      name := "bodyParam"
      content := "part object\nproperties:\n a:\n  type: object\n  example: \x7b\x7d\n a.b:\n  type: integer" }] }

/-- The schema of the body with that example. -/
def tangledSchema (sample : Value) : Properties :=
  [(.str "a", .object [("type", .str "object"), ("example", sample)]),
   (.str "a.b", .object [("type", .str "integer")])]

/-- The nested schemas of the body, in a trial at noon. -/
def tangledTrial (m : Nat) : Option (List (Option Properties)) :=
  match (ofRoute noon [] tangledRoute : Synth (Pinned m) _).outcome ⟨⟩ with
  | .ok (some e) => some (e.bodyParameters.map (·.2.properties))
  | _ => none

/-- A trial with schemas is one that ends with an endpoint that has them. -/
theorem exists_of_tangledTrial {m : Nat} {schemas : List (Option Properties)}
    (h : tangledTrial m = some schemas) :
    ∃ e, (ofRoute noon [] tangledRoute : Synth (Pinned m) _).outcome ⟨⟩ = .ok (some e) ∧
      e.bodyParameters.map (·.2.properties) = schemas := by
  unfold tangledTrial at h
  generalize (ofRoute noon [] tangledRoute : Synth (Pinned m) _).outcome ⟨⟩ = x at h ⊢
  obtain e | _ | e := x
  · cases h
  · cases h
  · exact ⟨e, rfl, Option.some.inj h⟩

/-- The first trial writes a one into the example that the author gives. -/
theorem tangledTrial_zero :
    tangledTrial 0 = some [some (tangledSchema (.object [("b", .int 1)]))] := by
  decide +kernel

/-- The second trial writes a two there. -/
theorem tangledTrial_one :
    tangledTrial 1 = some [some (tangledSchema (.object [("b", .int 2)]))] := by
  decide +kernel

end RouteDocs
