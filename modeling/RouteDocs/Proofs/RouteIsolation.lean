import RouteDocs.Proofs.RouteRuns
import RouteDocs.Proofs.UntangledBlocks

/-!
# `RouteDocs.Proofs.RouteIsolation`: routes do not affect each other

All routes of a run draw from one source, and a route that fails half way has drawn already.
So a route is documented from a state that the routes before it left. `Report` says what a
run tells of a list of routes without any state: one line for each route, and one endpoint
for each route that has tags and can be documented. This endpoint is what documenting the
route alone gives, from any state of any source, but for the values that are made up
(`Endpoint.DiffersByDraws`): nested schemas and examples that the author gives are the same.

`documentRoutes_report_iff` is the main theorem. The runs over some routes report in this way
exactly if the trials of each route do not differ in more than that (`Settled`), unless no
trial comes to an end. For routes with untangled blocks this always holds, if a draw does not
decide whether a date can be made. A tangled block can break it on every clock
(`not_report_tangledRoute`), and on a clock at the edge of the calendar a single date can
(`not_report_edgeClock`).
-/

set_option autoImplicit false

namespace RouteDocs

open Endpoint Synthesis Tag

/-- Two endpoints of a route, by the draws of two sources, that differ in made-up values only.
Their nested schemas are equal, and so is everything that the author gives. -/
structure Endpoint.DiffersByDraws (σ τ : Type) [RandomSource σ] [RandomSource τ] (now : Moment)
    (r : Route) (e f : Endpoint) : Prop where
  alike : Endpoint.Alike (Drawn σ τ now now) (fun o o' => o = o') e f
  given : Endpoint.SameGiven σ τ now r e f

namespace Generation

/-- The trials of a route agree with each other: endpoints that differ by draws only, no
endpoint, or one error. -/
def Settled (now : Moment) (defaultGroup : Text) (r : Route) : Prop :=
  ∀ m n, Agree (Option.Rel (DiffersByDraws (Pinned m) (Pinned n) now r))
    ((ofRoute now defaultGroup r : Synth (Pinned m) _).outcome ⟨⟩)
    ((ofRoute now defaultGroup r : Synth (Pinned n) _).outcome ⟨⟩)

section
variable {σ τ : Type} [RandomSource σ] [RandomSource τ] {now : Moment} {defaultGroup : Text}
  {r : Route}

/-! ### One route -/

/-- What documenting a route gives follows the draws, up to examples of nested schemas. -/
theorem ofRoute_followsDraws (now : Moment) (defaultGroup : Text) (r : Route) :
    FollowsDraws now (fun _ => ofRoute now defaultGroup r) fun σ τ =>
      Option.Rel (Endpoint.Alike (Drawn σ τ now now) (PropertiesAlike (Drawn σ τ now now))) :=
  fun _ _ _ _ _ hdraws => ofRoute_coupled hdraws defaultGroup r

/-- Nested schemas that are alike to every trial's, where the trials have one, are equal. -/
theorem eq_of_forall_propertiesAlike {a b : Option Properties}
    (h : ∀ m, PropertiesAlike (Drawn σ (Pinned m) now now) a b) : a = b := by
  -- Nothing is made up in a nested schema that every trial makes in its own way.
  have heq : Option.Rel (fun es fs => es = fs) a b := by
    refine Entries.optionRel_of_forall (fun es fs hes => ?_) h
    exact Value.map.inj (eq_of_forall_alike_pinned (.inr (.inl rfl)) fun m =>
      Alike.map_iff.mpr (hes m))
  cases heq with
  | none => rfl
  | some hes => rw [hes]

/-- If the trials of a route agree and some run has an endpoint, every trial has one. -/
theorem exists_trialOf
    (htrials : ∀ m n, Agree (fun _ _ => True)
      ((ofRoute now defaultGroup r : Synth (Pinned m) _).outcome ⟨⟩)
      ((ofRoute now defaultGroup r : Synth (Pinned n) _).outcome ⟨⟩)) {s : σ} {e : Endpoint}
    (he : (ofRoute now defaultGroup r).outcome s = .ok (some e)) :
    ∃ trial, TrialOf now defaultGroup r trial := by
  have hendpoint : ∀ m, ∃ c, (ofRoute now defaultGroup r : Synth (Pinned m) _).outcome ⟨⟩
      = .ok (some c) := by
    intro m
    have htrial := agree_trial (ofRoute_followsDraws now defaultGroup r) htrials s m
    rw [he] at htrial
    obtain ⟨found, hfound, hrel⟩ := htrial.exists_of_ok
    cases hrel with
    | some _ => exact ⟨_, hfound⟩
  choose trial htrial using hendpoint
  exact ⟨trial, htrial⟩

/-- An endpoint has the nested schemas of the trials, if all trials have the same. -/
theorem alike_trial_of_settled {trial : Nat → Endpoint} (htrial : TrialOf now defaultGroup r trial)
    (hsame : ∀ m n, DiffersByDraws (Pinned m) (Pinned n) now r (trial m) (trial n)) {s : σ}
    {e : Endpoint} (he : (ofRoute now defaultGroup r).outcome s = .ok (some e)) :
    Endpoint.Alike (fun _ _ => True) (fun o o' => o = o') e (trial 0) := by
  have hall : ∀ m, Endpoint.Alike (fun _ _ => True) (PropertiesAlike (Drawn σ (Pinned m) now now))
      e (trial 0) := by
    intro m
    obtain ⟨hweak⟩ := (ofRoute_followsDraws now defaultGroup r).related he (htrial m)
    refine hweak.join (fun _ _ _ _ _ => .inr trivial) ?_ (hsame 0 m).alike
    rintro a b _ hab rfl
    exact hab
  exact .of_forall (fun _ _ _ => .inr trivial) (fun _ _ => eq_of_forall_propertiesAlike) hall

/-- Two endpoints that are alike in two ways are alike in both. -/
theorem alike_of_weak {D D' : Scalar → Scalar → Prop} {S S' : SchemaRelation} {e f : Endpoint}
    (h : Endpoint.Alike D S e f) (h' : Endpoint.Alike D' S' e f) : Endpoint.Alike D S' e f := by
  refine .of_forall (F := fun b : Bool => if b then D else D')
    (T := fun b : Bool => if b then S else S') (fun s t hst => hst true)
    (fun a b hab => hab false) fun b => ?_
  cases b with
  | true => exact h
  | false => exact h'

/-- If the trials of a route agree with each other, any two runs over it agree. -/
theorem agree_of_settled (h : Settled now defaultGroup r) (s : σ) (t : τ) :
    Agree (Option.Rel (DiffersByDraws σ τ now r)) ((ofRoute now defaultGroup r).outcome s)
      ((ofRoute now defaultGroup r).outcome t) := by
  have hfollows := ofRoute_followsDraws now defaultGroup r
  have htrials : ∀ m n, Agree (fun _ _ => True)
      ((ofRoute now defaultGroup r : Synth (Pinned m) _).outcome ⟨⟩)
      ((ofRoute now defaultGroup r : Synth (Pinned n) _).outcome ⟨⟩) :=
    fun m n => (h m n).mono fun _ _ _ => trivial
  have hweak := agree_of_trials hfollows htrials s t
  generalize hx : (ofRoute now defaultGroup r).outcome s = x at hweak
  generalize hy : (ofRoute now defaultGroup r).outcome t = y at hweak
  -- Up to given examples the two runs agree already, as the trials do.
  cases hweak with
  | error e => exact .error e
  | ok hfound =>
      cases hfound with
      | none => exact .ok .none
      | @some e f halike =>
          obtain ⟨trial, hdocumented⟩ := exists_trialOf htrials hx
          have hsame : ∀ m n, DiffersByDraws (Pinned m) (Pinned n) now r (trial m) (trial n) := by
            intro m n
            have hagree := h m n
            rw [hdocumented m, hdocumented n] at hagree
            obtain ⟨⟨hsame⟩⟩ := hagree
            exact hsame
          have hequal : Endpoint.Alike (fun _ _ => True) (fun o o' => o = o') e f :=
            .join (fun _ _ _ _ _ => .inr trivial) (fun _ _ _ h h' => h.trans h'.symm)
              (alike_trial_of_settled hdocumented hsame hx)
              (alike_trial_of_settled hdocumented hsame hy)
          have hgiven := sameGiven_of_trials hdocumented (fun m n => (hsame m n).given) hx hy
          exact .ok (.some ⟨alike_of_weak halike hequal, hgiven⟩)

/-- Endpoints of one route that have the same nested schemas and given examples as a third. -/
theorem DiffersByDraws.of_common {m : Nat} {s : σ} {t : τ} {c e f : Endpoint}
    (he : (ofRoute now defaultGroup r).outcome s = .ok (some e))
    (hf : (ofRoute now defaultGroup r).outcome t = .ok (some f))
    (hce : DiffersByDraws (Pinned m) σ now r c e) (hcf : DiffersByDraws (Pinned m) τ now r c f) :
    DiffersByDraws σ τ now r e f := by
  obtain ⟨hweak⟩ := (ofRoute_followsDraws now defaultGroup r).related he hf
  have hequal : Endpoint.Alike (fun _ _ => True) (fun o o' => o = o') e f :=
    .join (fun _ _ _ _ _ => .inr trivial) (fun _ _ _ h h' => h.trans h'.symm)
      hce.alike.symm hcf.alike.symm
  exact ⟨alike_of_weak hweak hequal, hce.given.join hce.alike hcf.given⟩

/-- On a steady clock, a run over an untangled route agrees with any other one, unless it fails
by a fault. -/
theorem agree_of_isSteady (h : now.IsSteady) (hr : r.IsUntangled) {s : σ}
    (hs : ∀ f, (ofRoute now defaultGroup r).outcome s ≠ .error (.fault f)) (t : τ) :
    Agree (Option.Rel (DiffersByDraws σ τ now r)) ((ofRoute now defaultGroup r).outcome s)
      ((ofRoute now defaultGroup r).outcome t) := by
  have hcoupled := ofRoute_coupled_of_isUntangled (drawsAgree_of_isSteady (σ := σ) (τ := τ) h)
    defaultGroup hr
  -- A steady clock excuses the first run by a fault only, and the other one by nothing.
  obtain ⟨e, ⟨f, rfl⟩, hfault⟩ | ⟨e, he, -⟩ | ⟨hagree, -⟩ := hcoupled s t trivial
  · exact absurd hfault (hs f)
  · exact he.elim
  refine hagree.with_results.mono ?_
  rintro found found' ⟨hrel, hx, hy⟩
  cases hrel with
  | none => exact .none
  | some halike => exact .some ⟨halike, hr.sameGiven hx hy⟩

end

/-! ### Reports -/

/-- What documenting a route alone gives, from any state of any source. -/
def Alone (now : Moment) (defaultGroup : Text) (r : Route)
    (P : ∀ (τ : Type) [RandomSource τ], Except Error (Option Endpoint) → Prop) : Prop :=
  ∀ (τ : Type) [RandomSource τ] (t : τ), P τ ((ofRoute now defaultGroup r : Synth τ _).outcome t)

/-- The lines and endpoints that a list of routes comes to, by the draws of a source: one line
for each route, in order, and one endpoint, in order, for each route that has tags and whose
documentation does not fail. -/
inductive Report (σ : Type) [RandomSource σ] (now : Moment) (defaultGroup : Text) :
    List Route → List Line → List Endpoint → Prop where
  /-- No routes. -/
  | nil : Report σ now defaultGroup [] [] []
  /-- A route with an endpoint, which the route alone also has but for what is drawn. -/
  | documented {r : Route} {e : Endpoint} {rs : List Route} {ls : List Line} {es : List Endpoint}
      (htags : r.tags ≠ [])
      (halone : Alone now defaultGroup r fun τ _ x =>
        ∃ f, x = .ok (some f) ∧ DiffersByDraws σ τ now r e f)
      (hrest : Report σ now defaultGroup rs ls es) :
      Report σ now defaultGroup (r :: rs) (processed r :: ls) (e :: es)
  /-- A route without tags. -/
  | untagged {r : Route} {rs : List Route} {ls : List Line} {es : List Endpoint}
      (htags : r.tags = []) (halone : Alone now defaultGroup r fun _ _ x => x = .ok none)
      (hrest : Report σ now defaultGroup rs ls es) :
      Report σ now defaultGroup (r :: rs) (skipped r "no annotation tags" :: ls) es
  /-- A route that fails, alone as well, and by the same error. -/
  | failed {r : Route} {e : Error} {rs : List Route} {ls : List Line} {es : List Endpoint}
      (htags : r.tags ≠ []) (hskip : e.skipsRoute = true)
      (halone : Alone now defaultGroup r fun _ _ x => x = .error e)
      (hrest : Report σ now defaultGroup rs ls es) :
      Report σ now defaultGroup (r :: rs) (skipped r (e.message?.getD []) :: ls) es

section
variable {σ : Type} [RandomSource σ] {now : Moment} {defaultGroup : Text} {routes : List Route}
  {s : σ} {ls : List Line} {es : List Endpoint}

/-- A run that ends with endpoints reports its routes, if what a route gives in it agrees with
what the route gives alone. The state that a route starts from is whatever the routes before it
left. -/
theorem report_of_agree
    (h : ∀ r ∈ routes, ∀ s : σ, (∀ f, (ofRoute now defaultGroup r).outcome s ≠ .error (.fault f)) →
      ∀ (τ : Type) [RandomSource τ] (t : τ), Agree (Option.Rel (DiffersByDraws σ τ now r))
        ((ofRoute now defaultGroup r).outcome s) ((ofRoute now defaultGroup r).outcome t))
    (hrun : reportOf now defaultGroup routes s = (ls, .ok es)) :
    Report σ now defaultGroup routes ls es := by
  induction routes generalizing s ls es with
  | nil =>
      cases hrun
      exact .nil
  | cons r rest ih =>
      obtain ⟨hr, hrest⟩ := List.forall_mem_cons.mp h
      rw [reportOf_cons] at hrun
      -- What the route gives here, it gives alone from any other state.
      have halone := hr s
      cases hout : (ofRoute now defaultGroup r : Synth σ _).outcome s with
      | error e =>
          rw [hout] at hrun halone
          dsimp only at hrun
          split at hrun
          · rename_i hskip
            have hfault : ∀ f, (.error e : Except Error (Option Endpoint)) ≠ .error (.fault f) := by
              rintro f ⟨⟩
              cases hskip
            rw [Prod.mk.injEq] at hrun
            obtain ⟨rfl, hes⟩ := hrun
            exact .failed (tags_ne_nil_of_ofRoute_eq_error hout) hskip
              (fun τ _ t => (halone hfault τ t).eq_of_error) (ih hrest (Prod.ext rfl hes))
          · cases hrun
      | ok found =>
          have htags := isSome_of_ofRoute_eq_ok hout
          rw [hout] at hrun halone
          cases found with
          | none =>
              rw [Prod.mk.injEq] at hrun
              obtain ⟨rfl, hes⟩ := hrun
              refine .untagged (by simpa using htags) (fun τ _ t => ?_)
                (ih hrest (Prod.ext rfl hes))
              obtain ⟨found, hfound, hrel⟩ := (halone nofun τ t).exists_of_ok
              cases hrel
              exact hfound
          | some e =>
              rw [Prod.mk.injEq] at hrun
              obtain ⟨rfl, hes⟩ := hrun
              obtain ⟨es, hothers, rfl⟩ := exists_of_map_eq_ok hes
              refine .documented (by simpa using htags) (fun τ _ t => ?_)
                (ih hrest (Prod.ext rfl hothers))
              obtain ⟨found, hfound, hrel⟩ := (halone nofun τ t).exists_of_ok
              obtain ⟨hdiffers⟩ := hrel
              exact ⟨_, hfound, hdiffers⟩

/-- Where some run ends with endpoints, some trial does. -/
theorem exists_trial_returns (hrun : (reportOf now defaultGroup routes s).2 = .ok es) :
    ∃ m es', (reportOf now defaultGroup routes (⟨⟩ : Pinned m)).2 = .ok es' := by
  obtain ⟨m, hm⟩ := exists_pinned_right_eq_false now
  refine ⟨m, ?_⟩
  induction routes generalizing s es with
  | nil => exact ⟨[], rfl⟩
  | cons r rest ih =>
      obtain ⟨hskips, es, hes⟩ := returns_cons_iff.mp ⟨es, hrun⟩
      refine returns_cons_iff.mpr ⟨fun e he => ?_, ih hes⟩
      -- The run fails by no fault, and the trial is not excused, so they fail by one error.
      obtain ⟨e', ⟨f, rfl, -⟩, hfault⟩ | ⟨e', he', -⟩ | ⟨hagree, -⟩ :=
        ofRoute_followsDraws now defaultGroup r σ (Pinned m) _ (drawsAgree_pinned σ now m) s ⟨⟩
          trivial
      · exact absurd (hskips _ hfault) nofun
      · exact absurd he' (hm e')
      · rw [he] at hagree
        exact hskips e hagree.eq_of_error_right

/-- A report says of each of its routes that the trials agree. -/
theorem Report.settled {m : Nat} {ls : List Line} {es : List Endpoint}
    (h : Report (Pinned m) now defaultGroup routes ls es) :
    ∀ r ∈ routes, Settled now defaultGroup r := by
  induction h with
  | nil => nofun
  | @documented r e rs ls es htags halone _ ih =>
      refine List.forall_mem_cons.mpr ⟨fun k l => ?_, ih⟩
      -- Alone, the route is documented by both trials as it was in the run.
      obtain ⟨f, hf, hdiffers⟩ := halone (Pinned k) ⟨⟩
      obtain ⟨g, hg, hdiffers'⟩ := halone (Pinned l) ⟨⟩
      have hboth := DiffersByDraws.of_common hf hg hdiffers hdiffers'
      rw [hf, hg]
      exact .ok (.some hboth)
  | untagged _ halone _ ih =>
      refine List.forall_mem_cons.mpr ⟨fun k l => ?_, ih⟩
      rw [halone (Pinned k) ⟨⟩, halone (Pinned l) ⟨⟩]
      exact .ok .none
  | failed _ _ halone _ ih =>
      refine List.forall_mem_cons.mpr ⟨fun k l => ?_, ih⟩
      rw [halone (Pinned k) ⟨⟩, halone (Pinned l) ⟨⟩]
      exact .error _

end

/-- The runs over some routes that end with endpoints report these routes, whatever state of
whatever source they start from. -/
def Reports (now : Moment) (defaultGroup : Text) (routes : List Route) : Prop :=
  ∀ (σ : Type) [RandomSource σ] (s : σ) (ls : List Line) (es : List Endpoint),
    ((documentRoutes now defaultGroup routes).run s).1 = (ls, .ok es) →
      Report σ now defaultGroup routes ls es

/-- Runs over some routes report them exactly if the trials of each route agree with each other,
unless no trial of the whole list ends with endpoints. For untangled routes they always do,
exactly on the clocks that are steady. -/
theorem documentRoutes_report_iff (now : Moment) :
    (∀ defaultGroup routes, Reports now defaultGroup routes ↔
      ((∃ m es, ((documentRoutes now defaultGroup routes).run (⟨⟩ : Pinned m)).1.2 = .ok es) →
        ∀ r ∈ routes, Settled now defaultGroup r)) ∧
    ((∀ defaultGroup routes, (∀ r ∈ routes, r.IsUntangled) → Reports now defaultGroup routes) ↔
      now.IsSteady) := by
  refine ⟨fun defaultGroup routes => ⟨?_, ?_⟩, ?_, ?_⟩
  · rintro hreports ⟨m, es, hes⟩
    exact (hreports (Pinned m) ⟨⟩ _ es (Prod.ext rfl hes)).settled
  · intro hsettled σ _ s ls es hrun
    have hrun : reportOf now defaultGroup routes s = (ls, .ok es) := hrun
    have hall := hsettled (exists_trial_returns (congrArg Prod.snd hrun))
    exact report_of_agree (fun r hr s _ τ _ t => agree_of_settled (hall r hr) s t) hrun
  · -- A run that draws a second with a date reports that all seconds have one.
    rintro hreports m n hm hn ⟨a, ha⟩
    have hroutes : ∀ r ∈ [datedRoute], r.IsUntangled :=
      List.forall_mem_singleton.mpr isUntangled_datedRoute
    obtain ⟨id, hid⟩ := reportOf_datedRoute now [] (⟨⟩ : Pinned m)
    rw [drawnSeconds_pinned, Nat.min_eq_left hm, ha] at hid
    have hreport := hreports [] [datedRoute] hroutes (Pinned m) ⟨⟩ _ _ hid
    cases hreport with
    | documented _ halone _ =>
        obtain ⟨f, hf, -⟩ := halone (Pinned n) ⟨⟩
        obtain ⟨id', hid'⟩ := outcome_datedRoute now [] (⟨⟩ : Pinned n)
        rw [hf, drawnSeconds_pinned, Nat.min_eq_left hn] at hid'
        cases hb : now.drawn n with
        | ok b => exact ⟨b, rfl⟩
        | error f =>
            rw [hb] at hid'
            cases hid'
  · intro hsteady defaultGroup routes hroutes σ _ s ls es hrun
    exact report_of_agree (fun r hr s hs τ _ t => agree_of_isSteady hsteady (hroutes r hr) hs t)
      hrun

/-- At noon, the run of one trial over the tangled route ends with an endpoint, but does not
report it: another trial has another number in the example that the author gives. -/
theorem not_report_tangledRoute :
    ∃ e, ((documentRoutes noon [] [tangledRoute]).run (⟨⟩ : Pinned 0)).1
        = ([processed tangledRoute], .ok [e]) ∧
      ¬ Report (Pinned 0) noon [] [tangledRoute] [processed tangledRoute] [e] := by
  obtain ⟨e, he, hschemas⟩ := exists_of_tangledTrial tangledTrial_zero
  have hrun : reportOf noon [] [tangledRoute] (⟨⟩ : Pinned 0)
      = ([processed tangledRoute], .ok [e]) := by
    rw [reportOf_cons, he]
    rfl
  refine ⟨e, hrun, fun hreport => ?_⟩
  cases hreport with
  | documented _ halone _ =>
      obtain ⟨f, hf, hdiffers⟩ := halone (Pinned 1) ⟨⟩
      obtain ⟨g, hg, hschemas'⟩ := exists_of_tangledTrial tangledTrial_one
      rw [hg] at hf
      cases hf
      -- Equal nested schemas would have equal numbers.
      have hsame : List.Forall₂ (fun a b => a = b) (e.bodyParameters.map (·.2.properties))
          (f.bodyParameters.map (·.2.properties)) :=
        List.rel_map (fun _ _ hpq => hpq.2.properties) hdiffers.alike.bodyParameters
      rw [hschemas, hschemas'] at hsame
      obtain ⟨hsame, -⟩ := List.forall₂_cons.mp hsame
      exact absurd hsame (by decide +kernel)

/-- At the edge of the calendar, a run from one state documents the dated route, and the route
alone from another state fails by an error that ends a run. -/
theorem not_report_edgeClock :
    ∃ es, ((documentRoutes edgeClock [] [datedRoute]).run (⟨⟩ : Pinned 82800)).1
        = ([processed datedRoute], .ok es) ∧
      (ofRoute edgeClock [] datedRoute : Synth (Pinned 0) _).outcome ⟨⟩
        = .error (.fault .badValue) ∧
      ¬ Report (Pinned 82800) edgeClock [] [datedRoute] [processed datedRoute] es := by
  obtain ⟨a, ha⟩ := drawn_edgeClock
  obtain ⟨id, hid⟩ := reportOf_datedRoute edgeClock [] (⟨⟩ : Pinned 82800)
  obtain ⟨id', hid'⟩ := outcome_datedRoute edgeClock [] (⟨⟩ : Pinned 0)
  have hseconds : min 82800 edgeClock.secondsIntoMonth = 82800 := by decide
  rw [drawnSeconds_pinned, hseconds, ha] at hid
  rw [drawnSeconds_pinned, Nat.zero_min, not_drawn_edgeClock] at hid'
  refine ⟨_, hid, hid', ?_⟩
  intro hreport
  cases hreport with
  | documented htags halone hrest =>
      obtain ⟨f, hf, -⟩ := halone (Pinned 0) ⟨⟩
      rw [hid'] at hf
      cases hf

end Generation

end RouteDocs
