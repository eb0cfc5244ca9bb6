import RouteDocs.Generation
import RouteDocs.Proofs.ClockEdge

/-!
# `RouteDocs.Proofs.RouteRuns`: runs over a list of routes

A run documents its routes one after the other, from one source. `reportOf_cons` says what
the first route does to the rest of a run: it adds a line and perhaps an endpoint, or it ends
the run, and it leaves the state that the next route starts from. Everything that is proved of
whole runs goes by that step.

`Documents` tells which endpoint a run has from which route, and `documentOf_eq` takes a run
over routes to the document that is put together from it.
-/

set_option autoImplicit false

namespace RouteDocs.Generation

open Endpoint Synthesis

variable {σ : Type} [RandomSource σ] {now : Moment} {defaultGroup : Text}

/-! ### Runs over routes -/

/-- The lines of a run over routes, and its endpoints or failure. -/
def reportOf (now : Moment) (defaultGroup : Text) (routes : List Route) (s : σ) :
    List Line × Except Error (List Endpoint) :=
  ((documentRoutes now defaultGroup routes).run s).1

/-- The first route of a run, by what documenting it gives. -/
theorem reportOf_cons (now : Moment) (defaultGroup : Text) (r : Route) (rest : List Route) (s : σ) :
    reportOf now defaultGroup (r :: rest) s
      = let others := reportOf now defaultGroup rest ((ofRoute now defaultGroup r).after s)
        match (ofRoute now defaultGroup r).outcome s with
        | .error e =>
          if e.skipsRoute then (skipped r (e.message?.getD []) :: others.1, others.2)
          else ([], .error e)
        | .ok none => (skipped r "no annotation tags" :: others.1, others.2)
        | .ok (some e) => (processed r :: others.1, others.2.map (e :: ·)) := by
  unfold reportOf Synth.outcome Synth.after
  rw [documentRoutes]
  rw [StateT.run_bind]
  -- The match of the program is on the result of this run, which both sides share.
  generalize hrun : (ofRoute now defaultGroup r).run.run s = run
  obtain ⟨result, next⟩ := run
  cases result with
  | error e =>
      by_cases hskip : e.skipsRoute = true
      · simp only [hskip, if_true, bind, StateT.run]
        rfl
      · simp only [hskip, bind, StateT.run]
        rfl
  | ok found =>
      cases found with
      | none => rfl
      | some e => rfl

/-- A run returns when its first route is documented or left out, and the run over the others
returns. -/
theorem returns_cons_iff {r : Route} {rest : List Route} {s : σ} :
    (∃ es, (reportOf now defaultGroup (r :: rest) s).2 = .ok es)
      ↔ (∀ e, (ofRoute now defaultGroup r).outcome s = .error e → e.skipsRoute = true) ∧
        ∃ es, (reportOf now defaultGroup rest ((ofRoute now defaultGroup r).after s)).2
          = .ok es := by
  rw [reportOf_cons]
  generalize reportOf now defaultGroup rest ((ofRoute now defaultGroup r).after s) = others
  cases hout : (ofRoute now defaultGroup r).outcome s with
  | error e =>
      by_cases hskip : e.skipsRoute = true
      · simp [hskip]
      · simp [hskip]
  | ok found =>
      cases found with
      | none => simp
      | some e =>
          obtain ⟨ls, result⟩ := others
          cases result <;> simp [Except.map]

/-- A route without tags is not documented, and a route with tags is documented or fails. -/
theorem isSome_of_ofRoute_eq_ok {r : Route} {s : σ} {found : Option Endpoint}
    (h : (ofRoute now defaultGroup r : Synth σ _).outcome s = .ok found) :
    found.isSome = !r.tags.isEmpty := by
  rw [ofRoute] at h
  split at h
  · rename_i htags
    cases h
    simp [htags]
  · rename_i htags
    obtain ⟨path, -, h⟩ := Synth.outcome_bind_eq_ok_iff.mp h
    obtain ⟨query, -, h⟩ := Synth.outcome_bind_eq_ok_iff.mp h
    obtain ⟨id, -, h⟩ := Synth.outcome_bind_eq_ok_iff.mp h
    obtain ⟨body, -, h⟩ := Synth.outcome_bind_eq_ok_iff.mp h
    obtain ⟨responses, -, h⟩ := Synth.outcome_bind_eq_ok_iff.mp h
    cases h
    simpa using htags

/-- A route fails by its own fault only: a route without tags does not. -/
theorem tags_ne_nil_of_ofRoute_eq_error {r : Route} {s : σ} {e : Error}
    (h : (ofRoute now defaultGroup r : Synth σ _).outcome s = .error e) : r.tags ≠ [] := by
  intro htags
  rw [ofRoute, htags] at h
  cases h

/-- The lines of a whole run, and its document or failure. -/
def documentOf (now : Moment) (settings : Settings) (base : List (Scalar × Value))
    (routes : List Route) (s : σ) : List Line × Except Error Value :=
  ((generate now settings base routes).run s).1

/-- A whole run documents the routes, if the samples can be planned. -/
theorem documentOf_eq (now : Moment) (settings : Settings) (base : List (Scalar × Value))
    (routes : List Route) (s : σ) :
    documentOf now settings base routes s
      = match Document.samplePlan settings with
        | .error e => ([], .error e)
        | .ok plan =>
          let report := reportOf now settings.defaultGroup routes s
          (report.1, report.2.bind fun es =>
            (Document.assemble settings plan es base).mapError .fault) := by
  unfold documentOf reportOf
  rw [generate]
  cases Document.samplePlan settings <;> rfl

/-! ### The dated route -/

/-- A run over the dated route alone is decided by the second that is drawn. -/
theorem reportOf_datedRoute (now : Moment) (defaultGroup : Text) (s : σ) :
    ∃ id, reportOf now defaultGroup [datedRoute] s
      = match now.drawn (drawnSeconds now s) with
        | .ok m => ([processed datedRoute], .ok [datedEndpoint defaultGroup id m])
        | .error f => ([], .error (.fault f)) := by
  obtain ⟨id, hid⟩ := outcome_datedRoute now defaultGroup s
  refine ⟨id, ?_⟩
  rw [reportOf_cons, hid]
  cases now.drawn (drawnSeconds now s) <;> rfl

/-- Settings without code samples. -/
def plainSettings : Settings := { languageTabs := [] }

/-- A whole run over the dated route. Without code samples nothing else can fail. -/
theorem documentOf_datedRoute (now : Moment) (s : σ) :
    ∃ v, documentOf now plainSettings [] [datedRoute] s
      = match now.drawn (drawnSeconds now s) with
        | .ok _ => ([processed datedRoute], .ok v)
        | .error f => ([], .error (.fault f)) := by
  obtain ⟨id, hid⟩ := reportOf_datedRoute now plainSettings.defaultGroup s
  have hplan : Document.samplePlan plainSettings = .ok .empty := rfl
  rw [documentOf_eq, hplan]
  dsimp only
  rw [hid]
  cases hm : now.drawn (drawnSeconds now s) with
  | error f => exact ⟨.null, rfl⟩
  | ok m =>
      obtain ⟨v, hv⟩ : ∃ v, Document.assemble plainSettings .empty
          [datedEndpoint plainSettings.defaultGroup id m] [] = .ok v := ⟨_, rfl⟩
      refine ⟨v, Prod.ext rfl ?_⟩
      show (Document.assemble plainSettings .empty
        [datedEndpoint plainSettings.defaultGroup id m] []).mapError Error.fault = .ok v
      rw [hv]
      rfl

end RouteDocs.Generation
