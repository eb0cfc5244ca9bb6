import RouteDocs.Proofs.AlikeDocument
import RouteDocs.Proofs.RouteIsolation

/-!
# `RouteDocs.Proofs.StructuralDeterminism`: one document, whatever is drawn

The random source decides which values an example shows where the author gives none, and
nothing else: not which keys there are, nor in which order, not how long a list is or of which
kind a value, and not whether there is a document. `RunsAgree` says this of two runs over the
same routes, settings and base document. They report the same lines, and fail by one error or
end with documents that differ in made-up values only (`SameDocument`). So whatever the author
gives is the same in both, in the nested schemas and in the examples.

`generate_alike_iff` is the main theorem. Any two runs over an input agree exactly if its trials
do. Over routes with untangled blocks they always do, exactly on the clocks on which a draw does
not decide whether a date can be made. A tangled block breaks it on every clock
(`generate_tangledRoute_differs`), and a date at the edge of the calendar
(`generate_edgeClock_differs`).
-/

set_option autoImplicit false

namespace RouteDocs

open Synthesis Endpoint

namespace Generation

/-! ### Runs that agree -/

section
variable (σ τ : Type) [RandomSource σ] [RandomSource τ] (now : Moment)

end

/-! ### Runs over routes -/

section
variable {σ τ : Type} [RandomSource σ] [RandomSource τ] {now : Moment} {defaultGroup : Text}
  {R : Endpoint → Endpoint → Prop} {r : Route} {rest routes : List Route}

/-- Two runs over routes report the same lines, and have endpoints that `R` relates, or end by
one error. -/
def SameReport (now : Moment) (defaultGroup : Text) (R : Endpoint → Endpoint → Prop)
    (routes : List Route) (s : σ) (t : τ) : Prop :=
  (reportOf now defaultGroup routes s).1 = (reportOf now defaultGroup routes t).1 ∧
    Agree (List.Forall₂ R) (reportOf now defaultGroup routes s).2
      (reportOf now defaultGroup routes t).2

/-- Two runs agree if they agree on the first route and, unless this ends them, on the others. -/
theorem SameReport.cons {s : σ} {t : τ}
    (hfirst : Agree (Option.Rel R) ((ofRoute now defaultGroup r).outcome s)
      ((ofRoute now defaultGroup r).outcome t))
    (hrest : (∀ e, (ofRoute now defaultGroup r).outcome s = .error e → e.skipsRoute = true) →
      SameReport now defaultGroup R rest ((ofRoute now defaultGroup r).after s)
        ((ofRoute now defaultGroup r).after t)) :
    SameReport now defaultGroup R (r :: rest) s t := by
  unfold SameReport at hrest ⊢
  rw [reportOf_cons, reportOf_cons]
  generalize (ofRoute now defaultGroup r).outcome s = x,
    (ofRoute now defaultGroup r).outcome t = y at hfirst hrest
  dsimp only
  cases hfirst with
  | error e =>
      by_cases hskip : e.skipsRoute = true
      · obtain ⟨hlines, hendpoints⟩ := hrest fun e' he' => Except.error.inj he' ▸ hskip
        simp only [hskip, if_true]
        exact ⟨by rw [hlines], hendpoints⟩
      -- An error that skips no route ends both runs.
      · simp only [hskip]
        exact ⟨rfl, .error e⟩
  | ok hfound =>
      obtain ⟨hlines, hendpoints⟩ := hrest nofun
      cases hfound with
      | none => exact ⟨by rw [hlines], hendpoints⟩
      | some halike => exact ⟨by rw [hlines], hendpoints.map fun _ _ hes => .cons halike hes⟩

/-- The trials over routes report the same lines, and if two of them end by errors, by one. -/
def TrialsReport (now : Moment) (defaultGroup : Text) (routes : List Route) : Prop :=
  ∀ m n, (reportOf now defaultGroup routes (⟨⟩ : Pinned m)).1
      = (reportOf now defaultGroup routes (⟨⟩ : Pinned n)).1 ∧
    ∀ e e', (reportOf now defaultGroup routes (⟨⟩ : Pinned m)).2 = .error e →
      (reportOf now defaultGroup routes (⟨⟩ : Pinned n)).2 = .error e' → e = e'

/-- A run whose first route fails by a fault ends there. -/
theorem reportOf_cons_fault {s : σ} {f : Fault}
    (h : (ofRoute now defaultGroup r).outcome s = .error (.fault f)) :
    reportOf now defaultGroup (r :: rest) s = ([], .error (.fault f)) := by
  rw [reportOf_cons, h]
  rfl

/-- A run without lines over at least one route ends by the error of the first one. -/
theorem error_of_lines_eq_nil {s : σ} (h : (reportOf now defaultGroup (r :: rest) s).1 = []) :
    ∃ e, (ofRoute now defaultGroup r).outcome s = .error e ∧
      (reportOf now defaultGroup (r :: rest) s).2 = .error e := by
  rw [reportOf_cons] at h ⊢
  cases hout : (ofRoute now defaultGroup r).outcome s with
  | error e =>
      rw [hout] at h
      refine ⟨e, rfl, ?_⟩
      by_cases hskip : e.skipsRoute = true
      · simp [hskip] at h
      · simp [hskip]
  | ok found =>
      rw [hout] at h
      cases found with
      | none => cases h
      | some e => cases h

/-- A run that goes on after its first route has one line more than the run over the others, and
fails as that one does. -/
theorem reportOf_cons_of_skips (rest : List Route) {s : σ}
    (h : ∀ e, (ofRoute now defaultGroup r).outcome s = .error e → e.skipsRoute = true) :
    ∃ line add, reportOf now defaultGroup (r :: rest) s
      = (line :: (reportOf now defaultGroup rest ((ofRoute now defaultGroup r).after s)).1,
        (reportOf now defaultGroup rest ((ofRoute now defaultGroup r).after s)).2.map add) := by
  rw [reportOf_cons]
  generalize reportOf now defaultGroup rest ((ofRoute now defaultGroup r).after s) = others
  -- The others are added to by nothing where the first route has no endpoint.
  have hsame : others.2 = others.2.map fun es => es := by
    cases others.2 <;> rfl
  cases hout : (ofRoute now defaultGroup r).outcome s with
  | error e =>
      refine ⟨skipped r (e.message?.getD []), fun es => es, ?_⟩
      dsimp only
      rw [if_pos (h e hout), ← hsame]
  | ok found =>
      cases found with
      | none => exact ⟨_, fun es => es, by rw [← hsame]⟩
      | some e => exact ⟨_, (e :: ·), rfl⟩

/-- The trials agree on the first route: the failure of one of them would show in the lines. -/
theorem TrialsReport.head (h : TrialsReport now defaultGroup (r :: rest)) (m n : Nat) :
    Agree (fun _ _ => True) ((ofRoute now defaultGroup r : Synth (Pinned m) _).outcome ⟨⟩)
      ((ofRoute now defaultGroup r : Synth (Pinned n) _).outcome ⟨⟩) := by
  -- A trial that fails by a fault has no lines, so no other has any, and all end by one error.
  have hfault : ∀ k l f, (ofRoute now defaultGroup r : Synth (Pinned k) _).outcome ⟨⟩
      = .error (.fault f) → (ofRoute now defaultGroup r : Synth (Pinned l) _).outcome ⟨⟩
      = .error (.fault f) := by
    intro k l f hk
    obtain ⟨hlines, herrors⟩ := h k l
    rw [reportOf_cons_fault hk] at hlines herrors
    obtain ⟨e, hl, hreport⟩ := error_of_lines_eq_nil hlines.symm
    rw [hl, herrors _ _ rfl hreport]
  obtain ⟨e, ⟨f, rfl⟩, hm⟩ | ⟨e, ⟨f, rfl⟩, hn⟩ | ⟨hagree, -⟩ :=
    ofRoute_followsDraws now defaultGroup r (Pinned m) (Pinned n) .faults
      (drawsAgree_faults _ _ now) ⟨⟩ ⟨⟩ trivial
  · rw [hm, hfault m n f hm]
    exact .error _
  · rw [hn, hfault n m f hn]
    exact .error _
  · exact hagree.mono fun _ _ _ => trivial

/-- Unless the first route ends them, the trials over the others report the same. -/
theorem TrialsReport.tail (h : TrialsReport now defaultGroup (r :: rest))
    (hskip : ∀ m e, (ofRoute now defaultGroup r : Synth (Pinned m) _).outcome ⟨⟩ = .error e →
      e.skipsRoute = true) : TrialsReport now defaultGroup rest := by
  intro m n
  obtain ⟨hlines, herrors⟩ := h m n
  obtain ⟨line, add, hm⟩ := reportOf_cons_of_skips rest (hskip m)
  obtain ⟨line', add', hn⟩ := reportOf_cons_of_skips rest (hskip n)
  rw [hm, hn] at hlines herrors
  refine ⟨(List.cons.inj hlines).2, fun e e' he he' => herrors e e' ?_ ?_⟩
  · exact congrArg (Except.map add) he
  · exact congrArg (Except.map add') he'

end

/-! ### Documents -/

section
variable {σ τ : Type} [RandomSource σ] [RandomSource τ] {now : Moment} {settings : Settings}
  {base : List (Scalar × Value)} {routes : List Route}

end

/-! ### From trials to runs -/

section
variable {σ τ : Type} [RandomSource σ] [RandomSource τ] {now : Moment} {defaultGroup : Text}
  {routes : List Route}

end

/-! ### The main theorem -/

/-- At the edge of the calendar one run over the dated route ends with a document, and another
one by an error. -/
theorem generate_edgeClock_differs :
    ∃ v, ((generate edgeClock plainSettings [] [datedRoute]).run (⟨⟩ : Pinned 82800)).1
        = ([processed datedRoute], .ok v) ∧
      ((generate edgeClock plainSettings [] [datedRoute]).run (⟨⟩ : Pinned 0)).1
        = ([], .error (.fault .badValue)) := by
  obtain ⟨a, ha⟩ := drawn_edgeClock
  obtain ⟨v, hv⟩ := documentOf_datedRoute edgeClock (⟨⟩ : Pinned 82800)
  obtain ⟨w, hw⟩ := documentOf_datedRoute edgeClock (⟨⟩ : Pinned 0)
  have hseconds : min 82800 edgeClock.secondsIntoMonth = 82800 := by decide
  rw [drawnSeconds_pinned, hseconds, ha] at hv
  rw [drawnSeconds_pinned, Nat.zero_min, not_drawn_edgeClock] at hw
  exact ⟨v, hv, hw⟩

end Generation

end RouteDocs
