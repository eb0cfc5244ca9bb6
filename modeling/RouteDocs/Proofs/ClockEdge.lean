import RouteDocs.Proofs.PinnedDraws

/-!
# `RouteDocs.Proofs.ClockEdge`: clocks at the edge of the calendar

A date is drawn as a second of the month so far, and taken to universal time on the way. In
the first days of year 1, and in the last ones of year 9999, an offset can put a part of the
month outside of the calendar. There a draw decides whether a date can be made at all. A clock
is uniform where it does not (`Moment.IsUniform`).

`worstSecond` is the first second without a date, if there is one, so a clock on which this
second has a date has one for all.

`datedRoute`, a route with a path variable of type `date`, shows what a single second of the
month does, and `edgeClock` is a clock on which this matters.
-/

set_option autoImplicit false

namespace RouteDocs

open Synthesis

namespace Moment

/-- Of the seconds of the month so far, all have a date or none has, by one fault. -/
def IsUniform (now : Moment) : Prop :=
  ∀ m n, m ≤ now.secondsIntoMonth → n ≤ now.secondsIntoMonth →
    Agree (fun _ _ => True) (now.drawn m) (now.drawn n)

/-- Of the seconds of the month so far, all have a date or none has, by whatever faults. -/
def IsSteady (now : Moment) : Prop :=
  ∀ m n, m ≤ now.secondsIntoMonth → n ≤ now.secondsIntoMonth → (∃ a, now.drawn m = .ok a) →
    ∃ b, now.drawn n = .ok b

/-- The first second of the month so far that has no date, or the first second of all. -/
def worstSecond (now : Moment) : Nat :=
  ((List.range (now.secondsIntoMonth + 1)).find? fun k => !(now.drawn k).isOk).getD 0

/-- The worst second is one of the month up to now. -/
theorem worstSecond_le (now : Moment) : now.worstSecond ≤ now.secondsIntoMonth := by
  unfold worstSecond
  cases h : (List.range (now.secondsIntoMonth + 1)).find? fun k => !(now.drawn k).isOk with
  | none => exact Nat.zero_le _
  | some k => exact Nat.le_of_lt_succ (List.mem_range.mp (List.mem_of_find?_eq_some h))

/-- Where the worst second has a date, every second has one. -/
theorem exists_drawn_of_worstSecond {now m : Moment} (h : now.drawn now.worstSecond = .ok m)
    {n : Nat} (hn : n ≤ now.secondsIntoMonth) : ∃ a, now.drawn n = .ok a := by
  unfold worstSecond at h
  cases hfind : (List.range (now.secondsIntoMonth + 1)).find? fun k => !(now.drawn k).isOk with
  | some k =>
      have hbad := List.find?_some hfind
      rw [hfind, Option.getD_some] at h
      rw [h] at hbad
      cases hbad
  | none =>
      have hok := List.find?_eq_none.mp hfind n (List.mem_range.mpr (Nat.lt_succ_of_le hn))
      cases hdrawn : now.drawn n with
      | ok a => exact ⟨a, rfl⟩
      | error f => rw [hdrawn] at hok; exact absurd rfl hok

end Moment

namespace Synthesis

variable {σ τ : Type} [RandomSource σ] [RandomSource τ] {now : Moment}

/-- On a steady clock, draws agree if the first one gives something. -/
theorem drawsAgree_of_isSteady (h : now.IsSteady) :
    DrawsAgree σ τ .faultsLeft AnyStates (Drawn σ τ now now) now now := by
  refine drawsAgree_of fun s t => ?_
  cases hs : now.drawn (drawnSeconds now s) with
  | error f => exact .inl ⟨f, ⟨f, rfl⟩, rfl⟩
  | ok a =>
      obtain ⟨b, hb⟩ := h _ _ (drawnSeconds_le now s) (drawnSeconds_le now t) ⟨a, hs⟩
      rw [hb]
      exact .inr (.inr (.ok trivial))

end Synthesis

/-! ### A route that draws a moment -/

/-- A route with a path variable of type `date`. -/
def datedRoute : Route :=
  { uri := "on/\x7bday\x7d"
    methods := ["GET"]
    handler := "Days@show"
    tags := [{ name := "group", content := "days" }]
    arguments := [{ name := "day", type := some "date" }] }

/-- The dated route's endpoint, as far as the moment drawn decides it. -/
def datedEndpoint (defaultGroup id : Text) (m : Moment) : Endpoint :=
  { id := id
    group := datedRoute.groupOr defaultGroup
    title := datedRoute.title
    description := []
    methods := datedRoute.listedMethods
    uri := datedRoute.uri
    parameters :=
      [("day",
        { name := "day", type := "date", location := "path", required := true
          value := .str (m.text 'T') })]
    bodyParameters := []
    authenticated := datedRoute.isAuthenticated
    responses := [] }

/-- Documenting the dated route is drawing a moment. -/
theorem ofRoute_datedRoute {σ : Type} [RandomSource σ] (now : Moment) (defaultGroup : Text) :
    ∃ id, (Endpoint.ofRoute now defaultGroup datedRoute : Synth σ _)
      = drawMoment now >>= fun m => pure (some (datedEndpoint defaultGroup id m)) := by
  obtain ⟨id, hid⟩ : ∃ id, Route.signatureId datedRoute.uri datedRoute.listedMethods = .ok id :=
    ⟨_, rfl⟩
  refine ⟨id, ?_⟩
  have hpath : (Endpoint.pathParameters now
        (Entries.ofList (datedRoute.arguments.map fun a => (a.name, a))) datedRoute.title
        (Template.variableNames datedRoute.uri) : Synth σ _)
      = drawMoment now >>= fun m => pure [(Scalar.str "day",
          { name := "day", type := "date", location := "path", required := true
            value := .str (m.text 'T') })] := by
    have hnames : Template.variableNames datedRoute.uri = [Text.ofString "day"] := by decide
    have hargument : Entries.get? (Text.ofString "day")
        (Entries.ofList (datedRoute.arguments.map fun a => (a.name, a)))
        = some { name := "day", type := some "date" } := by decide
    have hsynthesize : (synthesize now (normalizeType "date") none : Synth σ _)
        = drawMoment now >>= fun m => pure (.str (m.text 'T')) := rfl
    rw [hnames, Endpoint.pathParameters, hargument]
    simp only [Endpoint.pathParameters, Endpoint.synthesized, Option.getD_some, hsynthesize,
      bind_assoc, pure_bind]
    rfl
  -- After the path variable nothing is drawn: the only tag is that of the group.
  rw [Endpoint.ofRoute, if_neg (by decide)]
  dsimp only
  rw [hpath, hid, bind_assoc]
  rfl

/-- So the second that is drawn decides. -/
theorem outcome_datedRoute {σ : Type} [RandomSource σ] (now : Moment) (defaultGroup : Text) (s : σ) :
    ∃ id, (Endpoint.ofRoute now defaultGroup datedRoute).outcome s
      = ((now.drawn (drawnSeconds now s)).map fun m =>
          some (datedEndpoint defaultGroup id m)).mapError .fault := by
  obtain ⟨id, hid⟩ := ofRoute_datedRoute (σ := σ) now defaultGroup
  refine ⟨id, ?_⟩
  have hdraw := outcome_drawMoment now s
  rw [hid]
  cases hm : now.drawn (drawnSeconds now s) with
  | ok m =>
      rw [hm] at hdraw
      rw [Synth.outcome_bind_ok hdraw]
      rfl
  | error f =>
      rw [hm] at hdraw
      rw [Synth.outcome_bind_error hdraw]
      rfl

/-- The first evening of the calendar, twelve hours ahead of universal time. Half of that day
is before the calendar begins. -/
def edgeClock : Moment := ⟨⟨1, 1, 1⟩, 23, 0, 0, 0, some (.ofMinutes 720)⟩

/-- The last second so far has a date there. -/
theorem drawn_edgeClock : ∃ a, edgeClock.drawn 82800 = .ok a := by
  have hgood : (edgeClock.drawn 82800).toOption.isSome = true := by decide +kernel
  obtain ⟨a, ha⟩ := Option.isSome_iff_exists.mp hgood
  exact ⟨a, eq_ok_of_toOption_eq_some ha⟩

/-- The first one has none. -/
theorem not_drawn_edgeClock : edgeClock.drawn 0 = .error .badValue := by
  decide +kernel

/-- A noon in May, with all of the month so far within the calendar. -/
def noon : Moment := ⟨⟨2024, 5, 17⟩, 12, 0, 0, 0, some (.ofMinutes 0)⟩

end RouteDocs
