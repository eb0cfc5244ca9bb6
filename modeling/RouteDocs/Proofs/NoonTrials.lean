import RouteDocs.Proofs.AuthorExamples
import RouteDocs.Proofs.TimeStamps

/-!
# `RouteDocs.Proofs.NoonTrials`: two trials at noon

On an ordinary clock every second of the month has a date, so a trial there fails by nothing
that is drawn. Of any two such trials, those of 0 and of 1 are enough to tell what is made up:
the whole numbers, prices, truth values, texts and dates that they make all differ.

This module puts that to use for the examples that a schema gives. `Shows` says that from every
state, on every clock, `composite` shows a value where the tree has the value of a field, unless
it fails by the clock. `shows_iff` says that it does so exactly if both trials show it.
-/

set_option autoImplicit false

namespace RouteDocs

open Text Synthesis

/-! ### What both trials make -/

/-- Every second of the month has a date at noon. -/
theorem exists_drawn_noon {k : Nat} (hk : k ≤ noon.secondsIntoMonth) : ∃ a, noon.drawn k = .ok a :=
  Moment.exists_drawn_of_year (by decide) (by decide) (by decide) hk

/-- A run is excused beside another one where it fails by the fault of a second of its month. -/
def Excuse.clock (now : Moment) : Excuse where
  left e := ∃ f, e = .fault f ∧ ∃ k ≤ now.secondsIntoMonth, now.drawn k = .error f
  right _ := False

namespace Synthesis

/-- The first second of the month and the one after it make different dates. -/
theorem text_ne_at_noon {a b : Moment} (ha : noon.drawn (min 0 noon.secondsIntoMonth) = .ok a)
    (hb : noon.drawn (min 1 noon.secondsIntoMonth) = .ok b) : a.text 'T' ≠ b.text 'T' := by
  have hfirst : (noon.drawn (min 0 noon.secondsIntoMonth)).map (·.text 'T')
      = .ok "2024-05-01T00:00:00+00:00" := by
    decide +kernel
  have hsecond : (noon.drawn (min 1 noon.secondsIntoMonth)).map (·.text 'T')
      = .ok "2024-05-01T00:00:01+00:00" := by
    decide +kernel
  rw [ha] at hfirst
  rw [hb] at hsecond
  have ha' : a.text 'T' = "2024-05-01T00:00:00+00:00" := Except.ok.inj hfirst
  have hb' : b.text 'T' = "2024-05-01T00:00:01+00:00" := Except.ok.inj hsecond
  rw [ha', hb']
  decide

/-- The trials of 0 and of 1 at noon both make nothing but a reference that says nothing. -/
theorem Made.eq_null_at_noon {type type' : Text} {c : Scalar} (h : Made (Pinned 0) noon type c)
    (h' : Made (Pinned 1) noon type' c) : c = .null := by
  obtain hnull | ⟨-, a, b, ha, hb, hca, hcb⟩ := h.null_or_date h'
  · exact hnull
  · exact absurd (Scalar.str.inj (hca.symm.trans hcb)) (text_ne_at_noon ha hb)

section
variable {σ : Type} [RandomSource σ] {now : Moment}

/-- A run agrees with every trial at noon, unless it fails by its clock. -/
theorem drawsAgree_noon (σ : Type) [RandomSource σ] (now : Moment) (m : Nat) :
    DrawsAgree σ (Pinned m) (.clock now) AnyStates (Drawn σ (Pinned m) now noon) now noon := by
  refine drawsAgree_of fun s t => ?_
  -- The trial never fails by its clock, whatever it draws.
  obtain ⟨b, hb⟩ := exists_drawn_noon (drawnSeconds_le noon t)
  rw [hb]
  cases hs : now.drawn (drawnSeconds now s) with
  | ok a => exact .inr (.inr (.ok trivial))
  | error f => exact .inl ⟨f, ⟨f, rfl, _, drawnSeconds_le now s, hs⟩, rfl⟩

/-- A scalar that is the trial's own, or made by both for one type, in both of these trials at
noon, is the trials' own. -/
theorem eq_of_pinned_at_noon {x c : Scalar}
    (h : ∀ m : Fin 2, x = c ∨ Drawn σ (Pinned m) now noon x c) : x = c := by
  obtain hxc | ⟨type, hx, hc⟩ := h 0
  · exact hxc
  obtain hxc | ⟨type', -, hc'⟩ := h 1
  · exact hxc
  -- Made by both trials, the scalar is a reference that says nothing.
  obtain rfl := hc.eq_null_at_noon hc'
  exact hx.looks.eq_null hc.looks

/-- A value that is alike to those of both trials at noon, where these have one value, is that
value. -/
theorem eq_of_alike_at_noon {v w : Value}
    (h : ∀ m : Fin 2,
      Alike (Drawn σ (Pinned m) now noon) (Drawn σ (Pinned m) now noon) .sample v w) :
    v = w :=
  Alike.eq_of_forall (fun _ _ => eq_of_pinned_at_noon) (fun _ _ => eq_of_pinned_at_noon)
    (.inl rfl) h

end

/-! ### What a schema shows -/

/-- From every state of every source, the example of the schema has this value at the path of
the field. Only where a second of the month has no date may there be no example. -/
def Shows (schema : Value) (f : Field) (x : Value) : Prop :=
  ∀ (σ : Type) [RandomSource σ] (now : Moment) (s : σ),
    (∃ e, (Excuse.clock now).left e ∧ (composite now schema).outcome s = .error e) ∨
      ∃ made, (composite now schema).outcome s = .ok made ∧ PathTree.readAt made f.keys = some x

/-- What the trial of `m` at noon shows at the path of the field. -/
def trialShown (m : Nat) (schema : Value) (f : Field) : Option Value :=
  ((composite noon schema).outcome (⟨⟩ : Pinned m)).toOption.bind fun made =>
    PathTree.readAt made f.keys

/-- A trial shows a value at the path of a field exactly if it ends with an example that has the
value there. -/
theorem trialShown_eq_some_iff {m : Nat} {schema x : Value} {f : Field} :
    trialShown m schema f = some x ↔
      ∃ made, (composite noon schema).outcome (⟨⟩ : Pinned m) = .ok made ∧
        PathTree.readAt made f.keys = some x := by
  rw [trialShown, Option.bind_eq_some_iff]
  refine exists_congr fun made => and_congr_left fun _ => ⟨eq_ok_of_toOption_eq_some, fun h => ?_⟩
  rw [h]
  rfl

/-- A run that returns shows what both trials show. -/
theorem readAt_of_trialShown {schema x : Value} {f : Field}
    (h : ∀ m : Fin 2, trialShown m schema f = some x) {σ : Type} [RandomSource σ] {now : Moment}
    {s : σ} {made : Value} (hmade : (composite now schema).outcome s = .ok made) :
    PathTree.readAt made f.keys = some x := by
  have hread : ∀ m : Fin 2, Option.Rel
      (Alike (Drawn σ (Pinned m) now noon) (Drawn σ (Pinned m) now noon) .sample)
      (PathTree.readAt made f.keys) (some x) := by
    intro m
    obtain ⟨other, hother, hx⟩ := trialShown_eq_some_iff.mp (h m)
    obtain ⟨e, -, he⟩ | ⟨e, he, -⟩ | ⟨hagree, -⟩ :=
      composite_coupled (drawsAgree_noon σ now m) schema s ⟨⟩ trivial
    · rw [hmade] at he
      cases he
    · exact he.elim
    · rw [hmade, hother] at hagree
      obtain ⟨halike⟩ := hagree
      rw [← hx]
      exact PathTree.readAt_alike halike f.keys
  -- A value that is alike to what both trials show is what they show.
  generalize PathTree.readAt made f.keys = shown at hread
  cases shown with
  | none => cases hread 0
  | some y =>
      have halike : ∀ m : Fin 2,
          Alike (Drawn σ (Pinned m) now noon) (Drawn σ (Pinned m) now noon) .sample y x := by
        intro m
        cases hread m with
        | some halike => exact halike
      rw [eq_of_alike_at_noon halike]

/-- A schema shows a value exactly if both trials at noon show it. -/
theorem shows_iff {schema x : Value} {f : Field} :
    Shows schema f x ↔ trialShown 0 schema f = some x ∧ trialShown 1 schema f = some x := by
  constructor
  · intro h
    have htrial : ∀ m, trialShown m schema f = some x := by
      intro m
      -- At noon there is no second that would excuse the trial.
      obtain ⟨e, ⟨d, -, k, hk, hd⟩, -⟩ | hmade := h (Pinned m) noon ⟨⟩
      · obtain ⟨a, ha⟩ := exists_drawn_noon hk
        rw [ha] at hd
        cases hd
      · exact trialShown_eq_some_iff.mpr hmade
    exact ⟨htrial 0, htrial 1⟩
  · rintro ⟨hzero, hone⟩ σ _ now s
    have htrials : ∀ m : Fin 2, trialShown m schema f = some x := by
      intro m
      obtain rfl | rfl : m = 0 ∨ m = 1 := by omega
      · exact hzero
      · exact hone
    obtain ⟨other, hother, -⟩ := trialShown_eq_some_iff.mp hzero
    obtain hleft | ⟨e, he, -⟩ | ⟨hagree, -⟩ :=
      composite_coupled (drawsAgree_noon σ now 0) schema s ⟨⟩ trivial
    · exact .inl hleft
    · exact he.elim
    · rw [hother] at hagree
      cases hmade : (composite now schema).outcome s with
      | error e =>
          rw [hmade] at hagree
          cases hagree
      | ok made => exact .inr ⟨made, rfl, readAt_of_trialShown htrials hmade⟩

end Synthesis

end RouteDocs
