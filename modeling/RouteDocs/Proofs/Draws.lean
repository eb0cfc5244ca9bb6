import RouteDocs.Proofs.AlikeTree

/-!
# `RouteDocs.Proofs.Draws`: what one draw gives

Where the author gives no example, `synthesize` makes one up. This module says what can come
of that, without any state. `Made σ now type x` holds of the scalars that some state of the
source `σ` makes for a type, and `Drawn` of two scalars that two sources make for one type.
`Looks` tells how a made-up scalar looks.

Most types have an example from every state. A date is the one exception: it is a moment of
the current month, taken through a time stamp, and where the moment that was drawn cannot be
taken there is none. `outcome_synthesize` sorts the types by that.

`DrawsAgree` says that two runs of `synthesize` agree, and `drawsAgree_of` says when they do:
whenever for the seconds that two states draw both dates can be made, or neither, or the
failure of one excuses the other.
-/

set_option autoImplicit false

namespace RouteDocs

open Text Synthesis

/-- Any two states, also of different sources. -/
abbrev AnyStates {σ τ : Type} : σ → τ → Prop := fun _ _ => True

namespace Synthesis

/-! ### Made-up scalars -/

/-- The scalars that a source makes for a type, from some state of it. -/
def Made (σ : Type) [RandomSource σ] (now : Moment) (type : Text) (x : Scalar) : Prop :=
  ∃ s : σ, (synthesize now type none).outcome s = .ok (.scalar x)

/-- Two scalars that two sources make for one type. -/
def Drawn (σ τ : Type) [RandomSource σ] [RandomSource τ] (now now' : Moment) (x y : Scalar) :
    Prop :=
  ∃ type, Made σ now type x ∧ Made τ now' type y

/-- A text that may be drawn. -/
def IsDrawnText (n : Nat) (s : Text) : Prop := s.length = n ∧ ∀ c ∈ s, c ∈ alphabet

/-- One letter more that is drawn. -/
theorem IsDrawnText.cons {n : Nat} {s : Text} (h : IsDrawnText n s)
    (i : Fin (alphabet.length - 1 + 1)) : IsDrawnText (n + 1) (alphabet.getD i.val 'a' :: s) := by
  have hi : i.val < alphabet.length := by
    have hlength : alphabet.length - 1 + 1 = alphabet.length := by decide
    omega
  refine ⟨by rw [List.length_cons, h.1], ?_⟩
  intro c hc
  rcases List.mem_cons.mp hc with rfl | hc
  · rw [List.getD_eq_getElem?_getD, List.getElem?_eq_getElem hi, Option.getD_some]
    exact List.getElem_mem hi
  · exact h.2 c hc

/-- How a scalar that is made up for a type looks. A date is a moment of the month so far. -/
inductive Looks (now : Moment) : CanonicalType → Scalar → Prop where
  | integer (n : Fin 20) : Looks now .integer (.int (1 + n.val))
  | number (x : Binary64) :
      Looks now .number (.float (((Binary64.ofInt 1000).mul x).roundPlaces 2))
  | float (x : Binary64) :
      Looks now .float (.float (((Binary64.ofInt 1000).mul x).roundPlaces 2))
  | boolean (b : Bool) : Looks now .boolean (.bool b)
  | string {s : Text} (h : IsDrawnText textLength s) : Looks now .string (.str s)
  | date {k : Nat} {m : Moment} (hk : k ≤ now.secondsIntoMonth) (hm : now.drawn k = .ok m) :
      Looks now .date (.str (m.text 'T'))
  | schema : Looks now .schema .null

/-- The type that synthesis takes a name for. -/
def typeOf (type : Text) : CanonicalType := (CanonicalType.ofName? type).getD .string

section
variable {σ : Type} [RandomSource σ]

/-- The second of the month that a state draws. -/
def drawnSeconds (now : Moment) (s : σ) : Nat := (RandomSource.upTo now.secondsIntoMonth s).1.val

/-- The second that is drawn is one of the month up to now. -/
theorem drawnSeconds_le (now : Moment) (s : σ) : drawnSeconds now s ≤ now.secondsIntoMonth :=
  Nat.le_of_lt_succ (RandomSource.upTo now.secondsIntoMonth s).1.isLt

/-- The example of a date, by the second that was drawn for it. -/
def dateOutcome (now : Moment) (second : Nat) : Except Error Value :=
  ((now.drawn second).map fun m => Value.str (m.text 'T')).mapError .fault

/-- As many letters as are asked for are drawn, from every state. -/
theorem outcome_drawText (n : Nat) (s : σ) :
    ∃ t, (drawText n).outcome s = .ok t ∧ IsDrawnText n t := by
  induction n generalizing s with
  | zero => exact ⟨[], rfl, rfl, by simp⟩
  | succ n ih =>
      obtain ⟨t, ht, hdrawn⟩ := ih (RandomSource.upTo (alphabet.length - 1) s).2
      refine ⟨_, ?_, hdrawn.cons (RandomSource.upTo (alphabet.length - 1) s).1⟩
      exact (Synth.outcome_bind_ok (x := drawUpTo (alphabet.length - 1)) rfl _).trans
        (Synth.outcome_bind_ok ht _)

/-- A moment is drawn by the second for it, or it fails as that second does. -/
theorem outcome_drawMoment (now : Moment) (s : σ) :
    (drawMoment now).outcome s = (now.drawn (drawnSeconds now s)).mapError Error.fault := by
  refine (Synth.outcome_bind_ok (x := drawUpTo now.secondsIntoMonth) rfl _).trans ?_
  show (orThrow (now.drawn (drawnSeconds now s))).outcome _ = _
  cases now.drawn (drawnSeconds now s) <;> rfl

/-- So is a date, which is the text of the moment. -/
theorem outcome_date (now : Moment) (s : σ) :
    (do let m ← drawMoment now; pure (Value.str (m.text 'T')) : Synth σ Value).outcome s
      = dateOutcome now (drawnSeconds now s) := by
  have hdraw := outcome_drawMoment now s
  rw [dateOutcome]
  cases hm : now.drawn (drawnSeconds now s) with
  | ok m =>
      rw [hm] at hdraw
      exact Synth.outcome_bind_ok hdraw _
  | error f =>
      rw [hm] at hdraw
      exact Synth.outcome_bind_error hdraw _

/-- A date is made from the second that is drawn, whatever the schema says. -/
theorem outcome_synthesize_date {type : Text} (h : typeOf type = .date) (now : Moment)
    (schema : Option Value) (s : σ) :
    (synthesize now type schema).outcome s = dateOutcome now (drawnSeconds now s) := by
  unfold synthesize
  rw [show (CanonicalType.ofName? type).getD .string = .date from h]
  exact outcome_date now s

end

/-- What synthesis gives for a type. A list, a mapping or a reference is what the schema says,
whatever is drawn. For every other type but a date there is a scalar, from every state, and
the schema plays no part. -/
theorem outcome_synthesize (type : Text) (schema : Option Value) :
    (∃ v, ∀ (σ : Type) [RandomSource σ] (now : Moment), synthesize now type schema
      = (pure v : Synth σ Value)) ∨
    (∀ (σ : Type) [RandomSource σ] (now : Moment) (s : σ), ∃ x,
      (synthesize now type schema).outcome s = .ok (.scalar x) ∧ Made σ now type x) ∨
    typeOf type = .date := by
  unfold Made synthesize typeOf
  cases (CanonicalType.ofName? type).getD .string with
  | integer | number | float | boolean => exact .inr (.inl fun σ _ now s => ⟨_, rfl, s, rfl⟩)
  | string =>
      refine .inr (.inl fun σ _ now s => ?_)
      obtain ⟨t, ht, -⟩ := outcome_drawText textLength s
      have hout := Synth.outcome_bind_ok ht fun t => pure (Value.str t)
      exact ⟨.str t, hout, s, hout⟩
  | date => exact .inr (.inr rfl)
  | array | object | schema => exact .inl ⟨_, fun σ _ now => rfl⟩

/-- A made-up scalar looks like one of its type. -/
theorem Made.looks {σ : Type} [RandomSource σ] {now : Moment} {type : Text} {x : Scalar}
    (h : Made σ now type x) : Looks now (typeOf type) x := by
  obtain ⟨s, h⟩ := h
  unfold synthesize at h
  unfold typeOf
  generalize (CanonicalType.ofName? type).getD .string = t at h ⊢
  cases t with
  | integer | number | float | boolean =>
      cases h
      constructor
  | string =>
      obtain ⟨t, ht, hdrawn⟩ := outcome_drawText textLength s
      rw [Synth.outcome_bind_ok ht] at h
      cases h
      exact .string hdrawn
  | date =>
      rw [outcome_date, dateOutcome] at h
      cases hm : now.drawn (drawnSeconds now s) with
      | error f => rw [hm] at h; cases h
      | ok m =>
          rw [hm] at h
          cases h
          exact .date (drawnSeconds_le now s) hm
  -- These two types have fixed values, which are no scalars.
  | array | object => cases h
  | schema =>
      cases h
      exact .schema

/-! ### Two runs -/

section
variable {σ τ : Type} [RandomSource σ] [RandomSource τ] {E : Excuse} {Q : σ → τ → Prop}
  {D : Scalar → Scalar → Prop} {now now' : Moment}

/-- Two examples of one type: the same, or two scalars that `D` relates. -/
inductive ExamplesAlike (D : Scalar → Scalar → Prop) : Value → Value → Prop where
  | same (v : Value) : ExamplesAlike D v v
  | scalars {x y : Scalar} (h : D x y) : ExamplesAlike D (.scalar x) (.scalar y)

/-- Examples that are alike are alike at the place for made-up examples. -/
theorem ExamplesAlike.alike {G : Scalar → Scalar → Prop} {v w : Value} (h : ExamplesAlike D v w) :
    Alike D G .sample v w := by
  cases h with
  | same v => exact .refl .sample v
  | scalars h => exact .scalar (.inr h)

/-- Examples of one type agree, from two sources. -/
def DrawsAgree (σ τ : Type) [RandomSource σ] [RandomSource τ] (E : Excuse) (Q : σ → τ → Prop)
    (D : Scalar → Scalar → Prop) (now now' : Moment) : Prop :=
  ∀ type schema, Coupled E Q (ExamplesAlike D) (synthesize now type schema : Synth σ Value)
    (synthesize now' type schema : Synth τ Value)

/-- What is asked of two moments that are drawn: both can be had, or neither, by the same
fault, or one cannot be had and excuses the other. -/
def MomentsAgree (E : Excuse) (x y : Except Fault Moment) : Prop :=
  (∃ f, E.left (.fault f) ∧ x = .error f) ∨ (∃ f, E.right (.fault f) ∧ y = .error f) ∨
    Agree (fun _ _ => True) x y

/-- Draws agree from any two states, if the moments that these draw do. -/
theorem drawsAgree_of (h : ∀ (s : σ) (t : τ),
      MomentsAgree E (now.drawn (drawnSeconds now s)) (now'.drawn (drawnSeconds now' t))) :
    DrawsAgree σ τ E AnyStates (Drawn σ τ now now') now now' := by
  intro type schema s t _
  -- A type has a fixed value, or one that never fails, or it is that of dates.
  obtain ⟨v, hconst⟩ | hscalar | htype := outcome_synthesize type schema
  · rw [hconst σ now, hconst τ now']
    exact .inr (.inr ⟨.ok (.same v), trivial⟩)
  · obtain ⟨x, hx, hmade⟩ := hscalar σ now s
    obtain ⟨y, hy, hmade'⟩ := hscalar τ now' t
    rw [hx, hy]
    exact .inr (.inr ⟨.ok (.scalars ⟨type, hmade, hmade'⟩), trivial⟩)
  · rw [outcome_synthesize_date htype, outcome_synthesize_date htype]
    obtain ⟨f, hf, hx⟩ | ⟨f, hf, hy⟩ | hmoments := h s t
    · exact .inl ⟨.fault f, hf, by rw [dateOutcome, hx]; rfl⟩
    · exact .inr (.inl ⟨.fault f, hf, by rw [dateOutcome, hy]; rfl⟩)
    refine .inr (.inr ⟨?_, trivial⟩)
    rw [dateOutcome, dateOutcome]
    cases hm : now.drawn (drawnSeconds now s) with
    | error f =>
        rw [hm] at hmoments
        rw [hmoments.eq_of_error]
        exact .error _
    | ok m =>
        rw [hm] at hmoments
        obtain ⟨m', hm', -⟩ := hmoments.exists_of_ok
        rw [hm']
        refine .ok (.scalars ⟨type, ⟨s, ?_⟩, t, ?_⟩)
        · rw [outcome_synthesize_date htype, dateOutcome, hm]
          rfl
        · rw [outcome_synthesize_date htype, dateOutcome, hm']
          rfl

end

end Synthesis

end RouteDocs
