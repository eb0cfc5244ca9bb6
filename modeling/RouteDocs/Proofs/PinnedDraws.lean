import RouteDocs.Proofs.Draws

/-!
# `RouteDocs.Proofs.PinnedDraws`: trial runs

`Pinned m` is a source with one state, which draws the number `m` again and again, as far as
the bound lets it. A run from it is a trial: it depends on nothing but `m`. This module says
how much of an arbitrary run the trials tell.

A draw decides two things, the value that is made up, and for a date whether there is one.

* A run agrees with every trial, up to made-up values, if the trials agree with each other
  (`agree_trial`), and so do any two runs (`agree_of_trials`). Where a date cannot be made, the
  trial that draws its second fails as well.
* A scalar that for every trial is either the trial's own, or made for one type by both, is
  the trial's own (`eq_of_forall_pinned`), as no scalar is what all trials make.

So what the trials leave alone, no run makes up.
-/

set_option autoImplicit false

namespace RouteDocs

open Text Synthesis

/-- A source that draws one number again and again, as far as the bound lets it. It has one
state. -/
structure Pinned (pin : Nat) where

/-- Every draw of a pinned source gives its number, as far as the bound allows. -/
instance (pin : Nat) : RandomSource (Pinned pin) where
  upTo bound s := (⟨min pin bound, by omega⟩, s)
  unit s := (.ofRatio false (min pin 1) 2, s)

/-- What excuses a run beside the trial that draws `m`. The run may fail by the fault of some
second, if that is not the fault of the trial's second. The trial may fail by the fault of its
own second, if there is a second without a fault. -/
def Excuse.pinned (now : Moment) (m : Nat) : Excuse where
  left e := ∃ f, e = .fault f ∧ (∃ k ≤ now.secondsIntoMonth, now.drawn k = .error f) ∧
    now.drawn (min m now.secondsIntoMonth) ≠ .error f
  right e := ∃ f, e = .fault f ∧ now.drawn (min m now.secondsIntoMonth) = .error f ∧
    ∃ k ≤ now.secondsIntoMonth, ∃ a, now.drawn k = .ok a

/-- Some trial is never excused: one that draws a second with a date, if there is any. -/
theorem exists_pinned_right_eq_false (now : Moment) : ∃ m, ∀ e, ¬ (Excuse.pinned now m).right e := by
  by_cases hgood : ∃ k ≤ now.secondsIntoMonth, ∃ a, now.drawn k = .ok a
  · obtain ⟨k, hk, a, ha⟩ := hgood
    refine ⟨k, ?_⟩
    rintro e ⟨f, rfl, hown, -⟩
    rw [Nat.min_eq_left hk, ha] at hown
    cases hown
  · exact ⟨0, fun e ⟨_, _, _, hother⟩ => hgood hother⟩

namespace Synthesis

variable {now : Moment} {m : Nat}

/-- The second of a trial is its number, or else the last one up to now. -/
theorem drawnSeconds_pinned (now : Moment) (s : Pinned m) :
    drawnSeconds now s = min m now.secondsIntoMonth := rfl

/-! ### Runs and trials -/

/-- The draws of any source agree with those of a trial, but for the excuses of both. -/
theorem drawsAgree_pinned (σ : Type) [RandomSource σ] (now : Moment) (m : Nat) :
    DrawsAgree σ (Pinned m) (.pinned now m) AnyStates (Drawn σ (Pinned m) now now) now now := by
  refine drawsAgree_of fun s t => ?_
  have hk := drawnSeconds_le now s
  rw [drawnSeconds_pinned, MomentsAgree]
  -- Four cases: each of the two seconds has a date or not.
  cases hs : now.drawn (drawnSeconds now s) with
  | ok a =>
      cases ht : now.drawn (min m now.secondsIntoMonth) with
      | ok b => exact .inr (.inr (.ok trivial))
      | error f => exact .inr (.inl ⟨f, ⟨f, rfl, ht, _, hk, a, hs⟩, rfl⟩)
  | error f =>
      by_cases hsame : now.drawn (min m now.secondsIntoMonth) = .error f
      · rw [hsame]
        exact .inr (.inr (.error f))
      · exact .inl ⟨f, ⟨f, rfl, ⟨_, hk, hs⟩, hsame⟩, rfl⟩

/-- Any two draws agree, unless one of them fails by a fault. -/
theorem drawsAgree_faults (σ τ : Type) [RandomSource σ] [RandomSource τ] (now : Moment) :
    DrawsAgree σ τ .faults AnyStates (Drawn σ τ now now) now now := by
  refine drawsAgree_of fun s t => ?_
  cases now.drawn (drawnSeconds now s) with
  | error f => exact .inl ⟨f, ⟨f, rfl⟩, rfl⟩
  | ok a =>
      cases now.drawn (drawnSeconds now t) with
      | error f => exact .inr (.inl ⟨f, ⟨f, rfl⟩, rfl⟩)
      | ok b => exact .inr (.inr (.ok trivial))

/-- Two runs of a computation agree wherever their draws do, by the relation of results that
belongs to their two sources. -/
def FollowsDraws {α : Type} (now : Moment) (x : ∀ (σ : Type) [RandomSource σ], Synth σ α)
    (R : ∀ (σ τ : Type) [RandomSource σ] [RandomSource τ], α → α → Prop) : Prop :=
  ∀ (σ τ : Type) [RandomSource σ] [RandomSource τ] (E : Excuse),
    DrawsAgree σ τ E AnyStates (Drawn σ τ now now) now now →
      Coupled E AnyStates (R σ τ) (x σ) (x τ)

section
variable {α : Type} {x : ∀ (σ : Type) [RandomSource σ], Synth σ α}
  {R : ∀ (σ τ : Type) [RandomSource σ] [RandomSource τ], α → α → Prop}

/-- Two runs that both give something give related results. -/
theorem FollowsDraws.related (h : FollowsDraws now x R) {σ τ : Type} [RandomSource σ]
    [RandomSource τ] {s : σ} {t : τ} {a b : α} (hs : (x σ).outcome s = .ok a)
    (ht : (x τ).outcome t = .ok b) : R σ τ a b := by
  obtain ⟨e, -, he⟩ | ⟨e, -, he⟩ | ⟨hagree, -⟩ :=
    h σ τ .faults (drawsAgree_faults σ τ now) s t trivial
  · rw [hs] at he
    cases he
  · rw [ht] at he
    cases he
  · rw [hs, ht] at hagree
    obtain ⟨hab⟩ := hagree
    exact hab

/-- A run agrees with every trial, if the trials agree with each other. -/
theorem agree_trial (h : FollowsDraws now x R)
    (htrials : ∀ m n, Agree (fun _ _ => True) ((x (Pinned m)).outcome ⟨⟩)
      ((x (Pinned n)).outcome ⟨⟩))
    {σ : Type} [RandomSource σ] (s : σ) (m : Nat) :
    Agree (R σ (Pinned m)) ((x σ).outcome s) ((x (Pinned m)).outcome ⟨⟩) := by
  have hcoupled : ∀ k, Coupled (.pinned now k) AnyStates (R σ (Pinned k)) (x σ) (x (Pinned k)) :=
    fun k => h σ (Pinned k) _ (drawsAgree_pinned σ now k)
  -- The trial of a second fails as the run does that fails by the fault of this second.
  have hfault : ∀ f k, k ≤ now.secondsIntoMonth → now.drawn k = .error f →
      (x σ).outcome s = .error (.fault f) → ∀ n, (x (Pinned n)).outcome ⟨⟩ = .error (.fault f) := by
    intro f k hk hdrawn hrun n
    have hpin : now.drawn (min k now.secondsIntoMonth) = .error f := by rwa [Nat.min_eq_left hk]
    have htrial : (x (Pinned k)).outcome ⟨⟩ = .error (.fault f) := by
      obtain ⟨e, ⟨f', rfl, -, hother⟩, hout⟩ | ⟨e, ⟨f', rfl, hown, -⟩, hout⟩ | ⟨hagree, -⟩ :=
        hcoupled k s ⟨⟩ trivial
      · rw [hrun] at hout
        cases hout
        exact absurd hpin hother
      · rw [hpin] at hown
        cases hown
        exact hout
      · rw [hrun] at hagree
        exact hagree.eq_of_error
    have hsame := htrials k n
    rw [htrial] at hsame
    exact hsame.eq_of_error
  obtain ⟨e, ⟨f, rfl, ⟨k, hk, hdrawn⟩, -⟩, hout⟩ | ⟨e, ⟨f, rfl, hown, k, hk, a, ha⟩, hout⟩ |
    ⟨hagree, -⟩ := hcoupled m s ⟨⟩ trivial
  · rw [hout, hfault f k hk hdrawn hout m]
    exact .error _
  · -- All trials fail, so the one of a second without a fault does, which excuses nothing.
    have hgood : now.drawn (min k now.secondsIntoMonth) = .ok a := by rwa [Nat.min_eq_left hk]
    have htrial : (x (Pinned k)).outcome ⟨⟩ = .error (.fault f) := by
      have hsame := htrials m k
      rw [hout] at hsame
      exact hsame.eq_of_error
    rw [hout]
    obtain ⟨e, ⟨f', rfl, ⟨k', hk', hdrawn'⟩, -⟩, hout'⟩ | ⟨e, ⟨f', rfl, hown', -⟩, -⟩ |
      ⟨hagree, -⟩ := hcoupled k s ⟨⟩ trivial
    · rw [hfault f' k' hk' hdrawn' hout' k] at htrial
      cases htrial
      rw [hout']
      exact .error _
    · rw [hgood] at hown'
      cases hown'
    · rw [htrial] at hagree
      rw [hagree.eq_of_error_right]
      exact .error _
  · exact hagree

/-- Any two runs agree, if the trials agree with each other. -/
theorem agree_of_trials (h : FollowsDraws now x R)
    (htrials : ∀ m n, Agree (fun _ _ => True) ((x (Pinned m)).outcome ⟨⟩)
      ((x (Pinned n)).outcome ⟨⟩))
    {σ τ : Type} [RandomSource σ] [RandomSource τ] (s : σ) (t : τ) :
    Agree (R σ τ) ((x σ).outcome s) ((x τ).outcome t) := by
  have hs := agree_trial h htrials s 0
  have ht := agree_trial h htrials t 0
  -- Both runs are compared with the trial of 0, which stands between them.
  obtain ⟨e, -, hout⟩ | ⟨e, -, hout⟩ | ⟨hagree, -⟩ :=
    h σ τ .faults (drawsAgree_faults σ τ now) s t trivial
  -- A failure of one is that of the trial, and so that of the other.
  · rw [hout] at hs
    rw [hs.eq_of_error] at ht
    rw [hout, ht.eq_of_error_right]
    exact .error e
  · rw [hout] at ht
    rw [ht.eq_of_error] at hs
    rw [hout, hs.eq_of_error_right]
    exact .error e
  · exact hagree

end

/-! ### What trials make -/

/-- The scalars that the trial of `m` makes, but for dates. -/
def trialScalars (m : Nat) : List Scalar :=
  [.int (1 + min m 19 : Nat),
   .float (((Binary64.ofInt 1000).mul (.ofRatio false (min m 1) 2)).roundPlaces 2),
   .bool ((Binary64.ofRatio false (min m 1) 2).lt (.ofRatio false 1 2)),
   .str (List.replicate textLength (alphabet.getD (min m (alphabet.length - 1)) 'a')),
   .null]

/-- The letters of a trial are all the same. -/
theorem outcome_drawText_pinned (m n : Nat) :
    (drawText n : Synth (Pinned m) Text).outcome ⟨⟩
      = .ok (List.replicate n (alphabet.getD (min m (alphabet.length - 1)) 'a')) := by
  induction n with
  | zero => rfl
  | succ n ih =>
      exact (Synth.outcome_bind_ok (x := drawUpTo (alphabet.length - 1)) rfl _).trans
        (Synth.outcome_bind_ok ih _)

/-- What the trial of `m` makes is one of its scalars, or the date of its second. -/
theorem Made.of_pinned {type : Text} {c : Scalar} (h : Made (Pinned m) now type c) :
    c ∈ trialScalars m ∨ typeOf type = .date ∧
      ∃ a, now.drawn (min m now.secondsIntoMonth) = .ok a ∧ c = .str (a.text 'T') := by
  obtain ⟨s, h⟩ := h
  unfold synthesize at h
  unfold typeOf
  unfold trialScalars
  generalize (CanonicalType.ofName? type).getD .string = t at h ⊢
  cases t with
  | integer =>
      cases h
      exact .inl (.head _)
  | number | float =>
      cases h
      exact .inl (.tail _ (.head _))
  | boolean =>
      cases h
      exact .inl (.tail _ (.tail _ (.head _)))
  | string =>
      rw [Synth.outcome_bind_ok (outcome_drawText_pinned m textLength)] at h
      cases h
      exact .inl (.tail _ (.tail _ (.tail _ (.head _))))
  | date =>
      rw [outcome_date, dateOutcome, drawnSeconds_pinned] at h
      cases ha : now.drawn (min m now.secondsIntoMonth) with
      | error f => rw [ha] at h; cases h
      | ok a =>
          rw [ha] at h
          cases h
          exact .inr ⟨rfl, a, rfl, rfl⟩
  -- A list or a mapping is no scalar.
  | array | object => cases h
  | schema =>
      cases h
      exact .inl (.tail _ (.tail _ (.tail _ (.tail _ (.head _)))))

/-- What the first trial makes of the types. -/
theorem trialScalars_zero :
    trialScalars 0 = [.int 1, .float (.ofInt 0), .bool true, .str "aaaaaaaaaaaa", .null] := by
  decide +kernel

/-- What the second trial makes of them: nothing that the first one does, except where there is
nothing to draw. -/
theorem trialScalars_one :
    trialScalars 1 = [.int 2, .float (.ofInt 500), .bool false, .str "bbbbbbbbbbbb", .null] := by
  decide +kernel

/-- The trials of 0 and of 1 make different scalars, but for a reference that says nothing. -/
theorem eq_null_of_mem_trialScalars {c : Scalar} (h : c ∈ trialScalars 0)
    (h' : c ∈ trialScalars 1) : c = .null := by
  have hprice : Binary64.ofInt 0 ≠ Binary64.ofInt 500 := by decide +kernel
  have hword : Text.ofString "aaaaaaaaaaaa" ≠ Text.ofString "bbbbbbbbbbbb" := by decide
  rw [trialScalars_zero] at h
  rw [trialScalars_one] at h'
  simp only [List.mem_cons, List.not_mem_nil, or_false] at h h'
  obtain rfl | rfl | rfl | rfl | rfl := h
  · simp at h'
  · simp [hprice] at h'
  · simp at h'
  · simp [hword] at h'
  · rfl

/-- A moment is written with hyphens, which no other made-up text has. -/
theorem text_not_mem_trialScalars (m : Nat) (a : Moment) :
    Scalar.str (a.text 'T') ∉ trialScalars m := by
  intro hmem
  have hyphen : ('-' : CodePoint) ∈ a.text 'T' := by
    have hmark : ('-' : CodePoint) ∈ ("-" : Text) := by decide
    simp [Moment.text, Date.text, hmark]
  have htext : a.text 'T'
      = List.replicate textLength (alphabet.getD (min m (alphabet.length - 1)) 'a') := by
    simpa [trialScalars] using hmem
  rw [htext] at hyphen
  -- Every character of such a text is the one letter of the trial.
  have hletter := List.eq_of_mem_replicate hyphen
  have hindex : min m (alphabet.length - 1) < alphabet.length := by
    have hlength : 0 < alphabet.length := by decide
    omega
  rw [List.getD_eq_getElem?_getD, List.getElem?_eq_getElem hindex, Option.getD_some] at hletter
  have hmissing : ('-' : CodePoint) ∉ alphabet := by decide
  exact hmissing (hletter ▸ List.getElem_mem hindex)

/-- Made-up scalars of one type are nothing at all together. -/
theorem Looks.eq_null {now now' : Moment} {t : CanonicalType} {x : Scalar} (h : Looks now t x)
    (h' : Looks now' t .null) : x = .null := by
  cases h'
  cases h
  rfl

/-- What the trials of 0 and of 1 both make says nothing, or is a date, the same of both
seconds. -/
theorem Made.null_or_date {type type' : Text} {c : Scalar} (h : Made (Pinned 0) now type c)
    (h' : Made (Pinned 1) now type' c) :
    c = .null ∨ typeOf type = .date ∧
      ∃ a b, now.drawn (min 0 now.secondsIntoMonth) = .ok a ∧
        now.drawn (min 1 now.secondsIntoMonth) = .ok b ∧ c = .str (a.text 'T') ∧
        c = .str (b.text 'T') := by
  -- A date of one trial is no scalar of the other, so both make dates or neither does.
  obtain hmem | ⟨htype, a, ha, rfl⟩ := h.of_pinned
  · obtain hmem' | ⟨-, b, -, rfl⟩ := h'.of_pinned
    · exact .inl (eq_null_of_mem_trialScalars hmem hmem')
    · exact absurd hmem (text_not_mem_trialScalars 0 b)
  · obtain hmem' | ⟨-, b, hb, hab⟩ := h'.of_pinned
    · exact absurd hmem' (text_not_mem_trialScalars 1 a)
    · exact .inr ⟨htype, a, b, ha, hb, rfl, hab⟩

/-- A scalar that is the trial's own, or made by both for one type, whatever number is tried, is
the trials' own: no scalar is what all trials make. -/
theorem eq_of_forall_pinned {σ : Type} [RandomSource σ] {x c : Scalar}
    (h : ∀ m, x = c ∨ Drawn σ (Pinned m) now now x c) : x = c := by
  obtain hxc | ⟨type, hx, hc⟩ := h 0
  · exact hxc
  obtain hxc | ⟨type', -, hc'⟩ := h 1
  · exact hxc
  obtain rfl | ⟨htype, a, -, -, -, rfl, -⟩ := hc.null_or_date hc'
  · exact hx.looks.eq_null hc.looks
  -- Here the trials show a date, and so does the run: it is tried with the run's own second.
  have hdate := hx.looks
  rw [htype] at hdate
  cases hdate with
  | @date k m hk hm =>
      obtain hxc | ⟨type'', -, hc''⟩ := h k
      · exact hxc
      obtain hmem | ⟨-, b, hb, hbc⟩ := hc''.of_pinned
      · exact absurd hmem (text_not_mem_trialScalars k a)
      · rw [Nat.min_eq_left hk, hm] at hb
        cases hb
        exact hbc.symm

end Synthesis

end RouteDocs
