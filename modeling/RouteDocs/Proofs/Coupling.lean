import Mathlib.Data.List.Forall2
import RouteDocs.Endpoint.OfRoute

/-!
# `RouteDocs.Proofs.Coupling`: two runs side by side

A computation that draws from a random source is compared with another one by running both
and looking at the two results together. `Agree R` relates two results: both are values and
`R` holds of them, or both are the same failure. `Coupled E Q R` relates two computations:
run from any two states that `Q` relates, they give results that agree by `R`, and leave
states that `Q` relates again, unless one of the two has an excuse. An `Excuse` names errors
on either side; whoever fails by one of them excuses the other from everything.

With equality for `Q` and `R`, and no excuse, coupled computations are equal (`Coupled.eq`).
With a `Q` that holds of any two states, which may be states of different sources, coupling
says that the results do not depend on what is drawn, as far as `R` can tell. An excuse is
for what a draw does decide: where one side is known to draw the worst that can be drawn,
its failure says nothing of the other side.

The rules follow the ways in which computations are put together. Each is used by name, so
the proofs about `Synth` computations never open the monad.
-/

set_option autoImplicit false

namespace RouteDocs

/-- A mapped result that is a value comes from a value. -/
theorem exists_of_map_eq_ok {ε α β : Type} {f : α → β} {x : Except ε α} {b : β}
    (h : x.map f = .ok b) : ∃ a, x = .ok a ∧ f a = b := by
  cases x with
  | ok a => exact ⟨a, rfl, Except.ok.inj h⟩
  | error e => cases h

/-- A result that is a value comes from a value and what is done with it. -/
theorem exists_of_bind_eq_ok {ε α β : Type} {x : Except ε α} {f : α → Except ε β} {b : β}
    (h : x >>= f = .ok b) : ∃ a, x = .ok a ∧ f a = .ok b := by
  cases x with
  | ok a => exact ⟨a, rfl, h⟩
  | error e => cases h

/-- A result that is there is the one that the computation ends with. -/
theorem eq_ok_of_toOption_eq_some {ε α : Type} {x : Except ε α} {a : α} (h : x.toOption = some a) :
    x = .ok a := by
  cases x with
  | ok b => exact congrArg Except.ok (Option.some.inj h)
  | error e => cases h

/-- Where all results are values, there is one for each element. -/
theorem forall₂_of_mapM_eq_ok {ε α β : Type} {f : α → Except ε β} {xs : List α} {ys : List β}
    (h : xs.mapM f = .ok ys) : List.Forall₂ (fun x y => f x = .ok y) xs ys := by
  induction xs generalizing ys with
  | nil =>
      cases h
      exact .nil
  | cons x xs ih =>
      rw [List.mapM_cons] at h
      obtain ⟨y, hy, h⟩ := exists_of_bind_eq_ok h
      obtain ⟨ys, hys, h⟩ := exists_of_bind_eq_ok h
      cases h
      exact .cons hy (ih hys)

/-- Where all results are values, each of them is the result of an element. -/
theorem exists_of_mem_mapM_right {ε α β : Type} {f : α → Except ε β} {xs : List α} {ys : List β}
    (h : xs.mapM f = .ok ys) {y : β} (hy : y ∈ ys) : ∃ x ∈ xs, f x = .ok y := by
  have hall := forall₂_of_mapM_eq_ok h
  clear h
  induction hall with
  | nil => cases hy
  | cons hxy _ ih =>
      obtain rfl | hy := List.mem_cons.mp hy
      · exact ⟨_, List.mem_cons_self, hxy⟩
      · obtain ⟨x, hx, hxy⟩ := ih hy
        exact ⟨x, List.mem_cons_of_mem _ hx, hxy⟩

/-- Steps that are the same on all elements of a list are the same on the list. -/
theorem mapM_congr_left {ε α β : Type} {f g : α → Except ε β} {xs : List α}
    (h : ∀ x ∈ xs, f x = g x) : xs.mapM f = xs.mapM g := by
  induction xs with
  | nil => rfl
  | cons x xs ih =>
      rw [List.forall_mem_cons] at h
      rw [List.mapM_cons, List.mapM_cons, h.1, ih h.2]

/-- A failure of the second step is one of both. -/
theorem bind_eq_error_of_ok {ε α β : Type} {x : Except ε α} {f : α → Except ε β} {a : α} {e : ε}
    (hx : x = .ok a) (h : f a = .error e) : x >>= f = .error e := by
  rw [hx]
  exact h

/-- A failure of the first step is one of both, whatever the second would do. -/
theorem bind_eq_error_of_error {ε α β : Type} {x : Except ε α} {e : ε} (hx : x = .error e)
    (f : α → Except ε β) : x >>= f = .error e := by
  rw [hx]
  rfl

/-- A result is a failure where the first step fails, or what is done with its value. -/
theorem bind_eq_error_iff {ε α β : Type} {x : Except ε α} {f : α → Except ε β} {e : ε} :
    x >>= f = .error e ↔ x = .error e ∨ ∃ a, x = .ok a ∧ f a = .error e := by
  constructor
  · intro h
    cases x with
    | ok a => exact .inr ⟨a, rfl, h⟩
    | error e' =>
        obtain rfl : e' = e := Except.error.inj h
        exact .inl rfl
  · rintro (hx | ⟨a, hx, h⟩)
    · exact bind_eq_error_of_error hx f
    · exact bind_eq_error_of_ok hx h

/-- A traversal fails as the first element does that fails. -/
theorem mapM_eq_error_iff {ε α β : Type} {f : α → Except ε β} {xs : List α} {e : ε} :
    xs.mapM f = .error e ↔ ∃ before x after, xs = before ++ x :: after ∧
      (∀ b ∈ before, ∃ y, f b = .ok y) ∧ f x = .error e := by
  constructor
  · intro h
    induction xs with
    | nil => cases h
    | cons x xs ih =>
        rw [List.mapM_cons] at h
        -- The first element fails, or one behind it does.
        obtain hx | ⟨y, hy, h⟩ := bind_eq_error_iff.mp h
        · exact ⟨[], x, xs, rfl, nofun, hx⟩
        · obtain hxs | ⟨ys, -, h⟩ := bind_eq_error_iff.mp h
          · obtain ⟨before, a, after, rfl, hbefore, ha⟩ := ih hxs
            exact ⟨x :: before, a, after, rfl, List.forall_mem_cons.mpr ⟨⟨y, hy⟩, hbefore⟩, ha⟩
          · cases h
  · rintro ⟨before, x, after, rfl, hbefore, hx⟩
    induction before with
    | nil => exact bind_eq_error_of_error hx _
    | cons b before ih =>
        obtain ⟨⟨y, hy⟩, hbefore⟩ := List.forall_mem_cons.mp hbefore
        rw [List.cons_append, List.mapM_cons]
        apply bind_eq_error_of_ok hy
        exact bind_eq_error_of_error (ih hbefore) _

/-- Two results that agree: related values, or the same failure. -/
inductive Agree {ε α β : Type} (R : α → β → Prop) : Except ε α → Except ε β → Prop where
  /-- Both are values. -/
  | ok {a : α} {b : β} (h : R a b) : Agree R (.ok a) (.ok b)
  /-- Both are the same failure. -/
  | error (e : ε) : Agree R (.error e) (.error e)

namespace Agree

variable {ε ε' α β γ δ : Type} {R : α → β → Prop} {S : γ → δ → Prop}

/-- A result agrees with itself, if its values are related to themselves. -/
theorem refl {R : α → α → Prop} (h : ∀ a, R a a) (x : Except ε α) : Agree R x x := by
  cases x with
  | ok a => exact .ok (h a)
  | error e => exact .error e

/-- A result is the same as itself. -/
theorem same (x : Except ε α) : Agree (fun a b => a = b) x x := refl (fun _ => rfl) x

/-- A result is the same as itself, and known for what it is. -/
theorem itself (x : Except ε α) : Agree (fun a b => a = b ∧ x = .ok a) x x := by
  cases x with
  | ok a => exact .ok ⟨rfl, rfl⟩
  | error e => exact .error e

/-- A weaker relation holds too. -/
theorem mono {R' : α → β → Prop} {x : Except ε α} {y : Except ε β} (h : Agree R x y)
    (hR : ∀ a b, R a b → R' a b) : Agree R' x y := by
  cases h with
  | ok h => exact .ok (hR _ _ h)
  | error e => exact .error e

/-- Results that agree, and steps that agree on related values, agree together. -/
theorem bind {x : Except ε α} {y : Except ε β} {f : α → Except ε γ} {g : β → Except ε δ}
    (h : Agree R x y) (hf : ∀ a b, R a b → Agree S (f a) (g b)) :
    Agree S (x >>= f) (y >>= g) := by
  cases h with
  | ok h => exact hf _ _ h
  | error e => exact .error e

/-- Functions that take related values to related ones may be applied on both sides. -/
theorem map {x : Except ε α} {y : Except ε β} {f : α → γ} {g : β → δ}
    (h : Agree R x y) (hf : ∀ a b, R a b → S (f a) (g b)) : Agree S (x.map f) (y.map g) := by
  cases h with
  | ok h => exact .ok (hf _ _ h)
  | error e => exact .error e

/-- A function on the failures may be applied on both sides. -/
theorem mapError {x : Except ε α} {y : Except ε β} (h : Agree R x y) (f : ε → ε') :
    Agree R (x.mapError f) (y.mapError f) := by
  cases h with
  | ok h => exact .ok h
  | error e => exact .error (f e)

/-- What agrees with a value is a related value. -/
theorem exists_of_ok {a : α} {y : Except ε β} (h : Agree R (.ok a) y) : ∃ b, y = .ok b ∧ R a b := by
  cases h with
  | ok h => exact ⟨_, rfl, h⟩

/-- What agrees with a failure is the failure. -/
theorem eq_of_error {e : ε} {y : Except ε β} (h : Agree R (.error e) y) : y = .error e := by
  cases h with
  | error => rfl

/-- What agrees with a failure is the failure, the other way round. -/
theorem eq_of_error_right {e : ε} {x : Except ε α} (h : Agree R x (.error e : Except ε β)) :
    x = .error e := by
  cases h with
  | error => rfl

/-- Results that both agree with a third agree with each other. -/
theorem join {R' : γ → β → Prop} {R'' : α → γ → Prop} {x : Except ε α} {y : Except ε γ}
    {z : Except ε β} (hR : ∀ a c b, R a b → R' c b → R'' a c) (h : Agree R x z)
    (h' : Agree R' y z) : Agree R'' x y := by
  cases h with
  | ok h =>
      cases h' with
      | ok h' => exact .ok (hR _ _ _ h h')
  | error e =>
      cases h'
      exact .error e

/-- Results that agree in each of a family of ways agree in all of them. -/
theorem of_forall {ι : Type} [Nonempty ι] {Rs : ι → α → β → Prop} {x : Except ε α}
    {y : Except ε β} (h : ∀ i, Agree (Rs i) x y) : Agree (fun a b => ∀ i, Rs i a b) x y := by
  cases h (Classical.arbitrary ι) with
  | ok _ =>
      refine .ok fun i => ?_
      cases h i with
      | ok h => exact h
  | error e => exact .error e

/-- What is known of the first value, beside the relation. -/
theorem with_left {P : α → Prop} {x : Except ε α} {y : Except ε β} (h : Agree R x y)
    (hP : ∀ a, x = .ok a → P a) : Agree (fun a b => R a b ∧ P a) x y := by
  cases h with
  | ok h => exact .ok ⟨h, hP _ rfl⟩
  | error e => exact .error e

/-- The values, known for what they are. -/
theorem with_results {x : Except ε α} {y : Except ε β} (h : Agree R x y) :
    Agree (fun a b => R a b ∧ x = .ok a ∧ y = .ok b) x y := by
  cases h with
  | ok h => exact .ok ⟨h, rfl, rfl⟩
  | error e => exact .error e

/-- The values, or related ones in their place. -/
theorem getD {x : Except ε α} {y : Except ε β} (h : Agree R x y) {a : α} {b : β} (hab : R a b) :
    R (x.toOption.getD a) (y.toOption.getD b) := by
  cases h with
  | ok h => exact h
  | error e => exact hab

/-- Results that agree by equality are equal. -/
theorem eq {x y : Except ε α} (h : Agree (fun a b => a = b) x y) : x = y := by
  cases h with
  | ok h => rw [h]
  | error e => rfl

/-- Traversals of lists with related elements agree, if each step does. -/
theorem mapM {f : α → Except ε γ} {g : β → Except ε δ}
    (hf : ∀ a b, R a b → Agree S (f a) (g b)) {as : List α} {bs : List β}
    (h : List.Forall₂ R as bs) : Agree (List.Forall₂ S) (as.mapM f) (bs.mapM g) := by
  induction h with
  | nil => exact .ok .nil
  | cons hab _ ih =>
      rw [List.mapM_cons, List.mapM_cons]
      exact (hf _ _ hab).bind fun c d hcd => ih.bind fun cs ds hcds => .ok (.cons hcd hcds)

/-- Folds over lists with related elements agree, if each step does. -/
theorem foldlM {f : γ → α → Except ε γ} {g : δ → β → Except ε δ}
    (hf : ∀ c d a b, S c d → R a b → Agree S (f c a) (g d b)) {as : List α} {bs : List β}
    (h : List.Forall₂ R as bs) {c : γ} {d : δ} (hcd : S c d) :
    Agree S (as.foldlM f c) (bs.foldlM g d) := by
  induction h generalizing c d with
  | nil => exact .ok hcd
  | cons hab _ ih =>
      rw [List.foldlM_cons, List.foldlM_cons]
      exact (hf _ _ _ _ hcd hab).bind fun c' d' h' => ih h'

end Agree

namespace Synth

variable {σ α β : Type}

/-- The result of a computation from a state. -/
def outcome (x : Synth σ α) (s : σ) : Except Error α := (x.run.run s).1

/-- The state that a computation leaves. -/
def after (x : Synth σ α) (s : σ) : σ := (x.run.run s).2

/-- A computation and its continuation: a failure of the first stays, and the state that the
first leaves is where the second starts. -/
theorem run_bind (x : Synth σ α) (f : α → Synth σ β) (s : σ) :
    (x >>= f).run.run s
      = match x.outcome s with
        | .ok a => (f a).run.run (x.after s)
        | .error e => (.error e, x.after s) := by
  -- The only place where the layers of the monad are opened.
  unfold outcome after ExceptT.run StateT.run
  simp only [bind, ExceptT.bind, ExceptT.mk, StateT.bind, ExceptT.bindCont]
  cases x s with
  | mk result next => cases result <;> rfl

/-- After a first step that ends, the result is that of the second, from the state that the
first leaves. -/
theorem outcome_bind_ok {x : Synth σ α} {s : σ} {a : α} (h : x.outcome s = .ok a)
    (f : α → Synth σ β) : (x >>= f).outcome s = (f a).outcome (x.after s) := by
  rw [outcome, run_bind, h]
  rfl

/-- After a first step that fails, the result is its failure. -/
theorem outcome_bind_error {x : Synth σ α} {s : σ} {e : Error} (h : x.outcome s = .error e)
    (f : α → Synth σ β) : (x >>= f).outcome s = .error e := by
  rw [outcome, run_bind, h]

/-- After a first step that ends, the state is what the second leaves. -/
theorem after_bind_ok {x : Synth σ α} {s : σ} {a : α} (h : x.outcome s = .ok a)
    (f : α → Synth σ β) : (x >>= f).after s = (f a).after (x.after s) := by
  rw [after, run_bind, h]
  rfl

/-- After a first step that fails, the state is what that step leaves. -/
theorem after_bind_error {x : Synth σ α} {s : σ} {e : Error} (h : x.outcome s = .error e)
    (f : α → Synth σ β) : (x >>= f).after s = x.after s := by
  rw [after, run_bind, h]

/-- A computation and its continuation give a value exactly when both do. -/
theorem outcome_bind_eq_ok_iff {x : Synth σ α} {f : α → Synth σ β} {s : σ} {b : β} :
    (x >>= f).outcome s = .ok b
      ↔ ∃ a, x.outcome s = .ok a ∧ (f a).outcome (x.after s) = .ok b := by
  cases h : x.outcome s with
  | ok a => simp [outcome_bind_ok h]
  | error e => simp [outcome_bind_error h]

/-- A result that is taken into a computation is its result. -/
theorem outcome_lift (x : Except Error α) (s : σ) : (Endpoint.lift x).outcome s = x := by
  cases x <;> rfl

/-- So is a result that may be a fault. -/
theorem outcome_orThrow (x : Except Fault α) (s : σ) :
    (Synthesis.orThrow x).outcome s = x.mapError .fault := by
  cases x <;> rfl

/-- Computations with the same results and the same states left are equal. -/
theorem ext {x y : Synth σ α} (hout : ∀ s, x.outcome s = y.outcome s)
    (hafter : ∀ s, x.after s = y.after s) : x = y := by
  funext s
  exact Prod.ext (hout s) (hafter s)

end Synth

/-- Errors on either side of a coupling that release the other side. -/
structure Excuse where
  /-- Those of the first computation. -/
  left : Error → Prop
  /-- Those of the second computation. -/
  right : Error → Prop

namespace Excuse

/-- No error excuses. -/
def none : Excuse := ⟨fun _ => False, fun _ => False⟩

/-- Faults excuse, on either side. -/
def faults : Excuse := ⟨fun e => ∃ f, e = .fault f, fun e => ∃ f, e = .fault f⟩

/-- Faults of the first computation excuse the second. -/
def faultsLeft : Excuse := ⟨fun e => ∃ f, e = .fault f, fun _ => False⟩

end Excuse

/-- Two computations that agree, run from related states, and leave related states, unless one
of them fails by an error that excuses the other. -/
def Coupled {σ τ α β : Type} (E : Excuse) (Q : σ → τ → Prop) (R : α → β → Prop)
    (x : Synth σ α) (y : Synth τ β) : Prop :=
  ∀ s t, Q s t →
    (∃ e, E.left e ∧ x.outcome s = .error e) ∨ (∃ e, E.right e ∧ y.outcome t = .error e) ∨
      (Agree R (x.outcome s) (y.outcome t) ∧ Q (x.after s) (y.after t))

namespace Coupled

variable {σ τ α β γ δ : Type} {E : Excuse} {Q : σ → τ → Prop} {R : α → β → Prop}
  {S : γ → δ → Prop}

/-- Related results without any draw leave the states as they are. -/
theorem pure {a : α} {b : β} (h : R a b) :
    Coupled E Q R (Pure.pure a : Synth σ α) (Pure.pure b : Synth τ β) :=
  fun _ _ hQ => .inr (.inr ⟨.ok h, hQ⟩)

/-- The same failure. -/
theorem throw (e : Error) :
    Coupled E Q R (MonadExcept.throw e : Synth σ α) (MonadExcept.throw e : Synth τ β) :=
  fun _ _ hQ => .inr (.inr ⟨.error e, hQ⟩)

/-- Results that are related more closely are related. -/
theorem mono {R' : α → β → Prop} {x : Synth σ α} {y : Synth τ β} (h : Coupled E Q R x y)
    (hR : ∀ a b, R a b → R' a b) : Coupled E Q R' x y :=
  fun s t hQ => (h s t hQ).imp_right fun h => h.imp_right fun h => ⟨h.1.mono hR, h.2⟩

/-- Couplings in a row: what the first leaves related is where the second starts, and an excuse of
either is one of both. -/
theorem bind {x : Synth σ α} {y : Synth τ β} {f : α → Synth σ γ} {g : β → Synth τ δ}
    (h : Coupled E Q R x y) (hf : ∀ a b, R a b → Coupled E Q S (f a) (g b)) :
    Coupled E Q S (x >>= f) (y >>= g) := by
  intro s t hQ
  obtain ⟨e, he, hx⟩ | ⟨e, he, hy⟩ | ⟨hout, hafter⟩ := h s t hQ
  -- An excuse of the first parts is one of the whole.
  · exact .inl ⟨e, he, Synth.outcome_bind_error hx f⟩
  · exact .inr (.inl ⟨e, he, Synth.outcome_bind_error hy g⟩)
  -- Otherwise both first parts are values, or both are the same failure.
  cases hx : x.outcome s with
  | ok a =>
      cases hy : y.outcome t with
      | ok b =>
          rw [hx, hy] at hout
          obtain ⟨hab⟩ := hout
          rw [Synth.outcome_bind_ok hx, Synth.outcome_bind_ok hy, Synth.after_bind_ok hx,
            Synth.after_bind_ok hy]
          exact hf a b hab _ _ hafter
      | error e =>
          rw [hx, hy] at hout
          cases hout
  | error e =>
      cases hy : y.outcome t with
      | ok b =>
          rw [hx, hy] at hout
          cases hout
      | error e' =>
          rw [hx, hy] at hout
          cases hout
          rw [Synth.outcome_bind_error hx, Synth.outcome_bind_error hy, Synth.after_bind_error hx,
            Synth.after_bind_error hy]
          exact .inr (.inr ⟨.error e, hafter⟩)

/-- What is known of the first value, from whatever state, beside the relation. -/
theorem with_left {P : α → Prop} {x : Synth σ α} {y : Synth τ β} (h : Coupled E Q R x y)
    (hP : ∀ s a, x.outcome s = .ok a → P a) : Coupled E Q (fun a b => R a b ∧ P a) x y :=
  fun s t hQ => (h s t hQ).imp_right fun h => h.imp_right fun h =>
    ⟨h.1.with_left fun a ha => hP s a ha, h.2⟩

/-- Results that agree, taken into computations. -/
theorem orThrow {x : Except Fault α} {y : Except Fault β} (h : Agree R x y) :
    Coupled E Q R (Synthesis.orThrow x : Synth σ α) (Synthesis.orThrow y : Synth τ β) := by
  cases h with
  | ok h => exact .pure h
  | error f => exact .throw (.fault f)

/-- Results that agree, failures and all, taken into computations. -/
theorem lift {x : Except Error α} {y : Except Error β} (h : Agree R x y) :
    Coupled E Q R (Endpoint.lift x : Synth σ α) (Endpoint.lift y : Synth τ β) := by
  cases h with
  | ok h => exact .pure h
  | error e => exact .throw e

/-- Without an excuse the results agree. -/
theorem agree {x : Synth σ α} {y : Synth τ β} (h : Coupled .none Q R x y) {s : σ} {t : τ}
    (hQ : Q s t) : Agree R (x.outcome s) (y.outcome t) := by
  obtain ⟨e, he, -⟩ | ⟨e, he, -⟩ | ⟨hout, -⟩ := h s t hQ
  · exact he.elim
  · exact he.elim
  · exact hout

/-- Coupled by equality, computations are equal. -/
theorem eq {x y : Synth σ α} (h : Coupled .none (fun s t => s = t) (fun a b => a = b) x y) :
    x = y := by
  refine Synth.ext (fun s => (h.agree rfl).eq) fun s => ?_
  obtain ⟨e, he, -⟩ | ⟨e, he, -⟩ | ⟨-, hafter⟩ := h s s rfl
  · exact he.elim
  · exact he.elim
  · exact hafter

/-- A computation is coupled with itself. -/
theorem refl (x : Synth σ α) : Coupled E (fun s t => s = t) (fun a b => a = b) x x := by
  rintro s _ rfl
  exact .inr (.inr ⟨.refl (fun _ => rfl) _, rfl⟩)

end Coupled

end RouteDocs
