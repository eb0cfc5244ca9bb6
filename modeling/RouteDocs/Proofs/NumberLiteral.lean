import RouteDocs.Proofs.Numeral

/-!
# `RouteDocs.Proofs.NumberLiteral`: the texts that are numbers

An example of a numeric type is cast by `readInt?` or `readFloat?`. Both drop underscores, split
off a sign and go through the digits step by step. This module states the same as a grammar, and
proves that the readers take the texts of the grammar and no others:

* `readInt?_eq_some_iff`: `IsIntLiteral` has a sign that may be left out and a `DigitPart` of at
  most `maxDigits` digits.
* `isSome_readFloat?_iff`: `IsFloatLiteral` has a sign that may be left out and then a word for
  infinity or "not a number", or a `Mantissa` with an `ExponentPart`.

The link between the two is `exists_digitPart`. Underscores are dropped over the whole text
before anything else is looked at, and the theorem takes the digits in front of what is left
back to the part of the text that they came from.
-/

set_option autoImplicit false

namespace RouteDocs.Number

open Text

/-! ### The grammar -/

/-- Decimal digits of any script with at most one underscore between any two, and their
values. -/
inductive DigitPart : Text → List Nat → Prop where
  | last {c : CodePoint} {d : Nat} : decimalValue? c = some d → DigitPart [c] [d]
  | next {c : CodePoint} {d : Nat} {s : Text} {ds : List Nat} :
    decimalValue? c = some d → DigitPart s ds → DigitPart (c :: s) (d :: ds)
  | gap {c : CodePoint} {d : Nat} {s : Text} {ds : List Nat} :
    decimalValue? c = some d → DigitPart s ds → DigitPart (c :: .char '_' :: s) (d :: ds)

/-- A sign that may be left out. The flag is true for a minus. -/
inductive SignPart : Text → Bool → Prop where
  | absent : SignPart [] false
  | plus : SignPart [.char '+'] false
  | minus : SignPart [.char '-'] true

/-- The literals of a whole number. -/
def IsIntLiteral (s : Text) (i : Int) : Prop :=
  ∃ sign negative body digits, s = sign ++ body ∧ SignPart sign negative ∧
    DigitPart body digits ∧ digits.length ≤ maxDigits ∧
    i = if negative then -(ofDecimals digits : Int) else ofDecimals digits

/-- Digits with a point in front of them, among them or behind them, or without one. -/
inductive Mantissa : Text → Prop where
  | whole {w : Text} {ds : List Nat} : DigitPart w ds → Mantissa w
  | pointed {w : Text} {ds : List Nat} : DigitPart w ds → Mantissa (w ++ [.char '.'])
  | split {w f : Text} {ds es : List Nat} : DigitPart w ds → DigitPart f es →
    Mantissa (w ++ .char '.' :: f)
  | fraction {f : Text} {es : List Nat} : DigitPart f es → Mantissa (.char '.' :: f)

/-- A power of ten that may be left out. -/
inductive ExponentPart : Text → Prop where
  | absent : ExponentPart []
  | power {mark : CodePoint} {sign body : Text} {negative : Bool} {ds : List Nat} :
    mark = .char 'e' ∨ mark = .char 'E' → SignPart sign negative → DigitPart body ds →
    ExponentPart (mark :: (sign ++ body))

/-- The words for numbers without digits, in lower case. -/
def literalWords : List Text := ["inf", "infinity", "nan"]

/-- The literals of a fraction. -/
inductive IsFloatLiteral : Text → Prop where
  | word {sign w : Text} {negative : Bool} : SignPart sign negative →
    w.map CodePoint.toLower ∈ literalWords → IsFloatLiteral (sign ++ w)
  | number {sign m e : Text} {negative : Bool} : SignPart sign negative → Mantissa m →
    ExponentPart e → IsFloatLiteral (sign ++ (m ++ e))

/-! ### Underscores -/

/-- An underscore is no digit. -/
theorem decimalValue?_underscore : decimalValue? (.char '_') = none := by decide

/-- A digit is no underscore. -/
theorem ne_underscore {c : CodePoint} {d : Nat} (h : decimalValue? c = some d) :
    c ≠ .char '_' := by
  intro hc
  rw [hc, decimalValue?_underscore] at h
  cases h

/-- A character other than an underscore stays, and says whether an underscore may follow. -/
theorem dropUnderscores?_cons {c : CodePoint} (hc : c ≠ .char '_') (afterDigit : Bool) (s : Text) :
    dropUnderscores? afterDigit (c :: s) = (dropUnderscores? (isDecimal c) s).map (c :: ·) := by
  rw [dropUnderscores?]
  intro heq
  exact hc heq

/-- What was read last only matters to an underscore. -/
theorem dropUnderscores?_of_head {s : Text} (h : s.head? ≠ some (.char '_'))
    (afterDigit : Bool) :
    dropUnderscores? afterDigit s = dropUnderscores? false s := by
  cases s with
  | nil => rw [dropUnderscores?, dropUnderscores?]
  | cons c s =>
      have hc : c ≠ .char '_' := fun hc => h (by rw [hc]; rfl)
      rw [dropUnderscores?_cons hc, dropUnderscores?_cons hc]

/-- No underscore stands in front, as there is no digit before it. -/
theorem head?_of_dropUnderscores? {s plain : Text} (h : dropUnderscores? false s = some plain) :
    s.head? ≠ some (.char '_') := by
  intro hhead
  cases s with
  | nil => cases hhead
  | cons c s =>
      cases Option.some.inj hhead
      cases s <;> simp [dropUnderscores?] at h

/-- The first character is no underscore, and is kept. -/
theorem exists_tail_of_dropUnderscores? {c : CodePoint} {s plain : Text}
    (h : dropUnderscores? false (c :: s) = some plain) :
    ∃ tail, plain = c :: tail ∧ dropUnderscores? (isDecimal c) s = some tail := by
  have hc : c ≠ .char '_' := fun hc => head?_of_dropUnderscores? h (by rw [hc]; rfl)
  rw [dropUnderscores?_cons hc] at h
  obtain ⟨tail, htail, rfl⟩ := Option.map_eq_some_iff.mp h
  exact ⟨tail, rfl, htail⟩

/-- Behind a character that is no digit a text is read as from its start. -/
theorem exists_rest_of_dropUnderscores? {mark : CodePoint} (hmark : isDecimal mark = false)
    {s tail : Text} (h : dropUnderscores? false s = some (mark :: tail)) :
    ∃ rest, s = mark :: rest ∧ dropUnderscores? false rest = some tail := by
  cases s with
  | nil => simp [dropUnderscores?] at h
  | cons c rest =>
      obtain ⟨_, heq, hrest⟩ := exists_tail_of_dropUnderscores? h
      obtain ⟨rfl, rfl⟩ := List.cons.inj heq
      exact ⟨rest, rfl, by rwa [hmark] at hrest⟩

/-- An underscore stands in front of a digit. -/
theorem dropUnderscores?_underscore {afterDigit : Bool} {s plain : Text}
    (h : dropUnderscores? afterDigit (.char '_' :: s) = some plain) :
    dropUnderscores? false s = some plain ∧ ∃ c t, s = c :: t ∧ isDecimal c = true := by
  cases s with
  | nil => simp [dropUnderscores?] at h
  | cons c t =>
      rw [dropUnderscores?] at h
      simp only [Option.ite_none_right_eq_some, Bool.and_eq_true] at h
      exact ⟨h.2, c, t, rfl, h.1.2⟩

/-- The digits in front of what is left come from a digit part in front of the text. The
induction passes over an underscore together with the digit before it. -/
theorem exists_digitPart : ∀ (s : Text) {afterDigit : Bool} {plain : Text},
    s.head? ≠ some (.char '_') → dropUnderscores? afterDigit s = some plain →
    ∃ w rest, s = w ++ rest ∧
      (w = [] ∧ (spanDecimals plain).1 = [] ∨ DigitPart w (spanDecimals plain).1) ∧
      dropUnderscores? false rest = some (spanDecimals plain).2
  | [], _, plain, _, h => by
    have hplain : plain = [] := by simpa [dropUnderscores?] using h.symm
    exact ⟨[], [], rfl, .inl ⟨rfl, by rw [hplain]; rfl⟩, by rw [hplain]; rfl⟩
  | c :: s, afterDigit, plain, hhead, h => by
    have hc : c ≠ .char '_' := fun hc => hhead (by rw [hc]; rfl)
    rw [dropUnderscores?_cons hc] at h
    obtain ⟨tail, htail, hplain⟩ := Option.map_eq_some_iff.mp h
    rw [← hplain, spanDecimals]
    cases hd : decimalValue? c with
    | none =>
        refine ⟨[], c :: s, rfl, .inl ⟨rfl, rfl⟩, ?_⟩
        rw [dropUnderscores?_cons hc, htail]
        rfl
    | some d =>
        by_cases hs : s.head? = some (.char '_')
        · obtain ⟨t, rfl⟩ : ∃ t, s = .char '_' :: t := by
            cases s with
            | nil => cases hs
            | cons e t => exact ⟨t, by rw [Option.some.inj hs]⟩
          obtain ⟨hdrop, e, u, rfl, he⟩ := dropUnderscores?_underscore htail
          obtain ⟨w, rest, hsplit, hw, hrest⟩ :=
            exists_digitPart (e :: u) (head?_of_dropUnderscores? hdrop) hdrop
          obtain ⟨d', hd'⟩ := Option.isSome_iff_exists.mp he
          -- What follows the underscore is a digit, so its digit part is not empty.
          have hne : (spanDecimals tail).1 ≠ [] := by
            rw [dropUnderscores?_cons (ne_underscore hd')] at hdrop
            obtain ⟨more, -, hmore⟩ := Option.map_eq_some_iff.mp hdrop
            rw [← hmore, spanDecimals, hd']
            exact List.cons_ne_nil _ _
          have hw := hw.resolve_left fun hnil => hne hnil.2
          exact ⟨c :: .char '_' :: w, rest, by rw [hsplit]; rfl, .inr (.gap hd hw), hrest⟩
        · obtain ⟨w, rest, hsplit, hw, hrest⟩ := exists_digitPart s hs htail
          refine ⟨c :: w, rest, by rw [hsplit]; rfl, .inr ?_, hrest⟩
          show DigitPart (c :: w) (d :: (spanDecimals tail).1)
          obtain ⟨rfl, hnil⟩ | hw := hw
          · rw [hnil]
            exact .last hd
          · exact .next hd hw
termination_by s => s.length

/-- A digit part is read as its digits, whatever follows. -/
theorem DigitPart.exists_plain {w : Text} {ds : List Nat} (h : DigitPart w ds) :
    ∃ plain, decimals? plain = some ds ∧ ∀ (afterDigit : Bool) (rest : Text),
      rest.head? ≠ some (.char '_') →
      dropUnderscores? afterDigit (w ++ rest) = (dropUnderscores? false rest).map (plain ++ ·) := by
  have hcons : ∀ {c : CodePoint} {d : Nat} {plain : Text} {ds : List Nat},
      decimalValue? c = some d → decimals? plain = some ds →
      decimals? (c :: plain) = some (d :: ds) := by
    intro c d plain ds hd hplain
    rw [decimals?] at hplain ⊢
    rw [List.mapM_cons, hd, hplain]
    rfl
  induction h with
  | @last c d hd =>
      refine ⟨[c], hcons hd rfl, ?_⟩
      intro afterDigit rest hrest
      rw [List.singleton_append, dropUnderscores?_cons (ne_underscore hd),
        dropUnderscores?_of_head hrest]
      rfl
  | @next c d s ds hd hs ih =>
      obtain ⟨plain, hplain, hdrop⟩ := ih
      refine ⟨c :: plain, hcons hd hplain, ?_⟩
      intro afterDigit rest hrest
      rw [List.cons_append, dropUnderscores?_cons (ne_underscore hd), hdrop _ _ hrest,
        Option.map_map]
      rfl
  | @gap c d s ds hd hs ih =>
      obtain ⟨plain, hplain, hdrop⟩ := ih
      refine ⟨c :: plain, hcons hd hplain, ?_⟩
      intro afterDigit rest hrest
      obtain ⟨e, t, rfl, he⟩ : ∃ e t, s = e :: t ∧ isDecimal e = true := by
        cases hs with
        | last he => exact ⟨_, _, rfl, Option.isSome_iff_exists.mpr ⟨_, he⟩⟩
        | next he _ => exact ⟨_, _, rfl, Option.isSome_iff_exists.mpr ⟨_, he⟩⟩
        | gap he _ => exact ⟨_, _, rfl, Option.isSome_iff_exists.mpr ⟨_, he⟩⟩
      -- The underscore has a digit on both sides, so it is dropped.
      have hc : isDecimal c = true := Option.isSome_iff_exists.mpr ⟨d, hd⟩
      rw [List.cons_append, dropUnderscores?_cons (ne_underscore hd), List.cons_append,
        List.cons_append, dropUnderscores?, hc, he]
      simp only [Bool.and_self, if_true]
      rw [← List.cons_append, hdrop false rest hrest, Option.map_map]
      rfl

/-- Digits with single underscores between them lose these, and are read one by one. -/
theorem DigitPart.exists_dropUnderscores? {w : Text} {ds : List Nat} (h : DigitPart w ds) :
    ∃ plain, decimals? plain = some ds ∧ dropUnderscores? false w = some plain := by
  obtain ⟨plain, hplain, hdrop⟩ := h.exists_plain
  have hnil := hdrop false [] (by simp)
  rw [List.append_nil, dropUnderscores?, Option.map_some, List.append_nil] at hnil
  exact ⟨plain, hplain, hnil⟩

/-- Only of the empty text nothing is left: an underscore stands between digits, which stay. -/
theorem eq_nil_of_dropUnderscores? {s : Text} (h : dropUnderscores? false s = some []) :
    s = [] := by
  cases s with
  | nil => rfl
  | cons c s =>
      obtain ⟨tail, htail, -⟩ := exists_tail_of_dropUnderscores? h
      cases htail

/-- A run of digits is read up to a character that is none. -/
theorem spanDecimals_of_decimals? {plain rest : Text} {ds : List Nat}
    (h : decimals? plain = some ds) (hrest : ∀ c ∈ rest.head?, decimalValue? c = none) :
    spanDecimals (plain ++ rest) = (ds, rest) := by
  rw [decimals?] at h
  induction plain generalizing ds with
  | nil =>
      cases h
      cases rest with
      | nil => rfl
      | cons c cs =>
          rw [List.nil_append, spanDecimals, hrest c rfl]
          rfl
  | cons c plain ih =>
      rw [List.mapM_cons] at h
      obtain ⟨d, hd, h⟩ := Option.bind_eq_some_iff.mp h
      obtain ⟨tail, htail, h⟩ := Option.bind_eq_some_iff.mp h
      cases h
      rw [List.cons_append, spanDecimals, hd, ih htail]

/-- A text of digits with underscores between them, and nothing else. -/
theorem digitPart_of_dropUnderscores? {s plain : Text} {ds : List Nat}
    (h : dropUnderscores? false s = some plain) (hplain : decimals? plain = some ds)
    (hne : ds ≠ []) : DigitPart s ds := by
  have hspan : spanDecimals plain = (ds, []) := by
    have hall : spanDecimals (plain ++ []) = (ds, []) :=
      spanDecimals_of_decimals? hplain (by simp)
    rwa [List.append_nil] at hall
  obtain ⟨w, rest, hsplit, hw, hrest⟩ := exists_digitPart s (head?_of_dropUnderscores? h) h
  rw [hspan] at hw hrest
  rw [hsplit, eq_nil_of_dropUnderscores? hrest, List.append_nil]
  exact hw.resolve_left fun hnil => hne hnil.2

/-! ### Signs -/

/-- A sign is taken off, if what follows does not start with another one. -/
theorem takeSign_of_signPart {sign body : Text} {negative : Bool} (h : SignPart sign negative)
    (hbody : ∀ c ∈ body.head?, c ≠ .char '-' ∧ c ≠ .char '+') :
    takeSign (sign ++ body) = (negative, body) := by
  cases h with
  | plus => rfl
  | minus => rfl
  | absent =>
      cases body with
      | nil => rfl
      | cons c body =>
          obtain ⟨hminus, hplus⟩ := hbody c rfl
          rw [List.nil_append, takeSign]
          · intro _ heq
            exact hminus (List.cons.inj heq).1
          · intro _ heq
            exact hplus (List.cons.inj heq).1

/-- Whatever is taken off a text is a sign, or nothing. -/
theorem exists_signPart (s : Text) :
    ∃ sign, s = sign ++ (takeSign s).2 ∧ SignPart sign (takeSign s).1 := by
  rw [takeSign.eq_def]
  split
  · exact ⟨[.char '-'], rfl, .minus⟩
  · exact ⟨[.char '+'], rfl, .plus⟩
  · exact ⟨[], rfl, .absent⟩

/-- A sign is no digit, so underscores behind it are dropped as if it were not there. -/
theorem dropUnderscores?_signPart {sign : Text} {negative : Bool} (h : SignPart sign negative)
    (s : Text) :
    dropUnderscores? false (sign ++ s) = (dropUnderscores? false s).map (sign ++ ·) := by
  cases h with
  | absent => simp
  | plus => rw [List.singleton_append, dropUnderscores?_cons (by decide)]; rfl
  | minus => rw [List.singleton_append, dropUnderscores?_cons (by decide)]; rfl

/-- The sign in front of what is left stands in front of the text too. -/
theorem exists_signPart_of_dropUnderscores? {s plain : Text}
    (h : dropUnderscores? false s = some plain) :
    ∃ sign body, s = sign ++ body ∧ SignPart sign (takeSign plain).1 ∧
      dropUnderscores? false body = some (takeSign plain).2 := by
  obtain ⟨sign, hplain, hsign⟩ := exists_signPart plain
  cases hsign' : sign with
  | nil =>
      rw [hsign'] at hsign hplain
      exact ⟨[], s, rfl, hsign, by rw [h, ← List.nil_append (takeSign plain).2, ← hplain]⟩
  | cons c cs =>
      -- A sign is no digit, so no underscore can stand behind it.
      have hone : sign = [c] ∧ isDecimal c = false := by
        rw [hsign'] at hsign ⊢
        generalize (takeSign plain).1 = negative at hsign
        cases hsign with
        | plus => exact ⟨rfl, by decide⟩
        | minus => exact ⟨rfl, by decide⟩
      rw [hplain, hone.1] at h
      obtain ⟨rest, hrest, hdrop⟩ := exists_rest_of_dropUnderscores? hone.2 h
      exact ⟨sign, rest, by rw [hrest, hone.1]; rfl, hsign, hdrop⟩

/-! ### Whole numbers -/

/-- Digits start with a digit. -/
theorem DigitPart.head? {w : Text} {ds : List Nat} (h : DigitPart w ds) :
    ∃ c d, w.head? = some c ∧ decimalValue? c = some d := by
  cases h with
  | last hd => exact ⟨_, _, rfl, hd⟩
  | next hd _ => exact ⟨_, _, rfl, hd⟩
  | gap hd _ => exact ⟨_, _, rfl, hd⟩

/-- There is one digit at least. -/
theorem DigitPart.ne_nil {w : Text} {ds : List Nat} (h : DigitPart w ds) : ds ≠ [] := by
  cases h <;> exact List.cons_ne_nil _ _

/-- Neither a sign nor a point starts a digit part. -/
theorem DigitPart.not_mark {w : Text} {ds : List Nat} (h : DigitPart w ds) {m : CodePoint}
    (hm : decimalValue? m = none) : ∀ c ∈ w.head?, c ≠ m := by
  intro c hc heq
  obtain ⟨c', d, hc', hd⟩ := h.head?
  rw [Option.mem_def.mp hc, Option.some.injEq] at hc'
  rw [← hc', heq, hm] at hd
  cases hd

/-- The whole numbers are read from their literals, and from nothing else. -/
theorem readInt?_eq_some_iff {s : Text} {i : Int} : readInt? s = some i ↔ IsIntLiteral s i := by
  constructor
  · intro h
    obtain ⟨sign, hsplit, hsign⟩ := exists_signPart s
    simp only [readInt?, Option.bind_eq_bind, Option.bind_eq_some_iff] at h
    obtain ⟨plain, hplain, digits, hdigits, h⟩ := h
    split at h
    · cases h
    · rename_i hbound
      simp only [Bool.or_eq_true, List.isEmpty_iff, decide_eq_true_eq, not_or, Nat.not_lt]
        at hbound
      exact ⟨sign, _, _, digits, hsplit, hsign,
        digitPart_of_dropUnderscores? hplain hdigits hbound.1, hbound.2, (Option.some.inj h).symm⟩
  · intro h
    obtain ⟨sign, negative, body, digits, rfl, hsign, hbody, hlength, rfl⟩ := h
    obtain ⟨plain, hplain, hdrop⟩ := hbody.exists_dropUnderscores?
    -- The digits start with no sign, so only that of the literal is taken.
    have hmark : ∀ c ∈ body.head?, c ≠ .char '-' ∧ c ≠ .char '+' := fun c hc =>
      ⟨hbody.not_mark (by decide) c hc, hbody.not_mark (by decide) c hc⟩
    have hempty : digits.isEmpty = false := by
      simpa using hbody.ne_nil
    simp only [readInt?, takeSign_of_signPart hsign hmark, hdrop, Option.bind_eq_bind,
      Option.bind_some, hplain, hempty, Bool.false_or, decide_eq_true_eq]
    rw [if_neg (by omega)]

/-- The numeral of a whole number is a literal of it. -/
theorem isIntLiteral_intText {i : Int} (h : (natText i.natAbs).length ≤ maxDigits) :
    IsIntLiteral (intText i) i := by
  have hread : ∀ n : Nat, (natText n).length ≤ maxDigits → IsIntLiteral (natText n) n := by
    intro n hn
    exact readInt?_eq_some_iff.mp (readInt?_natText hn)
  obtain ⟨sign, negative, body, digits, hbody, hsign, hdigits, hlength, hvalue⟩ := hread _ h
  -- A numeral has no sign, so its literal has none either.
  have hnone : sign = [] := by
    cases hsign with
    | absent => rfl
    | plus =>
        exact absurd (areDigits_natText i.natAbs (.char '+') (by rw [hbody]; exact List.mem_cons_self))
          (by decide)
    | minus =>
        exact absurd (areDigits_natText i.natAbs (.char '-') (by rw [hbody]; exact List.mem_cons_self))
          (by decide)
  subst hnone
  have hnegative : negative = false := by
    cases hsign
    rfl
  subst hnegative
  rw [List.nil_append] at hbody
  have hvalue : (i.natAbs : Int) = ofDecimals digits := hvalue
  rw [intText]
  split
  · refine ⟨[.char '-'], true, body, digits, by rw [hbody]; rfl, .minus, hdigits, hlength, ?_⟩
    show i = -(ofDecimals digits : Int)
    omega
  · refine ⟨[], false, body, digits, by rw [hbody]; rfl, .absent, hdigits, hlength, ?_⟩
    show i = (ofDecimals digits : Int)
    omega

/-! ### Fractions -/

/-- The digits on both sides of the point, and the text after them. -/
def splitNumber (body : Text) : (List Nat × List Nat) × Text :=
  let (whole, rest) := spanDecimals body
  let (fraction, rest) := match rest with
    | .char '.' :: cs => spanDecimals cs
    | cs => ([], cs)
  ((whole, fraction), rest)

/-- Where a point follows the digits, the ones behind it count too. -/
theorem splitNumber_of_point {body rest : Text} {whole : List Nat}
    (h : spanDecimals body = (whole, .char '.' :: rest)) :
    splitNumber body = ((whole, (spanDecimals rest).1), (spanDecimals rest).2) := by
  simp only [splitNumber, h]

/-- Where none does, there are no digits behind it. -/
theorem splitNumber_of_ne {body rest : Text} {whole : List Nat}
    (h : spanDecimals body = (whole, rest)) (hrest : rest.head? ≠ some (.char '.')) :
    splitNumber body = ((whole, []), rest) := by
  simp only [splitNumber, h]
  split
  · exact absurd rfl hrest
  · rfl

/-- When a fraction is read, in terms of the text without underscores. -/
theorem isSome_readFloat?_eq (s : Text) :
    (readFloat? s).isSome = true ↔ ∃ plain, dropUnderscores? false s = some plain ∧
      ((takeSign plain).2.map CodePoint.toLower ∈ literalWords ∨
        (splitNumber (takeSign plain).2).1 ≠ ([], []) ∧
          (readExponent? (splitNumber (takeSign plain).2).2).isSome = true) := by
  rw [readFloat?]
  cases dropUnderscores? false s with
  | none => simp
  | some plain =>
      simp only [Option.bind_eq_bind, Option.bind_some, Option.some.injEq, exists_eq_left']
      generalize takeSign plain = signed
      obtain ⟨negative, body⟩ := signed
      dsimp only
      split
      · rename_i hword
        refine iff_of_true rfl (.inl ?_)
        simp only [Bool.or_eq_true, decide_eq_true_eq] at hword
        simp only [literalWords, List.mem_cons, List.not_mem_nil, or_false]
        exact hword.elim .inl fun h => .inr (.inl h)
      · rename_i hword
        split
        · rename_i hnan
          exact iff_of_true rfl (.inl (by simp [literalWords, hnan]))
        · rename_i hnan
          have hnone : body.map CodePoint.toLower ∉ literalWords := by
            simp only [Bool.or_eq_true, decide_eq_true_eq, not_or] at hword
            simp only [literalWords, List.mem_cons, List.not_mem_nil, or_false, not_or]
            exact ⟨hword.1, hword.2, hnan⟩
          rw [or_iff_right hnone]
          -- Said of any parts, as only their emptiness and the rest matter.
          have hall : ∀ parts : (List Nat × List Nat) × Text,
              (if (parts.1.1.isEmpty && parts.1.2.isEmpty) = true then none
                else (readExponent? parts.2).bind fun exponent =>
                  some (scaled negative (parts.1.1 ++ parts.1.2)
                    (exponent - parts.1.2.length))).isSome = true ↔
              parts.1 ≠ ([], []) ∧ (readExponent? parts.2).isSome = true := by
            intro parts
            obtain ⟨⟨whole, fraction⟩, rest⟩ := parts
            cases whole <;> cases fraction <;> cases readExponent? rest <;> simp
          exact hall (splitNumber body)

/-- A decimal digit has no other case. -/
theorem toLower_of_isDecimal {c : CodePoint} (h : isDecimal c = true) : c.toLower = c := by
  cases c with
  | surrogate offset => rfl
  | char ch =>
      have hnot : ¬ ('A'.val ≤ ch.val ∧ ch.val ≤ 'Z'.val) := by
        intro hrange
        have hlow : 65 ≤ ch.val.toNat := hrange.1
        have hhigh : ch.val.toNat ≤ 90 := hrange.2
        have hcode : (CodePoint.char ch).toNat = ch.val.toNat := rfl
        have hrange : (decide (48 ≤ ch.val.toNat) && decide (ch.val.toNat ≤ 57)) = false := by
          simp only [Bool.and_eq_false_iff, decide_eq_false_iff_not]
          omega
        rw [isDecimal, decimalValue?, hcode, if_pos (by omega), hrange] at h
        cases h
      have hlower : ch.toLower = ch := dif_neg hnot
      rw [CodePoint.toLower, CodePoint.mapChar, hlower]

/-- The words have no digits, so none of the underscores that stand between digits. -/
theorem eq_of_dropUnderscores?_of_word {s word : Text} (h : dropUnderscores? false s = some word)
    (hword : word.map CodePoint.toLower ∈ literalWords) : s = word := by
  have hletters : ∀ c ∈ word, isDecimal c = false := by
    intro c hc
    rw [Bool.eq_false_iff]
    intro hdecimal
    have hall : ∀ w ∈ literalWords, ∀ c ∈ w, isDecimal c = false := by decide
    have hmem : c.toLower ∈ word.map CodePoint.toLower := List.mem_map_of_mem hc
    rw [toLower_of_isDecimal hdecimal] at hmem
    rw [hall _ hword c hmem] at hdecimal
    cases hdecimal
  clear hword
  -- Behind a character that is no digit the induction starts again.
  induction s generalizing word with
  | nil => simpa [dropUnderscores?] using h
  | cons c s ih =>
      obtain ⟨tail, rfl, htail⟩ := exists_tail_of_dropUnderscores? h
      rw [List.forall_mem_cons] at hletters
      rw [hletters.1] at htail
      rw [ih htail hletters.2]

/-- What is read as a power of ten has the form of one, the underscores included. -/
theorem exponentPart_of_dropUnderscores? {s plain : Text}
    (h : dropUnderscores? false s = some plain) (hread : (readExponent? plain).isSome = true) :
    ExponentPart s := by
  cases s with
  | nil => exact .absent
  | cons c s =>
      obtain ⟨tail, rfl, htail⟩ := exists_tail_of_dropUnderscores? h
      rw [readExponent?] at hread
      simp only [Bool.or_eq_true, decide_eq_true_eq] at hread
      split at hread
      · rename_i hmark
        -- The mark is no digit, so what follows is read as from a start.
        have hdigit : isDecimal c = false := by
          cases hmark with
          | inl hmark => rw [hmark]; decide
          | inr hmark => rw [hmark]; decide
        rw [hdigit] at htail
        obtain ⟨sign, body, rfl, hsign, hbody⟩ := exists_signPart_of_dropUnderscores? htail
        generalize takeSign tail = signed at hsign hbody hread
        obtain ⟨negative, rest⟩ := signed
        simp only at hread
        split at hread
        · cases hread
        · cases hread
        · rename_i ds hne hdigits
          refine .power hmark hsign (digitPart_of_dropUnderscores? hbody hdigits ?_)
          intro hnil
          exact hne hnil
      · cases hread

/-- What is read as a fraction is a literal of the grammar. -/
theorem isFloatLiteral_of_isSome {s : Text} (h : (readFloat? s).isSome = true) :
    IsFloatLiteral s := by
  obtain ⟨plain, hplain, hread⟩ := (isSome_readFloat?_eq s).mp h
  clear h
  obtain ⟨sign, body, rfl, hsign, hbody⟩ := exists_signPart_of_dropUnderscores? hplain
  generalize takeSign plain = signed at hsign hbody hread
  obtain ⟨negative, rest⟩ := signed
  dsimp only at hsign hbody hread
  obtain hword | ⟨hne, hexponent⟩ := hread
  · rw [eq_of_dropUnderscores?_of_word hbody hword]
    exact .word hsign hword
  · obtain ⟨w, after, rfl, hw, hafter⟩ :=
      exists_digitPart body (head?_of_dropUnderscores? hbody) hbody
    by_cases hpoint : (spanDecimals rest).2.head? = some (.char '.')
    · obtain ⟨tail, htail⟩ : ∃ tail, (spanDecimals rest).2 = .char '.' :: tail := by
        cases hrest : (spanDecimals rest).2 with
        | nil => rw [hrest] at hpoint; cases hpoint
        | cons c tail =>
            rw [hrest] at hpoint
            exact ⟨tail, by rw [Option.some.inj hpoint]⟩
      have hspan : spanDecimals rest = ((spanDecimals rest).1, .char '.' :: tail) :=
        Prod.ext rfl htail
      have hsplit := splitNumber_of_point hspan
      rw [hsplit] at hne hexponent
      rw [htail] at hafter
      -- The point that is left stood behind the digits in the text.
      obtain ⟨r, rfl, hr⟩ := exists_rest_of_dropUnderscores? (by decide) hafter
      obtain ⟨f, e, rfl, hf, he⟩ := exists_digitPart r (head?_of_dropUnderscores? hr) hr
      have he := exponentPart_of_dropUnderscores? he hexponent
      obtain ⟨rfl, hwhole⟩ | hw := hw
      · obtain ⟨rfl, hfraction⟩ | hf := hf
        · exact absurd (Prod.ext hwhole hfraction) hne
        · show IsFloatLiteral (sign ++ (.char '.' :: f ++ e))
          exact .number hsign (.fraction hf) he
      · obtain ⟨rfl, -⟩ | hf := hf
        · have hnumber := IsFloatLiteral.number hsign (.pointed hw) he
          rwa [List.append_assoc] at hnumber
        · have hnumber := IsFloatLiteral.number hsign (.split hw hf) he
          rwa [List.append_assoc] at hnumber
    · have hspan : spanDecimals rest = ((spanDecimals rest).1, (spanDecimals rest).2) := rfl
      have hsplit := splitNumber_of_ne hspan hpoint
      rw [hsplit] at hne hexponent
      have he := exponentPart_of_dropUnderscores? hafter hexponent
      obtain ⟨-, hwhole⟩ | hw := hw
      · exact absurd (congrArg (·, []) hwhole) hne
      · exact .number hsign (.whole hw) he

/-- Digits are no marks. -/
theorem not_mark_of_decimals? {plain : Text} {ds : List Nat} (h : decimals? plain = some ds)
    {m : CodePoint} (hm : decimalValue? m = none) : ∀ c ∈ plain.head?, c ≠ m := by
  intro c hc heq
  cases plain with
  | nil => cases hc
  | cons c' plain =>
      rw [decimals?, List.mapM_cons] at h
      obtain ⟨d, hd, -⟩ := Option.bind_eq_some_iff.mp h
      cases hc
      rw [heq, hm] at hd
      cases hd

/-- A power of ten is read, and it is told from what may stand before it. -/
theorem ExponentPart.exists_plain {e : Text} (h : ExponentPart e) :
    ∃ plain, dropUnderscores? false e = some plain ∧ (readExponent? plain).isSome = true ∧
      ∀ c ∈ plain.head?, decimalValue? c = none ∧ c ≠ .char '.' := by
  cases h with
  | absent => exact ⟨[], rfl, rfl, by simp⟩
  | @power mark sign body negative ds hmark hsign hbody =>
      have hm : isDecimal mark = false ∧ decimalValue? mark = none ∧ mark ≠ .char '.' ∧
          mark ≠ .char '_' := by
        cases hmark with
        | inl hmark => rw [hmark]; decide
        | inr hmark => rw [hmark]; decide
      obtain ⟨plain, hplain, hdrop⟩ := hbody.exists_dropUnderscores?
      have hhead : ∀ c ∈ plain.head?, c ≠ .char '-' ∧ c ≠ .char '+' := fun c hc =>
        ⟨not_mark_of_decimals? hplain (by decide) c hc,
          not_mark_of_decimals? hplain (by decide) c hc⟩
      refine ⟨mark :: (sign ++ plain), ?_, ?_, ?_⟩
      · rw [dropUnderscores?_cons hm.2.2.2, hm.1, dropUnderscores?_signPart hsign, hdrop]
        rfl
      · obtain ⟨d, tail, rfl⟩ := List.exists_cons_of_ne_nil hbody.ne_nil
        rw [readExponent?, if_pos (by simpa using hmark)]
        simp only [takeSign_of_signPart hsign hhead, hplain]
        rfl
      · intro c hc
        cases hc
        exact ⟨hm.2.1, hm.2.2.1⟩

/-- A text without its underscores, whatever follows. -/
def Drops (w plain : Text) : Prop :=
  ∀ rest, rest.head? ≠ some (.char '_') →
    dropUnderscores? false (w ++ rest) = (dropUnderscores? false rest).map (plain ++ ·)

/-- Nothing is left without underscores as it is. -/
theorem drops_nil : Drops [] [] := by
  intro rest _
  cases h : dropUnderscores? false rest <;> simp [h]

/-- Underscores on both sides of a point are dropped apart. -/
theorem Drops.point {w f plain plain' : Text} (hw : Drops w plain) (hf : Drops f plain') :
    Drops (w ++ .char '.' :: f) (plain ++ .char '.' :: plain') := by
  intro rest hrest
  have hpoint : dropUnderscores? false (.char '.' :: (f ++ rest))
      = (dropUnderscores? false (f ++ rest)).map (.char '.' :: ·) := by
    rw [dropUnderscores?_cons (by decide)]
    rfl
  rw [List.append_assoc, List.cons_append, hw _ (by simp), hpoint, hf rest hrest, Option.map_map,
    Option.map_map]
  congr 1
  funext t
  simp

/-- Either side of the point may be without digits. -/
theorem splitNumber_point {plain plain' rest : Text} {ds es : List Nat}
    (h : decimals? plain = some ds) (h' : decimals? plain' = some es)
    (hrest : ∀ c ∈ rest.head?, decimalValue? c = none) :
    splitNumber (plain ++ .char '.' :: plain' ++ rest) = ((ds, es), rest) := by
  have hpoint : decimalValue? (.char '.') = none := by decide
  have hspan : spanDecimals (plain ++ .char '.' :: (plain' ++ rest))
      = (ds, .char '.' :: (plain' ++ rest)) :=
    spanDecimals_of_decimals? h (by simpa using hpoint)
  rw [List.append_assoc, List.cons_append, splitNumber_of_point hspan,
    spanDecimals_of_decimals? h' hrest]

/-- Digits start with no sign, whatever stands behind them. -/
theorem exists_head_of_decimals? {plain : Text} {ds : List Nat} (h : decimals? plain = some ds)
    (hne : ds ≠ []) (tail : Text) :
    ∃ c cs, plain ++ tail = c :: cs ∧ c ≠ .char '-' ∧ c ≠ .char '+' := by
  cases plain with
  | nil =>
      cases h
      exact absurd rfl hne
  | cons c cs =>
      exact ⟨c, cs ++ tail, rfl, not_mark_of_decimals? h (by decide) c rfl,
        not_mark_of_decimals? h (by decide) c rfl⟩

/-- The text that is left of a mantissa: what is dropped of it does not depend on what follows,
and neither do the digits that are found. -/
theorem Mantissa.exists_plain {m : Text} (h : Mantissa m) :
    ∃ plain, Drops m plain ∧
      (∀ rest, (∀ c ∈ rest.head?, decimalValue? c = none ∧ c ≠ .char '.') →
        (splitNumber (plain ++ rest)).1 ≠ ([], []) ∧ (splitNumber (plain ++ rest)).2 = rest) ∧
      ∃ c cs, plain = c :: cs ∧ c ≠ .char '-' ∧ c ≠ .char '+' := by
  have hempty : decimals? [] = some [] := rfl
  cases h with
  | @whole _ ds hw =>
      obtain ⟨plain, hplain, hdrop⟩ := hw.exists_plain
      have hhead := exists_head_of_decimals? hplain hw.ne_nil []
      rw [List.append_nil] at hhead
      refine ⟨plain, hdrop false, ?_, hhead⟩
      intro rest hrest
      rw [splitNumber_of_ne (spanDecimals_of_decimals? hplain fun c hc => (hrest c hc).1)
        fun hc => (hrest _ hc).2 rfl]
      exact ⟨fun heq => hw.ne_nil (Prod.mk.inj heq).1, rfl⟩
  | @pointed w ds hw =>
      obtain ⟨plain, hplain, hdrop⟩ := hw.exists_plain
      refine ⟨_, (show Drops w plain from hdrop false).point drops_nil, ?_,
        exists_head_of_decimals? hplain hw.ne_nil _⟩
      intro rest hrest
      rw [splitNumber_point hplain hempty fun c hc => (hrest c hc).1]
      exact ⟨fun heq => hw.ne_nil (Prod.mk.inj heq).1, rfl⟩
  | @split w f ds es hw hf =>
      obtain ⟨plain, hplain, hdrop⟩ := hw.exists_plain
      obtain ⟨plain', hplain', hdrop'⟩ := hf.exists_plain
      refine ⟨_, (show Drops w plain from hdrop false).point (hdrop' false), ?_,
        exists_head_of_decimals? hplain hw.ne_nil _⟩
      intro rest hrest
      rw [splitNumber_point hplain hplain' fun c hc => (hrest c hc).1]
      exact ⟨fun heq => hw.ne_nil (Prod.mk.inj heq).1, rfl⟩
  | @fraction f es hf =>
      obtain ⟨plain', hplain', hdrop'⟩ := hf.exists_plain
      refine ⟨_, drops_nil.point (hdrop' false), ?_, .char '.', plain', rfl, by decide, by decide⟩
      intro rest hrest
      rw [splitNumber_point hempty hplain' fun c hc => (hrest c hc).1]
      exact ⟨fun heq => hf.ne_nil (Prod.mk.inj heq).2, rfl⟩

/-- Every literal of the grammar is read. With `isFloatLiteral_of_isSome` this says exactly which
texts are. -/
theorem IsFloatLiteral.isSome {s : Text} (h : IsFloatLiteral s) :
    (readFloat? s).isSome = true := by
  rw [isSome_readFloat?_eq]
  cases h with
  | @word sign w negative hsign hword =>
      have hletters : ∀ word ∈ literalWords, ∀ c ∈ word, c ≠ .char '_' ∧ c ≠ .char '-' ∧
          c ≠ .char '+' := by
        decide
      -- A mark would still be there in lower case, and no word has one.
      have hmarks : ∀ c ∈ w, c ≠ .char '_' ∧ c ≠ .char '-' ∧ c ≠ .char '+' := by
        intro c hc
        obtain ⟨hgap, hminus, hplus⟩ := hletters _ hword _ (List.mem_map_of_mem hc)
        refine ⟨?_, ?_, ?_⟩
        · intro heq
          exact hgap (by rw [heq]; rfl)
        · intro heq
          exact hminus (by rw [heq]; rfl)
        · intro heq
          exact hplus (by rw [heq]; rfl)
      have hdrop : dropUnderscores? false w = some w :=
        dropUnderscores?_eq_self (fun hmem => (hmarks _ hmem).1 rfl) false
      refine ⟨sign ++ w, by rw [dropUnderscores?_signPart hsign, hdrop]; rfl, .inl ?_⟩
      rw [takeSign_of_signPart hsign fun c hc => (hmarks c (List.mem_of_mem_head? hc)).2]
      exact hword
  | @number sign m e negative hsign hm he =>
      obtain ⟨plain, hdrop, hsplit, c, cs, hcs, hc⟩ := hm.exists_plain
      obtain ⟨plain', hdrop', hread, hhead⟩ := he.exists_plain
      refine ⟨sign ++ (plain ++ plain'), ?_, .inr ?_⟩
      · rw [dropUnderscores?_signPart hsign, hdrop e (head?_of_dropUnderscores? hdrop'), hdrop']
        rfl
      · have hsign' : takeSign (sign ++ (plain ++ plain')) = (negative, plain ++ plain') := by
          apply takeSign_of_signPart hsign
          rw [hcs]
          intro c' hc'
          cases hc'
          exact hc
        rw [hsign', (hsplit plain' hhead).2]
        exact ⟨(hsplit plain' hhead).1, hread⟩

/-- The fractions are read from their literals, and from nothing else. -/
theorem isSome_readFloat?_iff {s : Text} : (readFloat? s).isSome = true ↔ IsFloatLiteral s :=
  ⟨isFloatLiteral_of_isSome, IsFloatLiteral.isSome⟩

end RouteDocs.Number
