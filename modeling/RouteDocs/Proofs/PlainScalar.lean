import Mathlib.Data.List.TakeWhile
import RouteDocs.Yaml.ScalarValue
import RouteDocs.Proofs.FloatText
import RouteDocs.Proofs.PlainText
import RouteDocs.Proofs.QuotedText
import RouteDocs.Proofs.Words

/-!
# `RouteDocs.Proofs.PlainScalar`: JSON numbers as YAML reads them

JSON writes numbers and truth values without quotes, and YAML tells what such a word is from
its form. A whole number is one in both formats (`scalarValue_intText`). A fraction needs a
point in YAML and none in JSON: `scalarValue_floatText` says that a double is read back as
itself if its text has a point, and as that text if it has none. So it goes for `1e+22`, and
for the words `NaN` and `Infinity`.

`IsPlainWord` is the class of words that all these texts belong to.
-/

set_option autoImplicit false

namespace RouteDocs

open Text Number

/-! ### Words -/

/-- The characters of numbers and truth values. -/
def CodePoint.isWordChar (c : CodePoint) : Bool :=
  c.isAlphanum || c = '.' || c = '+' || c = '-'

/-- The characters of plain words are in ASCII. -/
theorem CodePoint.toNat_lt_of_isWordChar {c : CodePoint} (h : c.isWordChar = true) :
    c.toNat < 128 := by
  cases c with
  | surrogate offset => simp [isWordChar, isAlphanum, isOf] at h
  | char ch =>
      have halpha : ch.isAlpha = (decide ('A'.val ≤ ch.val ∧ ch.val ≤ 'Z'.val) ||
          decide ('a'.val ≤ ch.val) && decide (ch.val ≤ 'z'.val)) := rfl
      simp only [isWordChar, isAlphanum, isOf, Char.isAlphanum, halpha, Char.isDigit,
        Bool.or_eq_true, Bool.and_eq_true, decide_eq_true_eq, CodePoint.char.injEq] at h
      have hval : ∀ n : UInt32, ch.val ≤ n → ch.toNat ≤ n.toNat := fun _ => id
      rcases h with ((((⟨-, h⟩ | ⟨-, h⟩) | ⟨-, h⟩) | rfl) | rfl) | rfl
      · exact Nat.lt_of_le_of_lt (hval _ h) (by decide)
      · exact Nat.lt_of_le_of_lt (hval _ h) (by decide)
      · exact Nat.lt_of_le_of_lt (hval _ h) (by decide)
      all_goals decide

/-- What a character of a word is not. -/
theorem CodePoint.not_mark_of_isWordChar {c : CodePoint} (h : c.isWordChar = true) :
    c.IsPrintable ∧ isBlank c = false ∧ (" _:#?,[]\x7b\x7d\n" : Text).contains c = false := by
  have hall : ∀ n : Fin 128, (CodePoint.ofNat n).isWordChar = true →
      (CodePoint.ofNat n).IsPrintable ∧ isBlank (CodePoint.ofNat n) = false ∧
        (" _:#?,[]\x7b\x7d\n" : Text).contains (CodePoint.ofNat n) = false := by
    decide +kernel
  have hc := hall ⟨c.toNat, toNat_lt_of_isWordChar h⟩
  simp only [ofNat_toNat] at hc
  exact hc h

/-- Digits are among them. -/
theorem CodePoint.isWordChar_of_isDigit {c : CodePoint} (h : c.isDigit = true) :
    c.isWordChar = true := by
  cases c with
  | surrogate offset => cases h
  | char ch =>
      have hdigit : ch.isDigit = true := h
      simp [isWordChar, isAlphanum, isOf, Char.isAlphanum, hdigit]

/-- A word that needs no quotes. -/
structure IsPlainWord (w : Text) : Prop where
  /-- All its characters are those of numbers and truth values. -/
  isWordChar : ∀ c ∈ w, c.isWordChar = true
  /-- It starts with a letter or digit, or with a minus in front of one. -/
  start : ∃ c cs, w = c :: cs ∧
    (c.isAlphanum = true ∨ c = .char '-' ∧ ∃ d ds, cs = d :: ds ∧ d.isAlphanum = true)

/-- What means something to YAML, and the line feed, is not in a plain word. -/
theorem IsPlainWord.not_mem {w : Text} (h : IsPlainWord w) {c : CodePoint}
    (hc : (" _:#?,[]\x7b\x7d\n" : Text).contains c = true) : c ∉ w := by
  intro hmem
  have hnot := (CodePoint.not_mark_of_isWordChar (h.isWordChar c hmem)).2.2
  rw [hc] at hnot
  cases hnot

/-- A plain word is not empty. -/
theorem IsPlainWord.isEmpty_eq {w : Text} (h : IsPlainWord w) : w.isEmpty = false := by
  obtain ⟨c, cs, rfl, -⟩ := h.start
  rfl

/-- No underscore is left out of a word. -/
theorem IsPlainWord.filter_eq_self {w : Text} (h : IsPlainWord w) :
    w.filter (fun c => decide (c ≠ .char '_')) = w :=
  List.filter_eq_self.mpr fun _ hc => decide_eq_true fun heq => h.not_mem rfl (heq ▸ hc)

/-- A plain word has no blanks around it. -/
theorem IsPlainWord.trim_eq {w : Text} (h : IsPlainWord w) : trim w = w :=
  trim_eq_self fun c hc => (CodePoint.not_mark_of_isWordChar (h.isWordChar c hc)).2.1

/-! ### Signed numbers -/

namespace Number

/-- The sign that was put in front of digits is taken off again. -/
theorem takeSign_signed {c : CodePoint} (h : c.isDigit = true) (negative : Bool) (cs : Text) :
    takeSign (signed negative (c :: cs)) = (negative, c :: cs) := by
  cases negative with
  | false => exact takeSign_of_isDigit h cs
  | true => rfl

/-- A sign brings a minus at most. -/
theorem mem_signed {negative : Bool} {s : Text} {c : CodePoint} (h : c ∈ signed negative s) :
    c = .char '-' ∨ c ∈ s := by
  cases negative with
  | false => exact .inr h
  | true => exact List.mem_cons.mp h

/-- A minus and digits, or digits alone, in front of letters, digits and marks of numbers. -/
theorem isPlainWord_signed {c : CodePoint} {cs : Text} (hc : c.isDigit = true)
    (hcs : ∀ d ∈ cs, d.isWordChar = true) (negative : Bool) :
    IsPlainWord (signed negative (c :: cs)) := by
  have halpha : c.isAlphanum = true := by
    cases c with
    | surrogate offset => cases hc
    | char ch =>
        have hdigit : ch.isDigit = true := hc
        simp [CodePoint.isAlphanum, CodePoint.isOf, Char.isAlphanum, hdigit]
  constructor
  · intro d hd
    rcases mem_signed hd with rfl | hd
    · decide
    · rcases List.mem_cons.mp hd with rfl | hd
      · exact CodePoint.isWordChar_of_isDigit hc
      · exact hcs d hd
  · cases negative with
    | false => exact ⟨c, cs, rfl, .inl halpha⟩
    | true => exact ⟨.char '-', c :: cs, rfl, .inr ⟨rfl, c, cs, rfl, halpha⟩⟩

namespace NumberText

/-- What numbers are written with may stand in a plain word. -/
theorem IsPart.isWordChar {c : CodePoint} (h : IsPart c) : c.isWordChar = true := by
  rcases h with h | rfl | rfl | rfl | rfl
  · exact CodePoint.isWordChar_of_isDigit h
  all_goals decide

/-- The text of a number is a plain word, with its sign. -/
theorem isPlainWord (p : NumberText) (negative : Bool) : IsPlainWord (signed negative p.text) := by
  obtain ⟨c, cs, htext, hc⟩ := p.exists_text_eq_cons
  rw [htext]
  apply isPlainWord_signed hc
  intro d hd
  exact (isPart_of_mem (p := p) (by rw [htext]; exact List.mem_cons_of_mem _ hd)).isWordChar

/-- The sign of the text of a number is taken off again. -/
theorem takeSign_text (p : NumberText) (negative : Bool) :
    takeSign (signed negative p.text) = (negative, p.text) := by
  obtain ⟨c, cs, htext, hc⟩ := p.exists_text_eq_cons
  rw [htext, takeSign_signed hc]

end NumberText

end Number

/-! ### The kind of a number -/

namespace Yaml

/-- Whether a text starts as a number does: with a digit or a minus. -/
def startsNumber (s : Text) : Bool := s.head?.any fun c => c.isDigit || c = .char '-'

/-- What starts as a number and is none is a moment or a text. -/
theorem ofPlain_of_startsNumber {s : Text} (hstart : startsNumber s = true)
    (hfeed : .char '\n' ∉ s) :
    Kind.ofPlain s
      = if isFloatForm s then .float
        else if isIntForm s then .int
        else if isStampForm s then .timestamp
        else .str := by
  -- No word that stands for another kind starts as a number.
  have hne : ∀ w : Text, startsNumber w = false → s ≠ w := by
    rintro w hw rfl
    rw [hstart] at hw
    cases hw
  have hlast : dropFinalFeed s = s := by
    rw [dropFinalFeed, if_neg]
    exact fun h => hfeed (List.mem_of_getLast? h)
  have hbool : ¬ (boolWords.any fun w => w.1 = s) = true := by
    have hwords : ∀ w ∈ boolWords, startsNumber w.1 = false := by decide
    rw [List.any_eq_true]
    rintro ⟨w, hw, heq⟩
    exact hne w.1 (hwords w hw) (decide_eq_true_eq.mp heq).symm
  have hnull : ¬ (nullWords.any fun w => w = s) = true := by
    have hwords : ∀ w ∈ nullWords, startsNumber w = false := by decide
    rw [List.any_eq_true]
    rintro ⟨w, hw, heq⟩
    exact hne w (hwords w hw) (decide_eq_true_eq.mp heq).symm
  have hmarks : ¬ (decide (s = "!") || decide (s = "&") || decide (s = "*")) = true := by
    simp [hne "!" (by decide), hne "&" (by decide), hne "*" (by decide)]
  simp only [Kind.ofPlain, hlast, ite_self]
  rw [if_neg hbool, if_neg hnull, if_neg hmarks, if_neg (hne "<<" (by decide)),
    if_neg (hne "=" (by decide))]

/-- Digits with or without a sign start what may be a number. -/
theorem startsNumber_signed {c : CodePoint} (h : c.isDigit = true) (negative : Bool) (cs : Text) :
    startsNumber (signed negative (c :: cs)) = true := by
  cases negative with
  | false => simp [signed, startsNumber, h]
  | true => rfl

/-- A moment starts with a year and a minus. -/
theorem stamp?_eq_none {s : Text} (hlast : s.getLast? ≠ some (.char '\n'))
    (h : ∀ n width rest, takeDigits? 4 4 s = some (n, width, rest) → passChar? '-' rest = none) :
    stamp? s = none := by
  rw [stamp?, dropFinalFeed, if_neg hlast]
  cases htake : takeDigits? 4 4 s with
  | none => rfl
  | some r =>
      obtain ⟨n, width, rest⟩ := r
      show (passChar? '-' rest).bind _ = none
      rw [h n width rest htake]
      rfl

/-- Digits are what a numeral may hold, where underscores are allowed too. -/
theorem AreDigits.all_isSpacedDigit {s : Text} (h : AreDigits s) : s.all isSpacedDigit = true := by
  rw [List.all_eq_true]
  intro c hc
  simp [isSpacedDigit, h c hc]

section
variable (p : NumberText)

/-- A number with a fraction: its whole part, a point, the fraction and the exponent. -/
theorem text_of_fraction_eq_some {f : Text} (h : p.fraction = some f) :
    p.text = p.whole ++ .char '.' :: (f ++ p.exponentText) := by
  rw [NumberText.text, NumberText.fractionText, h]
  rfl

/-- A number without a fraction: its whole part and the exponent. -/
theorem text_of_fraction_eq_none (h : p.fraction = none) : p.text = p.whole ++ p.exponentText := by
  rw [NumberText.text, NumberText.fractionText, h]
  rfl

/-- Digits and an exponent, or none, have the form that may follow a point. -/
theorem isExponentForm_exponentText {f : Text} (h : AreDigits f) :
    isExponentForm (f ++ p.exponentText) = true := by
  have hdrop : (f ++ p.exponentText).dropWhile isSpacedDigit = p.exponentText := by
    rw [List.dropWhile_append_of_pos (List.all_eq_true.mp (AreDigits.all_isSpacedDigit h)),
      NumberText.exponentText]
    cases p.exponent with
    | none => rfl
    | some e => rfl
  rw [isExponentForm, hdrop, NumberText.exponentText]
  cases he : p.exponent with
  | none => rfl
  | some e =>
      obtain ⟨hdigits, hne⟩ := p.areDigits_exponent e he
      have hall : e.2.all CodePoint.isDigit = true := List.all_eq_true.mpr hdigits
      obtain ⟨negative, ds⟩ := e
      cases negative <;> simp_all

/-- A number's text has a point if and only if it has a fraction. -/
theorem point_mem_text : .char '.' ∈ p.text ↔ p.fraction.isSome = true := by
  cases hf : p.fraction with
  | some f => simp [text_of_fraction_eq_some p hf]
  | none =>
      have hwhole : .char '.' ∉ p.whole := p.areDigits_whole.not_mem rfl
      have hexponent : .char '.' ∉ p.exponentText := by
        rw [NumberText.exponentText]
        cases he : p.exponent with
        | none => simp
        | some e =>
            have hdigits : .char '.' ∉ e.2 := (p.areDigits_exponent e he).1.not_mem rfl
            obtain ⟨negative, ds⟩ := e
            cases negative <;> simpa using hdigits
      simp [text_of_fraction_eq_none p hf, hwhole, hexponent]

/-- A number's text has the form of a fraction if and only if it has a point. -/
theorem isFloatForm_text (negative : Bool) :
    isFloatForm (signed negative p.text) = decide (.char '.' ∈ p.text) := by
  rw [isFloatForm, p.takeSign_text]
  simp only [point_mem_text]
  cases hf : p.fraction with
  | none =>
      have hpoint : .char '.' ∉ p.text := by simp [point_mem_text, hf]
      simp only [dropWhile_ne_eq_nil hpoint]
      rfl
  | some f =>
      have hpoint : .char '.' ∉ p.whole := p.areDigits_whole.not_mem rfl
      have hdrop : p.text.dropWhile (fun c => decide (c ≠ .char '.'))
          = .char '.' :: (f ++ p.exponentText) := by
        rw [text_of_fraction_eq_some p hf, dropWhile_ne_append_cons hpoint]
      have htake : p.text.takeWhile (fun c => decide (c ≠ .char '.')) = p.whole := by
        rw [text_of_fraction_eq_some p hf, takeWhile_ne_append_cons hpoint]
      -- A text of digits has one part between colons.
      have hsplit : splitWhere (fun c => decide (c = .char ':')) p.whole = [p.whole] :=
        splitWhere_eq_singleton_of_not_mem (p.areDigits_whole.not_mem rfl)
      obtain ⟨d, ds, hds⟩ := List.exists_cons_of_ne_nil p.whole_ne_nil
      have hd : d.isDigit = true := p.areDigits_whole d (by rw [hds]; exact List.mem_cons_self)
      have hall := AreDigits.all_isSpacedDigit p.areDigits_whole
      have hexp := isExponentForm_exponentText p (p.areDigits_fraction f hf)
      simp only [hdrop, htake, hsplit]
      rw [hds] at hall ⊢
      simp only [List.head?_cons, Option.any_some, hd, hall, hexp]
      rfl

/-- No character is in the text of a number but digits, a point, a mark and a sign. -/
theorem not_mem_text (ch : Char) (h : (".e+-".toList.contains ch || ch.isDigit) = false) :
    .char ch ∉ p.text := by
  intro hmem
  have hpart := NumberText.isPart_of_mem hmem
  have hdigit : ch.isDigit = false := (Bool.or_eq_false_iff.mp h).2
  have hmark := (Bool.or_eq_false_iff.mp h).1
  rcases hpart with hpart | hpart | hpart | hpart | hpart
  · rw [CodePoint.isDigit, CodePoint.isOf, hdigit] at hpart
    cases hpart
  all_goals
    cases hpart
    exact absurd hmark (by decide)

/-- A number's text with a power of ten and no point does not have the form of a whole number. -/
theorem isIntForm_text (negative : Bool) (hexponent : p.exponent.isSome = true) :
    isIntForm (signed negative p.text) = false := by
  have hmem : .char 'e' ∈ p.text := by
    obtain ⟨e, he⟩ := Option.isSome_iff_exists.mp hexponent
    simp [NumberText.text, NumberText.exponentText, he]
  have hall : ∀ q : CodePoint → Bool, ∀ s : Text, q (.char 'e') = false → .char 'e' ∈ s →
      s.all q = false := by
    intro q s hq hs
    rw [List.all_eq_false]
    exact ⟨_, hs, by simp [hq]⟩
  rw [isIntForm, p.takeSign_text]
  simp only
  -- In no base is there an `e` among the digits, and only the last reading has colons.
  split
  · rfl
  · rename_i digits heq
    exact absurd (heq ▸ by simp) (not_mem_text p 'b' (by decide))
  · rename_i digits heq
    exact absurd (heq ▸ by simp) (not_mem_text p 'x' (by decide))
  · rename_i digits _ _ heq
    rw [heq] at hmem
    exact hall _ digits (by decide) (List.mem_of_ne_of_mem (by decide) hmem)
  · have hsplit : splitWhere (fun c => decide (c = .char ':')) p.text = [p.text] :=
      splitWhere_eq_singleton_of_not_mem (not_mem_text p ':' (by decide))
    simp only [hsplit, hall isSpacedDigit p.text (by decide) hmem, Bool.and_false, Bool.false_and]

/-- A number's text without a point does not have the form of a moment: its first digits are
not followed by a minus. -/
theorem isStampForm_text (negative : Bool) (hfraction : p.fraction = none) :
    isStampForm (signed negative p.text) = false := by
  have hexponent : ∀ k, (p.exponentText.take k).takeWhile CodePoint.isDigit = [] := by
    intro k
    rw [NumberText.exponentText]
    cases p.exponent with
    | none => simp
    | some e => cases k <;> rfl
  -- The digits in front are those of the whole part, as a power starts with a letter.
  have hdigits : (p.text.take 4).takeWhile CodePoint.isDigit = p.whole.take 4 := by
    rw [text_of_fraction_eq_none p hfraction, List.take_append, List.takeWhile_append_of_pos
      fun c hc => p.areDigits_whole c (List.mem_of_mem_take hc), hexponent, List.append_nil]
  -- Behind four of them stands another digit, a power or nothing.
  have hpass : 4 ≤ p.whole.length → passChar? '-' (p.text.drop 4) = none := by
    intro hlength
    rw [text_of_fraction_eq_none p hfraction, List.drop_append_of_le_length hlength]
    cases hrest : p.whole.drop 4 with
    | nil =>
        rw [List.nil_append, NumberText.exponentText]
        cases p.exponent with
        | none => rfl
        | some e => rfl
    | cons d ds =>
        have hd : d.isDigit = true :=
          p.areDigits_whole d (List.mem_of_mem_drop (hrest ▸ List.mem_cons_self))
        rw [List.cons_append, passChar?, if_neg]
        rintro rfl
        cases hd
  have hstamp : stamp? (signed negative p.text) = none := by
    apply stamp?_eq_none (fun h => (p.isPlainWord negative).not_mem rfl (List.mem_of_getLast? h))
    intro n width rest htake
    cases negative with
    | true => cases htake
    | false =>
        rw [show signed false p.text = p.text from rfl, takeDigits?, hdigits] at htake
        simp only [List.length_take] at htake
        split at htake
        · cases htake
        · have hlength : min 4 p.whole.length = 4 := by omega
          rw [hlength] at htake
          cases htake
          exact hpass (by omega)
  rw [isStampForm, hstamp]

/-- A number's text is a fraction in YAML if it has a point, and a text otherwise. -/
theorem ofPlain_text (negative : Bool) :
    Kind.ofPlain (signed negative p.text) = if .char '.' ∈ p.text then .float else .str := by
  obtain ⟨c, cs, htext, hc⟩ := p.exists_text_eq_cons
  have hstart : startsNumber (signed negative p.text) = true := by
    rw [htext, startsNumber_signed hc]
  rw [ofPlain_of_startsNumber hstart ((p.isPlainWord negative).not_mem rfl), isFloatForm_text]
  by_cases hpoint : .char '.' ∈ p.text
  · simp [hpoint]
  · have hnone : p.fraction = none := by simpa [point_mem_text] using hpoint
    have hexponent : p.exponent.isSome = true := by
      simpa [hnone] using p.isSome_or_isSome
    simp [hpoint, isIntForm_text p negative hexponent, isStampForm_text p negative hnone]

end

/-! ### The value of a number -/

/-- A text in ASCII that is in small letters stays as it is in small letters. The sigma at the end
of a word, which depends on what stands in front of it, does not occur. -/
theorem lower_go_eq_self (before : Text) {s : Text}
    (h : ∀ c ∈ s, c.toNat < 128 ∧ c.toLower = c) : lower.go before s = s := by
  induction s generalizing before with
  | nil => rfl
  | cons c cs ih =>
      rw [List.forall_mem_cons] at h
      have hsigma : c.toNat ≠ 0x3a3 := by
        have := h.1.1
        omega
      rw [lower.go, ih _ h.2, if_neg hsigma, lowerChar, if_pos h.1.1, h.1.2]
      rfl

/-- A text of ASCII characters that are in lower case stays. -/
theorem lower_eq_self {s : Text} (h : ∀ c ∈ s, c.toNat < 128 ∧ c.toLower = c) : lower s = s :=
  lower_go_eq_self [] h

/-- What numbers are written with is in ASCII and in small letters. -/
theorem toLower_of_isPart {c : CodePoint} (h : NumberText.IsPart c) :
    c.toNat < 128 ∧ c.toLower = c := by
  refine ⟨CodePoint.toNat_lt_of_isWordChar h.isWordChar, ?_⟩
  rcases h with h | rfl | rfl | rfl | rfl
  · exact toLower_of_isDigit h
  all_goals decide

/-- A number's text is read with its sign. -/
theorem fraction_text (p : NumberText) (negative : Bool) (place : Nat) {x : Binary64}
    (hread : readFloat? p.text = some x) (hx : x.isNaN = false) :
    fraction place (signed negative p.text) = .ok (if negative then x.neg else x) := by
  have hword := p.isPlainWord negative
  -- Nothing in the text is changed before it is read.
  have hlower : lower (signed negative p.text) = signed negative p.text := by
    apply lower_eq_self
    intro c hc
    rcases mem_signed hc with rfl | hc
    · decide
    · exact toLower_of_isPart (NumberText.isPart_of_mem hc)
  have hcolon : p.text.contains (.char ':') = false := by
    simpa using not_mem_text p ':' (by decide)
  -- It starts with a digit, and the words for infinity and no number do not.
  have hletter : ∀ (ch : Char) (w : Text), ch.isDigit = false → p.text ≠ .char ch :: w := by
    intro ch w hch heq
    obtain ⟨c, cs, htext, hc⟩ := p.exists_text_eq_cons
    rw [htext] at heq
    rw [(List.cons.inj heq).1, CodePoint.isDigit, CodePoint.isOf, hch] at hc
    cases hc
  have hinf : p.text ≠ (".inf" : Text) := hletter '.' _ rfl
  have hnan : p.text ≠ (".nan" : Text) := hletter '.' _ rfl
  have htrim : trim p.text = p.text := (p.isPlainWord false).trim_eq
  rw [fraction]
  simp only [hword.filter_eq_self, hlower, hword.isEmpty_eq, p.takeSign_text, if_neg hinf,
    if_neg hnan, hcolon, fractionOr, htrim, hread]
  simp only [Bool.false_eq_true, if_false, Except.map, hx]

/-- Of the doubles that are not finite there are three texts. -/
theorem floatText_of_not_isFinite {x : Binary64} (h : ¬ x.isFinite = true) :
    floatText Json.numberWords x ∈ [("NaN" : Text), "Infinity", "-Infinity"] := by
  have hrank : ¬ x.rank < Binary64.infinityRank := fun hlt => h (decide_eq_true hlt)
  simp only [floatText]
  split
  · exact List.mem_cons_self
  · rename_i hnan
    have hle : ¬ Binary64.infinityRank < x.rank := fun hlt => hnan (decide_eq_true hlt)
    have hinf : x.isInfinite = true := beq_iff_eq.mpr (by omega)
    rw [if_pos hinf]
    cases x.negative
    · exact List.mem_cons_of_mem _ List.mem_cons_self
    · exact List.mem_cons_of_mem _ (List.mem_cons_of_mem _ List.mem_cons_self)

/-- A double is read back as itself if its text has a point, and as that text otherwise. -/
theorem scalarValue_floatText (place : Nat) (x : Binary64) :
    scalarValue place (Kind.ofPlain (floatText Json.numberWords x)) (floatText Json.numberWords x)
      = .ok (if .char '.' ∈ floatText Json.numberWords x then .float x
          else .str (floatText Json.numberWords x)) := by
  by_cases hfin : x.isFinite = true
  · obtain ⟨p, htext, hread⟩ := exists_floatText Json.numberWords hfin
    have hpoint : .char '.' ∈ signed x.negative p.text ↔ .char '.' ∈ p.text := by
      cases x.negative <;> simp [signed]
    rw [htext, ofPlain_text]
    by_cases hp : .char '.' ∈ p.text
    · have hnan : Binary64.isNaN ⟨false, x.rank⟩ = false := by
        have : x.rank < Binary64.infinityRank := of_decide_eq_true hfin
        exact decide_eq_false (Nat.not_lt.mpr this.le)
      have hsign : (if x.negative then Binary64.neg ⟨false, x.rank⟩ else ⟨false, x.rank⟩) = x := by
        obtain ⟨negative, rank⟩ := x
        cases negative <;> rfl
      rw [if_pos hp, if_pos (hpoint.mpr hp), scalarValue,
        fraction_text p x.negative place hread hnan, hsign]
      rfl
    · rw [if_neg hp, if_neg (mt hpoint.mp hp)]
      rfl
  -- Infinities and no number are words, and these are read as texts.
  · have hword := floatText_of_not_isFinite hfin
    generalize floatText Json.numberWords x = w at hword ⊢
    simp only [List.mem_cons, List.not_mem_nil, or_false] at hword
    rcases hword with rfl | rfl | rfl
    all_goals rfl

/-- A number in JSON is a plain word, the infinities and what is not a number included. -/
theorem isPlainWord_floatText (x : Binary64) : IsPlainWord (floatText Json.numberWords x) := by
  by_cases hfin : x.isFinite = true
  · obtain ⟨p, htext, -⟩ := exists_floatText Json.numberWords hfin
    rw [htext]
    exact p.isPlainWord x.negative
  · have hword := floatText_of_not_isFinite hfin
    generalize floatText Json.numberWords x = w at hword ⊢
    simp only [List.mem_cons, List.not_mem_nil, or_false] at hword
    rcases hword with rfl | rfl | rfl
    · exact ⟨by decide, _, _, rfl, .inl (by decide)⟩
    · exact ⟨by decide, _, _, rfl, .inl (by decide)⟩
    · exact ⟨by decide, _, _, rfl, .inr ⟨rfl, _, _, rfl, by decide⟩⟩

/-! ### Whole numbers -/

/-- The first digit of a numeral is zero for zero alone. -/
theorem natText_eq_zero_cons {n : Nat} {ds : Text} (h : natText n = .char '0' :: ds) : ds = [] := by
  by_contra hne
  have hlength : 0 < ds.length := List.length_pos_iff.mpr hne
  have hdigits : AreDigits ds := fun c hc => areDigits_natText n c (h ▸ List.mem_cons_of_mem _ hc)
  have hlt : n < 10 ^ ds.length := by
    rw [← ofDecimals_natText n, h]
    have hvalues := ofDecimals_lt (digitValues_lt hdigits)
    simp only [digitValues, List.length_map] at hvalues
    simpa [digitValues, ofDecimals_cons, CodePoint.toNat] using hvalues
  rw [← length_natText_le_iff hlength, h, List.length_cons] at hlt
  omega

/-- A whole number is its sign and the numeral of its size. -/
theorem intText_eq_signed (i : Int) : intText i = signed (decide (i < 0)) (natText i.natAbs) := by
  rw [intText, signed]
  simp only [decide_eq_true_eq]
  rfl

/-- A whole number is a plain word. -/
theorem isPlainWord_intText (i : Int) : IsPlainWord (intText i) := by
  obtain ⟨c, cs, htext⟩ := List.exists_cons_of_ne_nil (natText_ne_nil i.natAbs)
  have hdigits := areDigits_natText i.natAbs
  rw [htext] at hdigits
  rw [intText_eq_signed, htext]
  exact isPlainWord_signed (hdigits c List.mem_cons_self)
    (fun d hd => CodePoint.isWordChar_of_isDigit (hdigits d (List.mem_cons_of_mem _ hd))) _

/-- The text of a whole number is its decimal text, if it has not too many digits. -/
theorem eq_intText_of_intText? {i : Int} {t : Text} (h : intText? i = some t) : t = intText i := by
  rw [intText?] at h
  split at h
  · exact (Option.some.inj h).symm
  · cases h

/-- The sign of a whole number is taken off its text. -/
theorem takeSign_intText (i : Int) : takeSign (intText i) = (decide (i < 0), natText i.natAbs) := by
  obtain ⟨c, cs, htext⟩ := List.exists_cons_of_ne_nil (natText_ne_nil i.natAbs)
  have hc : c.isDigit = true := areDigits_natText i.natAbs c (htext ▸ List.mem_cons_self)
  rw [intText_eq_signed, htext, takeSign_signed hc]

/-- A numeral is not divided by colons. -/
theorem splitWhere_natText (n : Nat) :
    splitWhere (fun c => decide (c = .char ':')) (natText n) = [natText n] :=
  splitWhere_eq_singleton_of_not_mem ((areDigits_natText n).not_mem rfl)

/-- A whole number has not the form of one with a fraction. -/
theorem isFloatForm_intText (i : Int) : isFloatForm (intText i) = false := by
  have hpoint : .char '.' ∉ natText i.natAbs := (areDigits_natText _).not_mem rfl
  rw [isFloatForm, takeSign_intText]
  simp only [dropWhile_ne_eq_nil hpoint]

/-- It has the form of a whole number. -/
theorem isIntForm_intText (i : Int) : isIntForm (intText i) = true := by
  have hdigits := areDigits_natText i.natAbs
  rw [isIntForm, takeSign_intText]
  simp only
  -- A numeral has a zero in front only if it is `0`, so it has no marker of a base.
  split
  · rename_i heq
    exact absurd heq (natText_ne_nil _)
  · rename_i heq
    cases natText_eq_zero_cons heq
  · rename_i heq
    cases natText_eq_zero_cons heq
  · rename_i heq
    obtain rfl := natText_eq_zero_cons heq
    rfl
  · obtain ⟨c, cs, htext⟩ := List.exists_cons_of_ne_nil (natText_ne_nil i.natAbs)
    have hc : c.isDigit = true := hdigits c (htext ▸ List.mem_cons_self)
    rw [splitWhere_natText]
    have hall := AreDigits.all_isSpacedDigit hdigits
    rw [htext] at hall ⊢
    simp only [List.head?_cons, Option.any_some, hc, hall]
    rfl

/-- So a whole number without quotes is read as one. -/
theorem ofPlain_intText (i : Int) : Kind.ofPlain (intText i) = .int := by
  obtain ⟨c, cs, htext⟩ := List.exists_cons_of_ne_nil (natText_ne_nil i.natAbs)
  have hc : c.isDigit = true := areDigits_natText i.natAbs c (htext ▸ List.mem_cons_self)
  have hstart : startsNumber (intText i) = true := by
    rw [intText_eq_signed, htext, startsNumber_signed hc]
  rw [ofPlain_of_startsNumber hstart ((isPlainWord_intText i).not_mem rfl), isFloatForm_intText,
    isIntForm_intText]
  rfl

/-- Digits are read one by one. -/
theorem mapM_digitValue?_of_areDigits {s : Text} (h : AreDigits s) :
    s.mapM digitValue? = some (digitValues s) := by
  induction s with
  | nil => rfl
  | cons c cs ih =>
      have hc := h c List.mem_cons_self
      rw [List.mapM_cons, digitValue?, decimalValue?_of_isDigit hc,
        ih fun d hd => h d (List.mem_cons_of_mem _ hd)]
      rfl

/-- Digits are read in base ten, unless they are too many. -/
theorem wholeInBase?_of_areDigits {s : Text} (h : AreDigits s) (hne : s ≠ [])
    (hlength : s.length ≤ maxDigits) :
    wholeInBase? 10 s = some (ofDecimals (digitValues s) : Int) := by
  have htrim : trim s = s := by
    apply trim_eq_self
    intro c hc
    exact (CodePoint.not_mark_of_isWordChar (CodePoint.isWordChar_of_isDigit (h c hc))).2.1
  have hsmall : (digitValues s).any (fun d => decide (10 ≤ d)) = false := by
    rw [List.any_eq_false]
    intro d hd
    simpa using digitValues_lt h d hd
  have hlen : (digitValues s).length = s.length := by simp [digitValues]
  have hempty : (digitValues s).isEmpty = false := by simp [digitValues, hne]
  rw [wholeInBase?, htrim, takeSign_of_areDigits h]
  simp only [ne_eq, not_true_eq_false, decide_false, Bool.false_and, Bool.false_eq_true, if_false]
  -- A zero in front would be a marker in another base only.
  split
  all_goals
    rw [mapM_digitValue?_of_areDigits h]
    simp only [Option.bind_eq_bind, Option.bind_some, hempty, hsmall, hlen, Bool.false_or,
      decide_true, Bool.true_and, decide_eq_true_eq]
    rw [if_neg (by omega)]
    rfl

/-- A whole number that is written is read back. -/
theorem wholeNumber_intText {i : Int} {t : Text} (h : intText? i = some t) :
    wholeNumber t = .ok i := by
  rw [intText?] at h
  split at h
  · rename_i hlt
    obtain rfl := (Option.some.inj h).symm
    have hword := isPlainWord_intText i
    have hdigits := areDigits_natText i.natAbs
    have hle : ∀ k, 0 < k → i.natAbs < Nat.pow 10 k → (natText i.natAbs).length ≤ k :=
      fun k hk => (length_natText_le_iff hk).mpr
    have hlength : (natText i.natAbs).length ≤ maxDigits := hle maxDigits (by decide) hlt
    have hcolon : (natText i.natAbs).contains (.char ':') = false := by
      simpa using hdigits.not_mem (c := .char ':') rfl
    have hsign : (if decide (i < 0) = true then -(i.natAbs : Int) else i.natAbs) = i := by
      simp only [decide_eq_true_eq]
      split <;> omega
    rw [wholeNumber]
    simp only [hword.filter_eq_self, hword.isEmpty_eq, takeSign_intText, Bool.false_eq_true,
      if_false]
    -- A numeral has no marker of a base.
    split
    · rename_i heq
      have hzero : i.natAbs = 0 := by
        rw [← ofDecimals_natText i.natAbs, heq]
        rfl
      rw [Int.natAbs_eq_zero.mp hzero]
    · rename_i heq
      cases natText_eq_zero_cons heq
    · rename_i heq
      cases natText_eq_zero_cons heq
    · rename_i hne _ _ heq
      obtain rfl := natText_eq_zero_cons heq
      exact absurd rfl hne
    · rename_i heq
      exact absurd heq (natText_ne_nil _)
    · rw [hcolon, wholeOr, wholeInBase?_of_areDigits hdigits (natText_ne_nil _) hlength,
        ofDecimals_natText]
      simp only [Bool.false_eq_true, if_false, Except.map, hsign]
  · cases h

/-- A whole number is read back as itself. -/
theorem scalarValue_intText (place : Nat) {i : Int} {t : Text} (h : intText? i = some t) :
    scalarValue place (Kind.ofPlain t) t = .ok (.int i) := by
  have hkind : Kind.ofPlain t = .int := by
    rw [eq_intText_of_intText? h, ofPlain_intText]
  rw [hkind, scalarValue, wholeNumber_intText h]
  rfl

/-! ### Scalars -/

/-- A scalar on one line: between double quotes, or a word on its own. -/
inductive Atom where
  /-- A text as JSON quotes it. -/
  | quoted (s : Text)
  /-- A word, and the value that it has wherever it stands. -/
  | word (w : Text) (isPlainWord : IsPlainWord w) (value : Scalar)
    (reads : ∀ place, scalarValue place (Kind.ofPlain w) w = .ok value)

namespace Atom

/-- The scalar as it is written. -/
def written : Atom → Text
  | quoted s => Json.stringText s
  | word w _ _ _ => w

/-- The text that is read. -/
def content : Atom → Text
  | quoted s => s.asUnits
  | word w _ _ _ => w

/-- Whether the scalar counts as plain. -/
def isPlain : Atom → Bool
  | quoted _ => false
  | word _ _ _ _ => true

/-- The kind of the scalar. -/
def kind : Atom → Kind
  | quoted _ => .str
  | word w _ _ _ => Kind.ofPlain w

/-- The value of the scalar. -/
def value : Atom → Scalar
  | quoted s => .str s.asUnits
  | word _ _ v _ => v

/-- What is written for an atom is read as its value, wherever it stands. -/
theorem scalarValue_eq (a : Atom) (place : Nat) :
    scalarValue place a.kind a.content = .ok a.value := by
  cases a with
  | quoted s => rfl
  | word w _ v reads => exact reads place

end Atom

end Yaml

/-- A scalar as YAML reads what JSON writes for it. -/
def Scalar.asRead : Scalar → Scalar
  | .null => .null
  | .bool b => .bool b
  | .int i => .int i
  | .float x =>
    if .char '.' ∈ floatText Json.numberWords x then .float x
    else .str (floatText Json.numberWords x)
  | s => .str ((s.display.toOption.getD []).asUnits)

/-- Every scalar that JSON can write is one that YAML reads. -/
theorem Yaml.exists_atom {s : Scalar} {t : Text} (h : Json.scalarText s = .ok t) :
    ∃ a : Atom, a.written = t ∧ a.value = s.asRead := by
  have hquoted : ∀ s : Scalar, s.display.map Json.stringText = .ok t →
      ∃ a : Atom, a.written = t ∧ a.value = .str ((s.display.toOption.getD []).asUnits) := by
    intro s h
    cases hshown : s.display with
    | error e => rw [hshown] at h; cases h
    | ok shown =>
        rw [hshown] at h
        cases h
        exact ⟨.quoted shown, rfl, rfl⟩
  -- Kinds without words of their own are written as quoted texts.
  cases s with
  | null =>
      cases h
      exact ⟨.word ("null" : Text) ⟨by decide, _, _, rfl, .inl (by decide)⟩ .null fun _ => rfl, rfl,
        rfl⟩
  | bool b =>
      cases b
      all_goals
        cases h
        exact ⟨.word _ ⟨by decide, _, _, rfl, .inl (by decide)⟩ _ fun _ => rfl, rfl, rfl⟩
  | int i =>
      rw [Json.scalarText] at h
      have hint : intText? i = some t := Scalar.intText?_of_literal h
      have hword : IsPlainWord t := by
        rw [eq_intText_of_intText? hint]
        exact isPlainWord_intText i
      exact ⟨.word t hword (.int i) fun place => scalarValue_intText place hint, rfl, rfl⟩
  | float x =>
      cases h
      exact ⟨.word _ (isPlainWord_floatText x) _ fun place => scalarValue_floatText place x, rfl,
        rfl⟩
  | str s => exact hquoted _ h
  | bytes b => exact hquoted _ h
  | date d => exact hquoted _ h
  | moment m => exact hquoted _ h

end RouteDocs
