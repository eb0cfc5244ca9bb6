import Mathlib.Data.Nat.Digits.Defs
import RouteDocs.Number.Reading

/-!
# `RouteDocs.Proofs.Numeral`: numerals read back

`natText` writes a natural number in decimal and `intText` a whole number with its sign.
The readers of this library take digits of any script, underscores between them and zeros
in front, so they undo the writers but have no inverse of their own. The theorems:

* `decimals?_of_areDigits`: the digits of a text are what the readers find there.
* `ofDecimals_natText`: the digits of a numeral denote its number.
* `natText_injective`: different numbers have different numerals.
* `readInt?_natText`: a numeral of at most `maxDigits` digits is read as its number.
* `ofDecimals_append`: digits in front of digits, as a product and a sum.
-/

set_option autoImplicit false

namespace RouteDocs

open Text

/-- The code point of an ASCII digit is at its distance from the digit zero. -/
theorem CodePoint.toNat_of_isDigit {c : CodePoint} (h : c.isDigit = true) :
    48 ≤ c.toNat ∧ c.toNat ≤ 57 := by
  cases c with
  | surrogate offset => simp [CodePoint.isDigit, CodePoint.isOf] at h
  | char ch =>
      simp only [CodePoint.isDigit, CodePoint.isOf, Char.isDigit, Bool.and_eq_true,
        decide_eq_true_eq] at h
      exact ⟨h.1, h.2⟩

namespace Text

/-- The value of an ASCII digit is its distance from the digit zero. -/
theorem decimalValue?_of_isDigit {c : CodePoint} (h : c.isDigit = true) :
    decimalValue? c = some (c.toNat - 48) := by
  have hrange := CodePoint.toNat_of_isDigit h
  rw [decimalValue?, if_pos (by omega), if_pos (by simp [hrange])]

/-- ASCII digits are among the decimal digits of all scripts. -/
theorem isDecimal_of_isDigit {c : CodePoint} (h : c.isDigit = true) : isDecimal c = true := by
  simp [isDecimal, decimalValue?_of_isDigit h]

/-- And they are among what counts as a digit in a text. -/
theorem isDigit_of_isDigit {c : CodePoint} (h : c.isDigit = true) : Text.isDigit c = true := by
  simp [Text.isDigit, isDecimal_of_isDigit h]

/-- The values of ASCII digits, one for each. -/
def digitValues (s : Text) : List Nat := s.map fun c => c.toNat - 48

/-- A text of ASCII digits, and nothing else. -/
def AreDigits (s : Text) : Prop := ∀ c ∈ s, c.isDigit = true

/-- Digits in front of digits are digits. -/
theorem AreDigits.append {s t : Text} (hs : AreDigits s) (ht : AreDigits t) : AreDigits (s ++ t) :=
  fun c hc => (List.mem_append.mp hc).elim (hs c) (ht c)

/-- The values of two texts in a row are in a row. -/
theorem digitValues_append (s t : Text) : digitValues (s ++ t) = digitValues s ++ digitValues t :=
  List.map_append

/-- Whatever is no digit is not among digits: no sign, no point, no blank and no underscore. -/
theorem AreDigits.not_mem {s : Text} (h : AreDigits s) {c : CodePoint} (hc : c.isDigit = false) :
    c ∉ s := by
  intro hmem
  rw [h c hmem] at hc
  cases hc

/-- Digits are read one by one, and none of them fails. -/
theorem decimals?_of_areDigits {s : Text} (h : AreDigits s) :
    decimals? s = some (digitValues s) := by
  induction s with
  | nil => rfl
  | cons c cs ih =>
      have hc := h c List.mem_cons_self
      have hcs : decimals? cs = some (digitValues cs) :=
        ih fun d hd => h d (List.mem_cons_of_mem _ hd)
      rw [decimals?] at hcs ⊢
      rw [List.mapM_cons, decimalValue?_of_isDigit hc, hcs]
      rfl

/-- Reading goes on from what was read: the digits so far count ten times as much for each
further digit. -/
theorem foldl_decimals (digits : List Nat) (n : Nat) :
    digits.foldl (fun n d => 10 * n + d) n = n * 10 ^ digits.length + ofDecimals digits := by
  induction digits generalizing n with
  | nil => simp [ofDecimals]
  | cons d ds ih =>
      rw [ofDecimals, List.foldl_cons, List.foldl_cons, ih (10 * n + d), ih (10 * 0 + d),
        List.length_cons, Nat.pow_succ]
      ring

/-- The first digit counts by how many follow it. -/
theorem ofDecimals_cons (d : Nat) (ds : List Nat) :
    ofDecimals (d :: ds) = d * 10 ^ ds.length + ofDecimals ds := by
  rw [ofDecimals, List.foldl_cons, foldl_decimals, Nat.mul_zero, Nat.zero_add]

/-- Digits in front count by how many are behind them. -/
theorem ofDecimals_append (ds es : List Nat) :
    ofDecimals (ds ++ es) = ofDecimals ds * 10 ^ es.length + ofDecimals es := by
  rw [ofDecimals, List.foldl_append]
  exact foldl_decimals es _

/-- Zeros alone denote zero, however many there are. -/
theorem ofDecimals_replicate_zero (n : Nat) : ofDecimals (List.replicate n 0) = 0 := by
  induction n with
  | zero => rfl
  | succ n ih => rw [List.replicate_succ', ofDecimals_append, ih]; simp [ofDecimals]

/-- The value of a decimal digit is below ten, in every script. -/
theorem decimalValue?_lt {c : CodePoint} {d : Nat} (h : decimalValue? c = some d) : d < 10 := by
  rw [decimalValue?] at h
  split at h
  · split at h
    · rename_i hrange
      simp only [Bool.and_eq_true, decide_eq_true_eq] at hrange
      cases h
      omega
    · cases h
  · obtain ⟨z, hz, rfl⟩ := Option.map_eq_some_iff.mp h
    have hrange := List.find?_some hz
    simp only [Bool.and_eq_true, decide_eq_true_eq] at hrange
    omega

/-- What is read from a text of digits are values below ten. -/
theorem forall_lt_of_decimals? {s : Text} {digits : List Nat} (h : decimals? s = some digits) :
    ∀ d ∈ digits, d < 10 := by
  rw [decimals?] at h
  induction s generalizing digits with
  | nil =>
      cases h
      simp
  | cons c cs ih =>
      rw [List.mapM_cons] at h
      obtain ⟨d, hd, h⟩ := Option.bind_eq_some_iff.mp h
      obtain ⟨ds, hds, h⟩ := Option.bind_eq_some_iff.mp h
      cases h
      exact List.forall_mem_cons.mpr ⟨decimalValue?_lt hd, ih hds⟩

/-- Digits denote a number with no more digits. With `ofDecimals_natText` this bounds a number by
the length of its numeral. -/
theorem ofDecimals_lt {digits : List Nat} (h : ∀ d ∈ digits, d < 10) :
    ofDecimals digits < Nat.pow 10 digits.length := by
  induction digits with
  | nil => exact Nat.one_pos
  | cons d ds ih =>
      rw [List.forall_mem_cons] at h
      have hds := ih h.2
      have hd : d * 10 ^ ds.length ≤ 9 * 10 ^ ds.length := Nat.mul_le_mul_right _ (by omega)
      rw [ofDecimals_cons, List.length_cons]
      simp only [Nat.pow_eq, Nat.pow_succ] at hds ⊢
      omega

/-- The values of ASCII digits are below ten. -/
theorem digitValues_lt {s : Text} (h : AreDigits s) : ∀ d ∈ digitValues s, d < 10 :=
  forall_lt_of_decimals? (decimals?_of_areDigits h)

end Text

namespace Number

open Text

/-- A number is written with ASCII digits, without a sign and without blanks. -/
theorem areDigits_natText (n : Nat) : AreDigits (natText n) := by
  intro c hc
  obtain ⟨ch, hch, rfl⟩ := List.mem_map.mp hc
  exact Nat.isDigit_of_mem_toDigits (by omega) (Nat.le_refl 10) hch

/-- Every number has a digit. -/
theorem natText_ne_nil (n : Nat) : natText n ≠ [] := by
  simp [natText, Nat.toDigits_ne_nil]

/-- The numeral of a number has the length of its list of digits. -/
theorem length_natText (n : Nat) : (natText n).length = (Nat.toDigits 10 n).length := by
  simp [natText]

/-- A numeral has at most `k` digits if its number is below `10 ^ k`, and only then. -/
theorem length_natText_le_iff {n k : Nat} (hk : 0 < k) : (natText n).length ≤ k ↔ n < 10 ^ k := by
  rw [length_natText]
  exact Nat.length_toDigits_le_iff (by omega) hk

/-- The digits of a numeral denote its number. Reading a number back starts here. -/
theorem ofDecimals_natText (n : Nat) : ofDecimals (digitValues (natText n)) = n := by
  have h := Nat.ofDigitChars_ten_toDigits (n := n)
  rw [Nat.ofDigitChars] at h
  rw [ofDecimals, digitValues, natText, List.map_map, List.foldl_map]
  exact h

/-- Two numbers with one numeral are the same. -/
theorem natText_injective : Function.Injective natText := by
  intro m n h
  rw [← ofDecimals_natText m, h, ofDecimals_natText]

/-- The same as an equivalence, to rewrite with. -/
theorem natText_inj {m n : Nat} : natText m = natText n ↔ m = n := natText_injective.eq_iff

/-- Without underscores nothing is dropped. -/
theorem dropUnderscores?_eq_self {s : Text} (h : .char '_' ∉ s) (afterDigit : Bool) :
    dropUnderscores? afterDigit s = some s := by
  induction s generalizing afterDigit with
  | nil => simp [dropUnderscores?]
  | cons c cs ih =>
      rw [List.mem_cons, not_or] at h
      rw [dropUnderscores?]
      · rw [ih h.2]
        rfl
      · exact fun heq => h.1 heq.symm

/-- A digit is no sign. -/
theorem takeSign_of_isDigit {c : CodePoint} (h : c.isDigit = true) (cs : Text) :
    takeSign (c :: cs) = (false, c :: cs) := by
  rw [takeSign]
  · rintro _ heq
    cases heq
    exact absurd h (by decide)
  · rintro _ heq
    cases heq
    exact absurd h (by decide)

/-- Digits have no sign in front of them, and neither has an empty text. -/
theorem takeSign_of_areDigits {s : Text} (h : AreDigits s) : takeSign s = (false, s) := by
  cases s with
  | nil => rfl
  | cons c cs => exact takeSign_of_isDigit (h c List.mem_cons_self) cs

/-- Digits are read as the number that they denote, unless they are too many. Leading zeros are
read too. -/
theorem readInt?_of_areDigits {s : Text} (h : AreDigits s) (hne : s ≠ [])
    (hlength : s.length ≤ maxDigits) : readInt? s = some (ofDecimals (digitValues s) : Int) := by
  have hlen : (digitValues s).length = s.length := by simp [digitValues]
  have hempty : (digitValues s).isEmpty = false := by simp [digitValues, hne]
  rw [readInt?, takeSign_of_areDigits h]
  simp only [dropUnderscores?_eq_self (h.not_mem rfl), decimals?_of_areDigits h, Option.bind_eq_bind,
    Option.bind_some, hempty, hlen, Bool.false_or, decide_eq_true_eq, Bool.false_eq_true, if_false]
  rw [if_neg (by omega)]

/-- Too many digits are not read as a number. -/
theorem readInt?_eq_none_of_lt_length {s : Text} (h : AreDigits s) (hlength : maxDigits < s.length) :
    readInt? s = none := by
  have hlen : (digitValues s).length = s.length := by simp [digitValues]
  rw [readInt?, takeSign_of_areDigits h]
  simp only [dropUnderscores?_eq_self (h.not_mem rfl), decimals?_of_areDigits h, Option.bind_eq_bind,
    Option.bind_some, hlen, hlength, decide_true, Bool.or_true, if_true]

/-- A numeral that is not too long is read as its number. This is the round trip that addresses,
status codes and flow values rest on. -/
theorem readInt?_natText {n : Nat} (h : (natText n).length ≤ maxDigits) :
    readInt? (natText n) = some (n : Int) := by
  rw [readInt?_of_areDigits (areDigits_natText n) (natText_ne_nil n) h, ofDecimals_natText]

/-- A numeral is read as its number, or not at all: a long numeral has none to be confused with. -/
theorem eq_of_readInt?_natText {n : Nat} {i : Int} (h : readInt? (natText n) = some i) : i = n := by
  by_cases hlength : (natText n).length ≤ maxDigits
  · rw [readInt?_natText hlength] at h
    exact (Option.some.inj h).symm
  · rw [readInt?_eq_none_of_lt_length (areDigits_natText n) (by omega)] at h
    cases h

end Number

end RouteDocs
