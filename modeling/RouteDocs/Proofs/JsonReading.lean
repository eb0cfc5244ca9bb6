import RouteDocs.Proofs.Entries
import RouteDocs.Proofs.PlainScalar

/-!
# `RouteDocs.Proofs.JsonReading`: JSON text reads back

A tree in JSON is null, a truth value, a whole number of no more digits than may be read, a text
of characters, a list or a mapping under distinct texts: `IsJsonTree`. The compact text of such a
value is read as that value, and reading stops right behind it, whatever follows:
`readPart_of_write`. Only a whole number has to be told from what follows it, so lists and
mappings may stand in front of any text.

The reader takes fuel, and `value_valueText` says that the length of the text is enough of it.
Which trees have a text at all is said by `exists_valueText_iff`: those that are not nested too
deeply.
-/

set_option autoImplicit false

namespace RouteDocs.Json

open Text Number

/-! ### Trees -/

mutual

/-- A value in JSON, other than a fraction. -/
inductive IsJsonTree : Value → Prop where
  /-- No value. -/
  | null : IsJsonTree .null
  /-- A truth value. -/
  | bool (b : Bool) : IsJsonTree (.bool b)
  /-- A whole number that is not too long to be read. -/
  | int {i : Int} (hlength : (natText i.natAbs).length ≤ maxDigits) : IsJsonTree (.int i)
  /-- A text of characters. -/
  | str {s : Text} (hplain : IsPlain s) : IsJsonTree (.str s)
  /-- A list. -/
  | list {items : List Value} (hitems : AreJsonTrees items) : IsJsonTree (.list items)
  /-- A mapping. -/
  | map {es : List (Scalar × Value)} (hentries : AreJsonFields es) : IsJsonTree (.map es)

/-- The values are trees. -/
inductive AreJsonTrees : List Value → Prop where
  /-- No values. -/
  | nil : AreJsonTrees []
  /-- A value and the ones after it. -/
  | cons {v : Value} {vs : List Value} (hv : IsJsonTree v) (hvs : AreJsonTrees vs) :
      AreJsonTrees (v :: vs)

/-- The entries are trees under texts of characters. A mapping has no name twice. -/
inductive AreJsonFields : List (Scalar × Value) → Prop where
  /-- No entries. -/
  | nil : AreJsonFields []
  /-- An entry and the ones after it. -/
  | cons {name : Text} {v : Value} {es : List (Scalar × Value)} (hname : IsPlain name)
      (hnew : ∀ e ∈ es, e.1 ≠ .str name) (hv : IsJsonTree v)
      (hes : AreJsonFields es) : AreJsonFields ((.str name, v) :: es)

end

/-- The names of a mapping are distinct, so writing one entry after the other keeps them all. -/
theorem AreJsonFields.ofList_eq {es : List (Scalar × Value)} (h : AreJsonFields es) :
    Entries.ofList es = es := by
  apply Entries.ofList_eq_self
  induction es with
  | nil => exact .nil
  | cons e es ih =>
      cases h with
      | cons _ hnew _ hes =>
          refine .cons ?_ (ih hes)
          intro f hf
          rw [← Bool.not_eq_true, Scalar.beq_eq, decide_eq_true_iff, eq_comm]
          intro hkey
          exact hnew f hf ((Scalar.key_eq_str_iff f.1 _).mp hkey)

/-! ### What is written for a container -/

section Containers

variable (layout : Layout) (depth : Nat)

/-- A list is written with its items between brackets, unless it is nested too deeply. -/
theorem valueText_list (items : List Value) :
    valueText layout depth (.list items) = if maxDepth ≤ depth then .error .endless
      else (itemTexts layout (depth + 1) items).map (layout.enclose depth '[' ']') := by
  rw [valueText, checkDepth]
  split
  · rfl
  · cases itemTexts layout (depth + 1) items <;> rfl

/-- A mapping is written with its entries between braces, unless it is nested too deeply. -/
theorem valueText_map (entries : List (Scalar × Value)) :
    valueText layout depth (.map entries) = if maxDepth ≤ depth then .error .endless
      else (entryTexts layout (depth + 1) entries).map (layout.enclose depth '\x7b' '\x7d') := by
  rw [valueText, checkDepth]
  split
  · rfl
  · cases entryTexts layout (depth + 1) entries <;> rfl

variable {layout depth}

/-- What a list is written as, when it has a text: there is room for one level more, and all items
have texts in it. -/
theorem valueText_list_eq_ok_iff {items : List Value} {t : Text} :
    valueText layout depth (.list items) = .ok t ↔ depth < maxDepth ∧
      ∃ parts, itemTexts layout (depth + 1) items = .ok parts ∧
        t = layout.enclose depth '[' ']' parts := by
  rw [valueText_list]
  by_cases hdepth : maxDepth ≤ depth
  · simp [hdepth]
  · cases itemTexts layout (depth + 1) items with
    | error e => simp [hdepth, Except.map]
    | ok parts => simp [hdepth, Except.map, Nat.lt_of_not_le hdepth, eq_comm]

/-- What a mapping is written as, when it has a text: there is room for one level more, and all
entries have texts in it. -/
theorem valueText_map_eq_ok_iff {entries : List (Scalar × Value)} {t : Text} :
    valueText layout depth (.map entries) = .ok t ↔ depth < maxDepth ∧
      ∃ parts, entryTexts layout (depth + 1) entries = .ok parts ∧
        t = layout.enclose depth '\x7b' '\x7d' parts := by
  rw [valueText_map]
  by_cases hdepth : maxDepth ≤ depth
  · simp [hdepth]
  · cases entryTexts layout (depth + 1) entries with
    | error e => simp [hdepth, Except.map]
    | ok parts => simp [hdepth, Except.map, Nat.lt_of_not_le hdepth, eq_comm]

/-- The texts of items, the first and the others. -/
theorem itemTexts_cons_eq_ok_iff {v : Value} {vs : List Value} {parts : List Text} :
    itemTexts layout depth (v :: vs) = .ok parts ↔ ∃ t ts, valueText layout depth v = .ok t ∧
      itemTexts layout depth vs = .ok ts ∧ parts = t :: ts := by
  rw [itemTexts]
  cases valueText layout depth v with
  | error e => simp [bind, Except.bind]
  | ok t => cases itemTexts layout depth vs <;> simp [bind, Except.bind, pure, Except.pure, eq_comm]

/-- The texts of entries, the first and the others. An entry is its key, a colon with a space, and
its value. -/
theorem entryTexts_cons_eq_ok_iff {k : Scalar} {v : Value} {es : List (Scalar × Value)}
    {parts : List Text} :
    entryTexts layout depth ((k, v) :: es) = .ok parts ↔ ∃ name t ts, keyText k = .ok name ∧
      valueText layout depth v = .ok t ∧ entryTexts layout depth es = .ok ts ∧
      parts = (name ++ ": " ++ t) :: ts := by
  rw [entryTexts]
  cases keyText k with
  | error e => simp [bind, Except.bind]
  | ok name =>
      cases valueText layout depth v with
      | error e => simp [bind, Except.bind]
      | ok t =>
          cases entryTexts layout depth es <;> simp [bind, Except.bind, pure, Except.pure, eq_comm]

end Containers

/-! ### Texts -/

section Strings

/-- Puts parts in front of the ones that are read next. -/
def before (parts : List StringPart) (r : Except Failure (List StringPart × Text)) :
    Except Failure (List StringPart × Text) :=
  r.map fun r => (parts ++ r.1, r.2)

/-- Parts go in front of what is read in one go or one after the other. -/
theorem before_append (ps qs : List StringPart) (r : Except Failure (List StringPart × Text)) :
    before (ps ++ qs) r = before ps (before qs r) := by
  cases r with
  | error e => rfl
  | ok r => simp [before, Except.map]

variable (start : Text)

/-- A short escape is read as the character that it stands for. -/
theorem stringParts_escape {letter c : CodePoint} (h : shortEscape? letter = some c) (rest : Text) :
    stringParts start (.char '\\' :: letter :: rest)
      = before [.plain c] (stringParts start rest) := by
  have hunit : letter ≠ .char 'u' := by
    intro hu
    rw [hu] at h
    exact nomatch h
  rw [stringParts.eq_7 _ _ _ hunit fun _ _ _ _ _ heq => hunit (List.cons.inj heq).1, h]
  rfl

/-- A printable character that is no quote and no backslash is read as itself. -/
theorem stringParts_itself {c : CodePoint} (hc : c.IsPrintable) (hquote : c ≠ .char '"')
    (hslash : c ≠ .char '\\') (rest : Text) :
    stringParts start (c :: rest) = before [.plain c] (stringParts start rest) := by
  rw [stringParts.eq_8 _ _ _ hquote (fun _ _ _ _ _ heq _ => hslash heq) hslash,
    if_neg (Nat.not_lt.mpr hc.1)]
  rfl

/-- An escape of four digits is read as the code unit that they denote. Something has to follow,
as there is always the closing quote. -/
theorem stringParts_unit {u : Nat} (hu : u < 0x10000) {rest : Text} (hne : rest ≠ []) :
    stringParts start (.char '\\' :: .char 'u' :: (toHex 4 u ++ rest))
      = before [.unit u] (stringParts start rest) := by
  have hread : ofHex? (toHex 4 u) = some u := by
    rw [ofHex?_toHex]
    exact congrArg some (Nat.mod_eq_of_lt hu)
  obtain ⟨c, cs, rfl⟩ := List.exists_cons_of_ne_nil hne
  exact stringParts.eq_3 start _ _ _ _ u c cs hread

/-- Escapes in a row are read as a row of code units. Which of them belong together is
decided later. -/
theorem stringParts_units (units : List Nat) (hunits : ∀ u ∈ units, u < 0x10000) {rest : Text}
    (hne : rest ≠ []) :
    stringParts start (units.flatMap (fun u => .char '\\' :: .char 'u' :: toHex 4 u) ++ rest)
      = before (units.map .unit) (stringParts start rest) := by
  induction units with
  | nil => cases h : stringParts start rest <;> simp [before, Except.map, h]
  | cons u us ih =>
      rw [List.forall_mem_cons] at hunits
      rw [List.flatMap_cons, List.append_assoc, List.cons_append, List.cons_append,
        stringParts_unit start hunits.1 (by simp [hne]), ih hunits.2, ← before_append]
      rfl

end Strings

/-- A character is no surrogate. -/
theorem not_surrogate (ch : Char) : ¬ (0xd800 ≤ ch.toNat ∧ ch.toNat ≤ 0xdfff) := by
  have hvalid := ch.valid
  rw [UInt32.isValidChar, Nat.isValidChar] at hvalid
  rw [Char.toNat]
  omega

/-- The units of a character spell it, whatever parts follow. -/
theorem textOfParts_units16 (ch : Char) (others : List StringPart) :
    textOfParts ((units16 (.char ch)).map .unit ++ others) = .char ch :: textOfParts others := by
  have hchar : CodePoint.ofNat ch.toNat = .char ch := CodePoint.ofNat_toNat (.char ch)
  have hmax : ch.toNat < 0x110000 := CodePoint.toNat_lt (.char ch)
  by_cases hplane : (CodePoint.char ch).toNat < 0x10000
  · -- One unit, which begins no pair.
    rw [units16, if_pos hplane, List.map_singleton, List.singleton_append, CodePoint.toNat]
    have hhigh : isHighSurrogate ch.toNat = false := by
      have hvalid := not_surrogate ch
      rw [← Bool.not_eq_true, isHighSurrogate, Bool.and_eq_true, decide_eq_true_iff,
        decide_eq_true_iff]
      omega
    cases others with
    | nil => rw [textOfParts.eq_3 _ _ (by simp), hchar]
    | cons part others =>
        cases part with
        | plain c => rw [textOfParts.eq_3 _ _ (by simp), hchar]
        | unit low => rw [textOfParts, hhigh, Bool.false_and, if_neg Bool.false_ne_true, hchar]
  · -- Two units, which are a pair.
    rw [units16, if_neg hplane, CodePoint.toNat]
    rw [CodePoint.toNat] at hplane
    have hpair : isHighSurrogate (0xd800 + (ch.toNat - 0x10000) / 0x400) = true ∧
        isLowSurrogate (0xdc00 + (ch.toNat - 0x10000) % 0x400) = true := by
      simp only [isHighSurrogate, isLowSurrogate, Bool.and_eq_true, decide_eq_true_iff]
      omega
    have hnumber : 0x10000 + (0xd800 + (ch.toNat - 0x10000) / 0x400 - 0xd800) * 0x400 +
        (0xdc00 + (ch.toNat - 0x10000) % 0x400 - 0xdc00) = ch.toNat := by
      omega
    rw [List.map_cons, List.map_singleton, List.cons_append, List.singleton_append, textOfParts,
      hpair.1, hpair.2, Bool.and_true, if_pos rfl, joined, hnumber, hchar]

/-- What is written for a character is read as parts that spell it. -/
theorem exists_parts_charText (start : Text) (ch : Char) :
    ∃ parts, (∀ rest, rest ≠ [] →
        stringParts start (charText (.char ch) ++ rest) = before parts (stringParts start rest)) ∧
      ∀ others, textOfParts (parts ++ others) = .char ch :: textOfParts others := by
  have hwritten := written_charText (.char ch)
  generalize charText (.char ch) = t at hwritten
  cases hwritten with
  | escape letter _ _ hshort =>
      refine ⟨[.plain (.char ch)], ?_, fun _ => rfl⟩
      intro rest _
      exact stringParts_escape start hshort rest
  | itself hprint hquote hslash =>
      refine ⟨[.plain (.char ch)], ?_, fun _ => rfl⟩
      intro rest _
      exact stringParts_itself start hprint hquote hslash rest
  | units =>
      refine ⟨(units16 (.char ch)).map .unit, ?_, textOfParts_units16 ch⟩
      intro rest hne
      exact stringParts_units start _ (fun u => Yaml.units16_lt) hne

/-- A plain text, as it is written, is read up to the closing quote, and the parts make up the
text again. Neighbouring units of a plain text are never a pair by accident, as its characters are
no surrogates. -/
theorem exists_parts_flatMap (start : Text) {s : Text} (hplain : IsPlain s) (rest : Text) :
    ∃ parts, stringParts start (s.flatMap charText ++ .char '"' :: rest) = .ok (parts, rest) ∧
      textOfParts parts = s := by
  induction s with
  | nil => exact ⟨[], stringParts.eq_2 start rest, rfl⟩
  | cons c s ih =>
      rw [IsPlain, List.forall_mem_cons] at hplain
      obtain ⟨⟨ch, rfl⟩, hs⟩ := hplain
      obtain ⟨others, hread, hothers⟩ := ih hs
      obtain ⟨parts, hparts, hspell⟩ := exists_parts_charText start ch
      refine ⟨parts ++ others, ?_, by rw [hspell, hothers]⟩
      rw [List.flatMap_cons, List.append_assoc, hparts _ (by simp), hread]
      rfl

/-- A string in front of a text: its quote, its characters, the closing quote and what follows. -/
theorem stringText_append (s rest : Text) :
    stringText s ++ rest = .char '"' :: (s.flatMap charText ++ .char '"' :: rest) := by
  simp [stringText, Text.ofString]

/-- A text of characters is read back, and reading stops behind its closing quote. -/
theorem string_stringText {s : Text} (hplain : IsPlain s) (rest : Text) :
    string (stringText s ++ rest) = .ok (s, rest) := by
  have htext : (stringText s ++ rest).drop 1 = s.flatMap charText ++ .char '"' :: rest := by
    rw [stringText_append, List.drop_one, List.tail_cons]
  obtain ⟨parts, hread, hspell⟩ := exists_parts_flatMap (stringText s ++ rest) hplain rest
  rw [string, htext, hread, ← hspell]
  rfl

/-! ### Whole numbers -/

/-- What may follow a whole number: nothing that would go on with a number. -/
def EndsNumber (rest : Text) : Prop :=
  ∀ c ∈ rest.head?, c.isDigit = false ∧ c ≠ .char '.' ∧ c ≠ .char 'e' ∧ c ≠ .char 'E'

/-- All digits are taken and nothing of what follows them. -/
theorem spanDigits_append {ds rest : Text} (hds : AreDigits ds) (hrest : EndsNumber rest) :
    spanDigits (ds ++ rest) = (digitValues ds, rest) := by
  have hstop : rest.takeWhile CodePoint.isDigit = [] ∧ rest.dropWhile CodePoint.isDigit = rest := by
    cases rest with
    | nil => exact ⟨rfl, rfl⟩
    | cons c cs =>
        have hc := (hrest c rfl).1
        exact ⟨List.takeWhile_cons_of_neg (by simp [hc]), List.dropWhile_cons_of_neg (by simp [hc])⟩
  rw [spanDigits, List.takeWhile_append_of_pos hds, List.dropWhile_append_of_pos hds, hstop.1,
    hstop.2, List.append_nil]
  rfl

/-- A numeral is read as a whole part, since it starts with zero only if it is zero. -/
theorem wholePart?_natText (n : Nat) {rest : Text} (hrest : EndsNumber rest) :
    wholePart? (natText n ++ rest) = some (digitValues (natText n), rest) := by
  obtain ⟨c, cs, htext⟩ := List.exists_cons_of_ne_nil (natText_ne_nil n)
  by_cases hzero : c = .char '0'
  · -- A zero in front is all of the number.
    subst hzero
    rw [htext, Yaml.natText_eq_zero_cons htext]
    rfl
  · have hspan := spanDigits_append (areDigits_natText n) hrest
    rw [htext, List.cons_append] at hspan ⊢
    rw [wholePart?, hspan]
    · rfl
    · intro _ heq
      exact hzero (List.cons.inj heq).1

/-- What ends a number has no fraction in front. -/
theorem fractionPart_of_endsNumber {rest : Text} (h : EndsNumber rest) :
    fractionPart rest = (none, rest) := by
  rw [fractionPart]
  intro _ heq
  subst heq
  exact (h _ rfl).2.1 rfl

/-- What ends a number has no exponent in front. -/
theorem exponentPart_of_endsNumber {rest : Text} (h : EndsNumber rest) :
    exponentPart rest = (none, rest) := by
  cases rest with
  | nil => rfl
  | cons c cs =>
      have hc := (h c rfl).2.2
      rw [exponentPart, if_neg (by simp [hc])]

/-- The first character of a whole number is a digit or a minus, and no other character. -/
theorem exists_intText_eq_cons (i : Int) : ∃ c cs, intText i = c :: cs ∧
    ∀ ch : Char, (ch.isDigit || ch = '-') = false → CodePoint.char ch ≠ c := by
  obtain ⟨c, cs, htext⟩ := List.exists_cons_of_ne_nil (natText_ne_nil i.natAbs)
  have hc := areDigits_natText i.natAbs c (htext ▸ List.mem_cons_self)
  rw [Yaml.intText_eq_signed, htext]
  cases decide (i < 0) with
  | true =>
      refine ⟨_, _, rfl, ?_⟩
      intro ch hch heq
      obtain rfl := CodePoint.char.inj heq
      exact absurd hch (by decide)
  | false =>
      refine ⟨c, cs, rfl, ?_⟩
      intro ch hch heq
      rw [← heq] at hc
      rw [Bool.or_eq_false_iff] at hch
      exact absurd (hch.1.symm.trans hc) (by decide)

/-- A whole number is read with its sign and digits, and without fraction and exponent. -/
theorem literal?_intText (i : Int) {rest : Text} (hrest : EndsNumber rest) :
    literal? (intText i ++ rest)
      = some (⟨decide (i < 0), digitValues (natText i.natAbs), none, none⟩, rest) := by
  have hwhole := wholePart?_natText i.natAbs hrest
  rw [Yaml.intText_eq_signed]
  cases decide (i < 0) with
  | true =>
      show literal? (.char '-' :: (natText i.natAbs ++ rest)) = _
      rw [literal?, hwhole]
      simp only [bind, Option.bind, fractionPart_of_endsNumber hrest,
        exponentPart_of_endsNumber hrest]
  | false =>
      show literal? (natText i.natAbs ++ rest) = _
      -- A numeral starts with a digit, so no sign is taken off it.
      have hminus : ∀ after, natText i.natAbs ++ rest ≠ .char '-' :: after := by
        intro after heq
        obtain ⟨c, cs, htext⟩ := List.exists_cons_of_ne_nil (natText_ne_nil i.natAbs)
        have hc := areDigits_natText i.natAbs c (htext ▸ List.mem_cons_self)
        rw [htext] at heq
        obtain rfl := (List.cons.inj heq).1
        exact absurd hc (by decide)
      rw [literal?, hwhole]
      · simp only [bind, Option.bind, fractionPart_of_endsNumber hrest,
          exponentPart_of_endsNumber hrest]
      · exact hminus

/-- What was read for a whole number denotes it, if its digits are not too many. -/
theorem value_intLiteral {i : Int} (h : (natText i.natAbs).length ≤ maxDigits) :
    Literal.value ⟨decide (i < 0), digitValues (natText i.natAbs), none, none⟩ = .ok (.int i) := by
  have hlength : ¬ maxDigits < (digitValues (natText i.natAbs)).length := by
    simpa [digitValues] using h
  rw [Literal.value, if_neg hlength, ofDecimals_natText]
  simp only [decide_eq_true_eq]
  have hvalue : (if i < 0 then -(i.natAbs : Int) else i.natAbs) = i := by
    omega
  rw [hvalue]

/-- No word for a value starts like a number. -/
theorem findSome?_constants (i : Int) (rest : Text) :
    constants.findSome? (fun c => (dropStart? c.1 (intText i ++ rest)).map (c.2, ·)) = none := by
  obtain ⟨c, cs, htext⟩ := List.exists_cons_of_ne_nil (natText_ne_nil i.natAbs)
  have hc := areDigits_natText i.natAbs c (htext ▸ List.mem_cons_self)
  have hne : ∀ ch : Char, ch.isDigit = false → CodePoint.char ch ≠ c := by
    intro ch hch heq
    subst heq
    exact absurd (hch.symm.trans hc) (by decide)
  rw [Yaml.intText_eq_signed, htext]
  cases decide (i < 0) with
  | true =>
      -- Behind the minus only infinity could follow.
      show constants.findSome? (fun w => (dropStart? w.1 (.char '-' :: c :: (cs ++ rest))).map _) = _
      simp [constants, dropStart?, Text.ofString, hne 'I' rfl]
  | false =>
      show constants.findSome? (fun w => (dropStart? w.1 (c :: (cs ++ rest))).map _) = _
      simp [constants, dropStart?, Text.ofString, hne 'n' rfl, hne 't' rfl, hne 'f' rfl,
        hne 'N' rfl, hne 'I' rfl, hne '-' rfl]

/-- So a whole number is read back from its text, whatever ends it. -/
theorem atom_intText {i : Int} (h : (natText i.natAbs).length ≤ maxDigits) {rest : Text}
    (hrest : EndsNumber rest) : atom (intText i ++ rest) = .ok (.int i, rest) := by
  rw [atom, findSome?_constants, literal?_intText i hrest]
  show (Literal.value _).map _ = _
  rw [value_intLiteral h]
  rfl

/-! ### Trees read back -/

/-- A text that starts with neither space nor a closing bracket. -/
def OpensValue (t : Text) : Prop :=
  ∃ c cs, t = c :: cs ∧ isSpace c = false ∧ c ≠ .char ']'

/-- Nothing is skipped in front of what is no space. -/
theorem skipSpace_cons {c : CodePoint} (h : isSpace c = false) (cs : Text) :
    skipSpace (c :: cs) = c :: cs :=
  List.dropWhile_cons_of_neg (by simp [h])

/-- Nothing is skipped in front of a value. -/
theorem OpensValue.skipSpace_append {t : Text} (h : OpensValue t) (rest : Text) :
    skipSpace (t ++ rest) = t ++ rest := by
  obtain ⟨c, cs, rfl, hspace, -⟩ := h
  exact skipSpace_cons hspace (cs ++ rest)

/-- The space in front of a value is skipped. -/
theorem OpensValue.skipSpace_space {t : Text} (h : OpensValue t) (rest : Text) :
    skipSpace (.char ' ' :: (t ++ rest)) = t ++ rest := h.skipSpace_append rest

/-- Nothing is skipped in front of a colon. -/
theorem skipSpace_colon (rest : Text) :
    skipSpace ((": " : Text) ++ rest) = .char ':' :: .char ' ' :: rest := rfl

/-- A whole number with not too many digits has its decimal text in JSON. -/
theorem scalarText_int {i : Int} (h : (natText i.natAbs).length ≤ maxDigits) :
    scalarText (.int i) = .ok (intText i) := by
  -- The bound is kept a variable, or it would be computed.
  have hlt : ∀ k, 0 < k → (natText i.natAbs).length ≤ k → i.natAbs < Nat.pow 10 k :=
    fun k hk => (length_natText_le_iff hk).mp
  rw [scalarText, Scalar.literal_int, intText?_of_natAbs_lt (hlt maxDigits (by decide) h) le_rfl]
  rfl

/-- The text of a tree starts with what starts a value, so no space is skipped in front of it and
it is no closing bracket. -/
theorem IsJsonTree.opensValue {v : Value} (h : IsJsonTree v) {depth : Nat} {t : Text}
    (htext : valueText .compact depth v = .ok t) : OpensValue t := by
  cases h with
  | null =>
      obtain rfl := Except.ok.inj htext
      exact ⟨_, _, rfl, by decide, by decide⟩
  | bool b =>
      cases b <;>
      · obtain rfl := Except.ok.inj htext
        exact ⟨_, _, rfl, by decide, by decide⟩
  | @int i hlength =>
      rw [valueText, scalarText_int hlength] at htext
      obtain rfl := Except.ok.inj htext
      -- A whole number starts with a digit or a minus, which is neither a space nor a bracket.
      obtain ⟨c, cs, hcons, hne⟩ := exists_intText_eq_cons i
      refine ⟨c, cs, hcons, ?_, (hne ']' rfl).symm⟩
      simp [isSpace, (hne ' ' rfl).symm, (hne '\t' rfl).symm, (hne '\n' rfl).symm,
        (hne '\r' rfl).symm]
  | str hplain =>
      obtain rfl := Except.ok.inj htext
      exact ⟨_, _, rfl, by decide, by decide⟩
  | list hitems =>
      obtain ⟨-, parts, -, rfl⟩ := valueText_list_eq_ok_iff.mp htext
      rw [Layout.enclose_compact]
      exact ⟨_, _, rfl, by decide, by decide⟩
  | map hentries =>
      obtain ⟨-, parts, -, rfl⟩ := valueText_map_eq_ok_iff.mp htext
      rw [Layout.enclose_compact]
      exact ⟨_, _, rfl, by decide, by decide⟩

section Steps

variable {fuel depth : Nat}

/-- The last element of a list, in front of its closing bracket. -/
theorem elements_last {s rest : Text} {v : Value}
    (hvalue : value fuel depth s = .ok (v, .char ']' :: rest)) :
    elements (fuel + 1) depth s = .ok ([v], rest) := by
  rw [elements, hvalue]
  rfl

/-- An element in front of a comma, a space and the other elements. -/
theorem elements_more {s next rest : Text} {v : Value} {vs : List Value}
    (hvalue : value fuel depth s = .ok (v, .char ',' :: .char ' ' :: next))
    (hskip : skipSpace next = next) (hvs : elements fuel depth next = .ok (vs, rest)) :
    elements (fuel + 1) depth s = .ok (v :: vs, rest) := by
  have hspace : skipSpace (.char ' ' :: next) = next := hskip
  have hcomma : skipSpace (.char ',' :: .char ' ' :: next) = .char ',' :: .char ' ' :: next := rfl
  rw [elements, hvalue]
  simp only [bind, Except.bind, hcomma, hspace, hvs]

/-- The last member of a mapping, in front of its closing brace. -/
theorem members_last {name : Text} (hname : IsPlain name) {t : Text} (ht : OpensValue t)
    {rest : Text} {v : Value}
    (hvalue : value fuel depth (t ++ .char '\x7d' :: rest) = .ok (v, .char '\x7d' :: rest)) :
    members (fuel + 1) depth (stringText name ++ (": " ++ (t ++ .char '\x7d' :: rest)))
      = .ok ([(.str name, v)], rest) := by
  have hstring := string_stringText hname (": " ++ (t ++ .char '\x7d' :: rest))
  have hcolon := skipSpace_colon (t ++ .char '\x7d' :: rest)
  have hspace := ht.skipSpace_space (.char '\x7d' :: rest)
  have hclose : skipSpace (.char '\x7d' :: rest) = .char '\x7d' :: rest := rfl
  rw [stringText_append] at hstring ⊢
  rw [members, hstring]
  simp only [bind, Except.bind, hcolon, hspace, hvalue, hclose]

/-- A member in front of a comma, a space and the other members. Names of one mapping differ, but
a step does not need that yet. -/
theorem members_more {name : Text} (hname : IsPlain name) {t : Text} (ht : OpensValue t)
    {next rest : Text} {v : Value} {fields : List (Scalar × Value)}
    (hvalue : value fuel depth (t ++ .char ',' :: .char ' ' :: next)
      = .ok (v, .char ',' :: .char ' ' :: next))
    (hskip : skipSpace next = next) (hfields : members fuel depth next = .ok (fields, rest)) :
    members (fuel + 1) depth (stringText name ++ (": " ++ (t ++ .char ',' :: .char ' ' :: next)))
      = .ok ((.str name, v) :: fields, rest) := by
  have hstring := string_stringText hname (": " ++ (t ++ .char ',' :: .char ' ' :: next))
  have hcolon := skipSpace_colon (t ++ .char ',' :: .char ' ' :: next)
  have hspace := ht.skipSpace_space (.char ',' :: .char ' ' :: next)
  have hcomma : skipSpace (.char ',' :: .char ' ' :: next) = .char ',' :: .char ' ' :: next := rfl
  have hnext : skipSpace (.char ' ' :: next) = next := hskip
  rw [stringText_append] at hstring ⊢
  rw [members, hstring]
  simp only [bind, Except.bind, hcolon, hspace, hvalue, hcomma, hnext, hfields]

/-- An empty list is read as one. -/
theorem value_list_nil (hdepth : depth < maxNesting) (rest : Text) :
    value (fuel + 1) depth (.char '[' :: .char ']' :: rest) = .ok (.list [], rest) := by
  rw [value, if_neg (Nat.not_le.mpr hdepth)]
  rfl

/-- An empty mapping is read as one. -/
theorem value_map_nil (hdepth : depth < maxNesting) (rest : Text) :
    value (fuel + 1) depth (.char '\x7b' :: .char '\x7d' :: rest) = .ok (.map [], rest) := by
  rw [value, if_neg (Nat.not_le.mpr hdepth)]
  rfl

/-- A list is read with the elements between its brackets, one level further down. -/
theorem value_list {parts rest : Text} {items : List Value} (hdepth : depth < maxNesting)
    (hopens : OpensValue parts)
    (helements : elements fuel (depth + 1) (parts ++ .char ']' :: rest) = .ok (items, rest)) :
    value (fuel + 1) depth (.char '[' :: (parts ++ .char ']' :: rest)) = .ok (.list items, rest) := by
  rw [value, if_neg (Nat.not_le.mpr hdepth), hopens.skipSpace_append]
  obtain ⟨c, cs, rfl, -, hclose⟩ := hopens
  split
  · rename_i heq
    exact absurd (List.cons.inj heq).1 hclose
  · rw [helements]
    rfl

/-- A mapping is read with the members between its braces. Its keys differ, so none of them
replaces another. -/
theorem value_map {parts rest : Text} {entries : List (Scalar × Value)}
    (hdepth : depth < maxNesting) (hentries : AreJsonFields entries)
    (hopens : ∃ cs, parts = .char '"' :: cs)
    (hmembers : members fuel (depth + 1) (parts ++ .char '\x7d' :: rest) = .ok (entries, rest)) :
    value (fuel + 1) depth (.char '\x7b' :: (parts ++ .char '\x7d' :: rest))
      = .ok (.map entries, rest) := by
  obtain ⟨cs, rfl⟩ := hopens
  have hskip : skipSpace (.char '"' :: cs ++ .char '\x7d' :: rest)
      = .char '"' :: (cs ++ .char '\x7d' :: rest) := rfl
  rw [value, if_neg (Nat.not_le.mpr hdepth), hskip]
  show (members fuel (depth + 1) _).map _ = _
  rw [List.cons_append] at hmembers
  rw [hmembers]
  show Except.ok (Value.map (Entries.ofList entries), rest) = _
  rw [hentries.ofList_eq]

end Steps

/-- A character that is no digit, no point and no exponent mark ends a number. -/
theorem endsNumber_cons {ch : Char} (h : (".eE".toList.contains ch || ch.isDigit) = false)
    (rest : Text) : EndsNumber (.char ch :: rest) := by
  simp only [Bool.or_eq_false_iff] at h
  intro c hc
  obtain rfl := Option.some.inj hc
  refine ⟨h.2, ?_, ?_, ?_⟩ <;>
  · intro heq
    obtain rfl := CodePoint.char.inj heq
    exact absurd h.1 (by decide)

/-- A value without parts is read from its text. -/
theorem value_scalarText {s : Scalar} (h : IsJsonTree (.scalar s)) {depth fuel : Nat}
    {t rest : Text} (htext : scalarText s = .ok t) (hrest : ∀ i, s = .int i → EndsNumber rest) :
    value (fuel + 1) depth (t ++ rest) = .ok (.scalar s, rest) := by
  cases h with
  | null =>
      obtain rfl := Except.ok.inj htext
      rfl
  | bool b =>
      cases b <;>
      · obtain rfl := Except.ok.inj htext
        rfl
  | @int i hlength =>
      rw [scalarText_int hlength] at htext
      obtain rfl := Except.ok.inj htext
      have hatom := atom_intText hlength (hrest i rfl)
      -- It starts with no quote and no bracket, so it is read as an atom.
      obtain ⟨c, cs, hcons, hne⟩ := exists_intText_eq_cons i
      rw [hcons, List.cons_append] at hatom ⊢
      rw [value, hatom]
      · exact fun _ heq => hne '"' rfl (List.cons.inj heq).1.symm
      · exact fun _ heq => hne '[' rfl (List.cons.inj heq).1.symm
      · exact fun _ heq => hne '\x7b' rfl (List.cons.inj heq).1.symm
  | @str s hplain =>
      obtain rfl := Except.ok.inj htext
      have hstring := string_stringText hplain rest
      rw [stringText_append] at hstring ⊢
      rw [value, hstring]
      rfl

/-- The first of several parts stands in front of a comma, a space and the others. -/
theorem intercalate_append (t u : Text) (us : List Text) (rest : Text) :
    (", " : Text).intercalate (t :: u :: us) ++ rest
      = t ++ .char ',' :: .char ' ' :: ((", " : Text).intercalate (u :: us) ++ rest) := by
  simp [Text.ofString]

/-- Parts that are joined start as the first of them. -/
theorem OpensValue.intercalate {t : Text} (h : OpensValue t) (ts : List Text) :
    OpensValue ((", " : Text).intercalate (t :: ts)) := by
  obtain ⟨c, cs, rfl, hspace, hclose⟩ := h
  cases ts with
  | nil => exact ⟨c, cs, by simp, hspace, hclose⟩
  | cons u us => exact ⟨c, _, by rw [List.intercalate_cons_cons]; rfl, hspace, hclose⟩

/-- The texts of items that are joined start as a value, so a list is not taken for an empty one. -/
theorem AreJsonTrees.opensValue {v : Value} {vs : List Value} (h : AreJsonTrees (v :: vs))
    {depth : Nat} {parts : List Text} (hparts : itemTexts .compact depth (v :: vs) = .ok parts) :
    OpensValue ((", " : Text).intercalate parts) := by
  cases h with
  | cons hv _ =>
      obtain ⟨t, ts, htext, -, rfl⟩ := itemTexts_cons_eq_ok_iff.mp hparts
      exact (hv.opensValue htext).intercalate ts

/-- The text of entries starts with the quote of the first name. -/
theorem AreJsonFields.exists_eq_cons {e : Scalar × Value} {es : List (Scalar × Value)}
    (h : AreJsonFields (e :: es)) {depth : Nat} {parts : List Text}
    (hparts : entryTexts .compact depth (e :: es) = .ok parts) :
    ∃ cs, (", " : Text).intercalate parts = .char '"' :: cs := by
  cases h with
  | cons =>
      obtain ⟨name, t, ts, hname, -, -, rfl⟩ := entryTexts_cons_eq_ok_iff.mp hparts
      obtain rfl := Except.ok.inj hname
      cases ts with
      | nil => exact ⟨_, by rw [List.intercalate_singleton, List.append_assoc, stringText_append]⟩
      | cons u us =>
          exact ⟨_, by rw [List.intercalate_cons_cons, List.append_assoc, List.append_assoc,
            List.append_assoc, stringText_append]⟩

/-- The texts of entries that are joined start as a value, with the quote of the first name. -/
theorem AreJsonFields.opensValue {e : Scalar × Value} {es : List (Scalar × Value)}
    (h : AreJsonFields (e :: es)) {depth : Nat} {parts : List Text}
    (hparts : entryTexts .compact depth (e :: es) = .ok parts) :
    OpensValue ((", " : Text).intercalate parts) := by
  obtain ⟨cs, hcs⟩ := h.exists_eq_cons hparts
  exact ⟨_, cs, hcs, by decide, by decide⟩

mutual

/-- A tree is read from its text, and what follows the text is left. A whole number has to end
where its text does. -/
theorem value_valueText {v : Value} (h : IsJsonTree v) {depth fuel : Nat} {t rest : Text}
    (htext : valueText .compact depth v = .ok t) (hfuel : t.length ≤ fuel)
    (hrest : ∀ i, v = .int i → EndsNumber rest) :
    value fuel depth (t ++ rest) = .ok (v, rest) := by
  -- The text is not empty, so there is fuel for one step.
  have hpos : 0 < t.length := by
    obtain ⟨c, cs, rfl, -⟩ := h.opensValue htext
    exact Nat.succ_pos _
  obtain ⟨fuel, rfl⟩ : ∃ k, fuel = k + 1 := ⟨fuel - 1, by omega⟩
  match v, h with
  | .scalar s, h => exact value_scalarText h htext fun i hi => hrest i (hi ▸ rfl)
  | .list [], _ =>
      obtain ⟨hdepth, parts, hparts, rfl⟩ := valueText_list_eq_ok_iff.mp htext
      obtain rfl := Except.ok.inj hparts
      exact value_list_nil hdepth rest
  | .list (v :: vs), .list hitems =>
      obtain ⟨hdepth, parts, hparts, rfl⟩ := valueText_list_eq_ok_iff.mp htext
      have hopens := hitems.opensValue hparts
      rw [Layout.enclose_compact, List.length_cons, List.length_append, List.length_singleton] at hfuel
      rw [Layout.enclose_compact, List.cons_append, List.append_assoc, List.singleton_append]
      exact value_list hdepth hopens (elements_itemTexts hitems (by simp) hparts (by omega))
  | .map [], _ =>
      obtain ⟨hdepth, parts, hparts, rfl⟩ := valueText_map_eq_ok_iff.mp htext
      obtain rfl := Except.ok.inj hparts
      exact value_map_nil hdepth rest
  | .map (e :: es), .map hentries =>
      obtain ⟨hdepth, parts, hparts, rfl⟩ := valueText_map_eq_ok_iff.mp htext
      have hopens := hentries.exists_eq_cons hparts
      rw [Layout.enclose_compact, List.length_cons, List.length_append, List.length_singleton] at hfuel
      rw [Layout.enclose_compact, List.cons_append, List.append_assoc, List.singleton_append]
      exact value_map hdepth hentries hopens
        (members_entryTexts hentries (by simp) hparts (by omega))

/-- The elements of a list are read up to its closing bracket. -/
theorem elements_itemTexts {vs : List Value} (h : AreJsonTrees vs) (hne : vs ≠ [])
    {depth fuel : Nat} {parts : List Text} {rest : Text}
    (hparts : itemTexts .compact depth vs = .ok parts)
    (hfuel : ((", " : Text).intercalate parts).length < fuel) :
    elements fuel depth ((", " : Text).intercalate parts ++ .char ']' :: rest) = .ok (vs, rest) := by
  obtain ⟨fuel, rfl⟩ : ∃ k, fuel = k + 1 := ⟨fuel - 1, by omega⟩
  match vs, h with
  | [], _ => exact absurd rfl hne
  | [v], .cons hv _ =>
      obtain ⟨t, ts, htext, htexts, rfl⟩ := itemTexts_cons_eq_ok_iff.mp hparts
      obtain rfl := Except.ok.inj htexts
      rw [List.intercalate_singleton] at hfuel ⊢
      exact elements_last (value_valueText hv htext (by omega)
        fun _ _ => endsNumber_cons (by decide) rest)
  | v :: w :: ws, .cons hv hvs =>
      -- What follows the first element starts with a comma, so a number ends there.
      obtain ⟨t, ts, htext, htexts, rfl⟩ := itemTexts_cons_eq_ok_iff.mp hparts
      obtain ⟨u, us, hu, hus, rfl⟩ := itemTexts_cons_eq_ok_iff.mp htexts
      have hlength := congrArg List.length (intercalate_append t u us [])
      simp only [List.append_nil, List.length_append, List.length_cons] at hlength
      have hothers : elements fuel depth
          ((", " : Text).intercalate (u :: us) ++ .char ']' :: rest) = .ok (w :: ws, rest) :=
        elements_itemTexts hvs (by simp) htexts (by omega)
      have hskip := (hvs.opensValue htexts).skipSpace_append (.char ']' :: rest)
      rw [intercalate_append]
      exact elements_more (value_valueText hv htext (by omega)
        fun _ _ => endsNumber_cons (by decide) _) hskip hothers

/-- The fields of a mapping are read up to its closing brace. -/
theorem members_entryTexts {es : List (Scalar × Value)} (h : AreJsonFields es) (hne : es ≠ [])
    {depth fuel : Nat} {parts : List Text} {rest : Text}
    (hparts : entryTexts .compact depth es = .ok parts)
    (hfuel : ((", " : Text).intercalate parts).length < fuel) :
    members fuel depth ((", " : Text).intercalate parts ++ .char '\x7d' :: rest)
      = .ok (es, rest) := by
  obtain ⟨fuel, rfl⟩ : ∃ k, fuel = k + 1 := ⟨fuel - 1, by omega⟩
  match es, h with
  | [], _ => exact absurd rfl hne
  | [(.str name, v)], .cons hname _ hv _ =>
      obtain ⟨_, t, ts, hkey, htext, htexts, rfl⟩ := entryTexts_cons_eq_ok_iff.mp hparts
      obtain rfl := Except.ok.inj hkey
      obtain rfl := Except.ok.inj htexts
      simp only [List.intercalate_singleton, List.length_append] at hfuel
      rw [List.intercalate_singleton, List.append_assoc, List.append_assoc]
      exact members_last hname (hv.opensValue htext) (value_valueText hv htext (by omega)
        fun _ _ => endsNumber_cons (by decide) rest)
  | (.str name, v) :: (k, w) :: es, .cons hname _ hv hes =>
      obtain ⟨_, t, ts, hkey, htext, htexts, rfl⟩ := entryTexts_cons_eq_ok_iff.mp hparts
      obtain rfl := Except.ok.inj hkey
      obtain ⟨key, u, us, -, -, -, rfl⟩ := entryTexts_cons_eq_ok_iff.mp htexts
      -- The text of the other fields is shorter, so there is fuel left for them.
      have hlength := congrArg List.length
        (intercalate_append (stringText name ++ ": " ++ t) (key ++ ": " ++ u) us [])
      simp only [List.append_nil, List.length_append, List.length_cons] at hlength
      have hothers : members fuel depth ((", " : Text).intercalate ((key ++ ": " ++ u) :: us) ++
          .char '\x7d' :: rest) = .ok ((k, w) :: es, rest) :=
        members_entryTexts hes (by simp) htexts (by omega)
      have hskip := (hes.opensValue htexts).skipSpace_append (.char '\x7d' :: rest)
      rw [intercalate_append, List.append_assoc, List.append_assoc]
      exact members_more hname (hv.opensValue htext) (value_valueText hv htext (by omega)
        fun _ _ => endsNumber_cons (by decide) _) hskip hothers

end

/-- A list or a mapping is read from its text at the start of any other, and what follows is
left. -/
theorem readPart_of_write {v : Value} (h : IsJsonTree v) (hv : 0 < v.depth) {literal : Text}
    (hwrite : write .compact v = .ok literal) (rest : Text) :
    readPart (literal ++ rest) = .ok (v, rest) := by
  apply value_valueText h hwrite
  · rw [List.length_append]
    omega
  · intro i hi
    subst hi
    exact absurd hv (by simp [Value.depth])

/-! ### Which trees have a text -/

/-- Every scalar of a tree has a text: the numbers among them are not too long. -/
theorem exists_scalarText {s : Scalar} (h : IsJsonTree (.scalar s)) : ∃ t, scalarText s = .ok t := by
  cases h with
  | null => exact ⟨_, rfl⟩
  | bool b => cases b <;> exact ⟨_, rfl⟩
  | int hlength => exact ⟨_, scalarText_int hlength⟩
  | str hplain => exact ⟨_, rfl⟩

mutual

/-- A tree has a text unless it is nested too deeply. -/
theorem exists_valueText_iff (layout : Layout) {v : Value} (h : IsJsonTree v) (depth : Nat) :
    (∃ t, valueText layout depth v = .ok t) ↔ v.depth = 0 ∨ depth + v.depth ≤ maxDepth := by
  match v, h with
  | .scalar s, h =>
      obtain ⟨t, ht⟩ := exists_scalarText h
      simp [valueText, ht, Value.depth]
  | .list items, .list hitems =>
      -- The parts are written one level further down, which is what depth counts.
      have hparts := exists_itemTexts_iff layout hitems (depth + 1)
      simp only [valueText_list_eq_ok_iff, Value.depth]
      constructor
      · intro hex
        obtain ⟨t, hdepth, parts, hitems, -⟩ := hex
        have hbound := hparts.mp ⟨parts, hitems⟩
        omega
      · intro hbound
        obtain ⟨parts, hitems⟩ := hparts.mpr (by omega)
        exact ⟨_, by omega, parts, hitems, rfl⟩
  | .map es, .map hentries =>
      have hparts := exists_entryTexts_iff layout hentries (depth + 1)
      simp only [valueText_map_eq_ok_iff, Value.depth]
      constructor
      · intro hex
        obtain ⟨t, hdepth, parts, hes, -⟩ := hex
        have hbound := hparts.mp ⟨parts, hes⟩
        omega
      · intro hbound
        obtain ⟨parts, hes⟩ := hparts.mpr (by omega)
        exact ⟨_, by omega, parts, hes, rfl⟩

/-- The items of a list have texts exactly if none of them is nested deeper than there is room. -/
theorem exists_itemTexts_iff (layout : Layout) {vs : List Value} (h : AreJsonTrees vs)
    (depth : Nat) : (∃ parts, itemTexts layout depth vs = .ok parts) ↔
      Value.itemsDepth vs = 0 ∨ depth + Value.itemsDepth vs ≤ maxDepth := by
  match vs, h with
  | [], _ => simp [itemTexts, Value.itemsDepth]
  | v :: vs, .cons hv hvs =>
      have hfirst := exists_valueText_iff layout hv depth
      have hothers := exists_itemTexts_iff layout hvs depth
      simp only [itemTexts_cons_eq_ok_iff, Value.itemsDepth]
      constructor
      · intro hex
        obtain ⟨_, t, ts, ht, hts, -⟩ := hex
        have hleft := hfirst.mp ⟨t, ht⟩
        have hright := hothers.mp ⟨ts, hts⟩
        omega
      · intro hbound
        obtain ⟨t, ht⟩ := hfirst.mpr (by omega)
        obtain ⟨ts, hts⟩ := hothers.mpr (by omega)
        exact ⟨_, t, ts, ht, hts, rfl⟩

/-- The entries of a mapping have texts exactly if none of their values is nested deeper than
there is room. -/
theorem exists_entryTexts_iff (layout : Layout) {es : List (Scalar × Value)} (h : AreJsonFields es)
    (depth : Nat) : (∃ parts, entryTexts layout depth es = .ok parts) ↔
      Value.entriesDepth es = 0 ∨ depth + Value.entriesDepth es ≤ maxDepth := by
  match es, h with
  | [], _ => simp [entryTexts, Value.entriesDepth]
  | (.str name, v) :: es, .cons _ _ hv hes =>
      have hfirst := exists_valueText_iff layout hv depth
      have hothers := exists_entryTexts_iff layout hes depth
      simp only [entryTexts_cons_eq_ok_iff, Value.entriesDepth]
      constructor
      · intro hex
        obtain ⟨_, _, t, ts, -, ht, hts, -⟩ := hex
        have hleft := hfirst.mp ⟨t, ht⟩
        have hright := hothers.mp ⟨ts, hts⟩
        omega
      · intro hbound
        obtain ⟨t, ht⟩ := hfirst.mpr (by omega)
        obtain ⟨ts, hts⟩ := hothers.mpr (by omega)
        exact ⟨_, _, t, ts, rfl, ht, hts, rfl⟩

end

/-- A list or mapping has a text exactly if it is not nested too deeply. -/
theorem exists_write_iff (layout : Layout) {v : Value} (h : IsJsonTree v) (hv : 0 < v.depth) :
    (∃ t, write layout v = .ok t) ↔ v.depth ≤ maxDepth := by
  show (∃ t, valueText layout 0 v = .ok t) ↔ _
  rw [exists_valueText_iff layout h 0]
  omega

end RouteDocs.Json
