import RouteDocs.Proofs.JsonGrammar
import RouteDocs.Proofs.JsonReading
import RouteDocs.Proofs.SavedDocument

/-!
# `RouteDocs.Proofs.StrictJson`: which documents are JSON

A number that is infinite, or that is no number at all, is written as a word. The grammar has no
such word, so a reader that keeps to it refuses the text. Everything else that is written follows
the grammar.

* `isValue_valueText`: if the numbers of a value are finite (`Value.isFinite`), what is written for
  it is a value of the grammar.
* `shows_valueText`: if one of them is not, a capital of its word stands outside strings.

`run_isJsonFile_iff` is the result for the file that a run leaves, and `not_isJsonFile_nanRun` is a
run that succeeds and leaves a file that is not JSON.
-/

set_option autoImplicit false

namespace RouteDocs

open Text Number

namespace Json

/-! ### Strings and numbers that are written -/

/-- The letters that a short escape is written with are the eight of the grammar. -/
theorem mem_of_shortEscape? {letter c : CodePoint} (h : shortEscape? letter = some c) :
    letter ∈ ("\"\\/bfnrt" : Text) := by
  have hletters : ("\"\\/bfnrt" : Text)
      = [.char '"', .char '\\', .char '/', .char 'b', .char 'f', .char 'n', .char 'r', .char 't'] := rfl
  rw [hletters]
  by_contra hnot
  simp only [List.mem_cons, List.not_mem_nil, or_false, not_or] at hnot
  simp [shortEscape?, hnot] at h

/-- What a number is written with in hexadecimal are hexadecimal digits. -/
theorem isSome_hexValue?_of_mem_toHex {places n : Nat} {d : CodePoint} (h : d ∈ toHex places n) :
    (hexValue? d).isSome = true := by
  induction places generalizing n with
  | zero => exact nomatch h
  | succ places ih =>
      rw [toHex, List.mem_append, List.mem_singleton] at h
      rcases h with h | rfl
      · exact ih h
      · rw [hexValue?_hexDigit (Nat.mod_lt _ (by decide))]
        rfl

/-- Code units that are escaped one by one go in front of other characters of a string. One unit
is enough for most code points, and two for those beyond the first plane. -/
theorem areChars_units (units : List Nat) {s : Text} (hs : AreChars s) :
    AreChars (units.flatMap (fun u => .char '\\' :: .char 'u' :: toHex 4 u) ++ s) := by
  induction units with
  | nil => exact hs
  | cons u us ih =>
      rw [List.flatMap_cons, List.append_assoc]
      exact .unit (length_toHex 4 u) (fun d => isSome_hexValue?_of_mem_toHex) ih

/-- A code point, as it is written, goes in front of other characters of a string: it stands for
itself, or as a short escape, or as its units. -/
theorem areChars_charText (c : CodePoint) {s : Text} (hs : AreChars s) :
    AreChars (charText c ++ s) := by
  have hwritten := written_charText c
  generalize charText c = t at hwritten
  cases hwritten with
  | escape letter _ _ hshort => exact .escape (mem_of_shortEscape? hshort) hs
  | itself hprint hquote hslash =>
      cases c with
      | surrogate offset =>
          have hlt := hprint.2
          rw [CodePoint.toNat] at hlt
          omega
      | char ch =>
          refine .itself hprint.1 ?_ ?_ hs
          · exact fun heq => hquote (heq ▸ rfl)
          · exact fun heq => hslash (heq ▸ rfl)
  | units => exact areChars_units _ hs

/-- So the code points of a text are the characters of a string, one after the other. -/
theorem areChars_flatMap_charText (s : Text) : AreChars (s.flatMap charText) := by
  induction s with
  | nil => exact .nil
  | cons c s ih =>
      rw [List.flatMap_cons]
      exact areChars_charText c ih

/-- Every text is written as a string of the grammar, whatever it holds. -/
theorem isString_stringText (s : Text) : IsString (stringText s) := by
  have htext : stringText s = .char '"' :: (s.flatMap charText ++ [.char '"']) := rfl
  rw [htext]
  exact .quoted (areChars_flatMap_charText s)

/-- A natural number is a whole part: its numeral starts with zero only if it is zero. -/
theorem isWhole_natText (n : Nat) : IsWhole (natText n) := by
  obtain ⟨c, cs, htext⟩ := List.exists_cons_of_ne_nil (natText_ne_nil n)
  have hdigits := areDigits_natText n
  rw [htext] at hdigits
  by_cases hzero : c = .char '0'
  · subst hzero
    rw [htext, Yaml.natText_eq_zero_cons htext]
    exact .zero
  · rw [htext]
    exact .digits (hdigits c List.mem_cons_self) hzero fun d hd =>
      hdigits d (List.mem_cons_of_mem _ hd)

/-- A whole number is a number of the grammar, without fraction and exponent. -/
theorem isNumber_intText (i : Int) : IsNumber (intText i) := by
  have hnumber := IsNumber.parts (decide (i < 0)) (isWhole_natText i.natAbs) .absent .absent
  rw [List.append_nil, List.append_nil] at hnumber
  rwa [Yaml.intText_eq_signed]

/-- The first digits of a numeral are the whole part of a number. The point of a decimal cuts the
numeral there. -/
theorem isWhole_take_natText (n k : Nat) : IsWhole ((natText n).take (k + 1)) := by
  have hwhole := isWhole_natText n
  generalize natText n = t at hwhole
  cases hwhole with
  | zero =>
      rw [List.take_succ_cons, List.take_nil]
      exact .zero
  | digits hd hzero hds =>
      exact .digits hd hzero fun c hc => hds c (List.mem_of_mem_take hc)

/-- A numeral with zeros behind it is a whole part, unless it is that of zero. -/
theorem isWhole_natText_zeros {n : Nat} (hn : n ≠ 0) (k : Nat) :
    IsWhole (natText n ++ zeros k) := by
  have hwhole := isWhole_natText n
  generalize htext : natText n = t at hwhole
  cases hwhole with
  | zero =>
      -- Zeros behind a zero would not be a number of the grammar.
      have hvalue := ofDecimals_natText n
      rw [htext] at hvalue
      exact absurd hvalue.symm hn
  | digits hd hzero hds => exact .digits hd hzero (hds.append (areDigits_zeros k))

/-- A mark, a sign and two digits or more are an exponent. -/
theorem isExponent_padded (e : Int) :
    IsExponent ((if e < 0 then ("e-" : Text) else "e+") ++ padded 2 e.natAbs) := by
  have hne : padded 2 e.natAbs ≠ [] := by
    simp [padded, natText_ne_nil]
  split
  · exact .digits (.inl rfl) (by decide) (areDigits_padded 2 e.natAbs) hne
  · exact .digits (.inl rfl) (by decide) (areDigits_padded 2 e.natAbs) hne

/-- What is written for a positive decimal has the three parts of a number, wherever the point
stands and whether there is an exponent. -/
theorem exists_parts_decimalText {d : Binary64.Decimal} (hd : d.digits ≠ 0) :
    ∃ whole fraction exponent, IsWhole whole ∧ IsFraction fraction ∧ IsExponent exponent ∧
      decimalText d = whole ++ (fraction ++ exponent) := by
  have hne := natText_ne_nil d.digits
  have hds := areDigits_natText d.digits
  have hdrop : ∀ k, AreDigits ((natText d.digits).drop k) := fun k c hc =>
    hds c (List.mem_of_mem_drop hc)
  simp only [decimalText]
  -- The place of the first digit decides on the form.
  generalize d.exponent + ((natText d.digits).length : Int) - 1 = e
  split
  · -- One digit, the others behind a point, and a power of ten.
    refine ⟨(natText d.digits).take 1,
      if (natText d.digits).length ≤ 1 then [] else .char '.' :: (natText d.digits).drop 1, _,
      isWhole_take_natText _ 0, ?_, isExponent_padded e, ?_⟩
    · split
      · exact .absent
      · refine .digits (hdrop 1) ?_
        rw [← List.length_pos_iff, List.length_drop]
        omega
    · split <;> simp [Text.ofString]
  · split
    · -- Zeros behind the point.
      refine ⟨[.char '0'], .char '.' :: (zeros (-e - 1).toNat ++ natText d.digits), [], .zero,
        .digits ((areDigits_zeros _).append hds) (by simp [hne]), .absent, ?_⟩
      simp [Text.ofString]
    · split
      · -- Zeros in front of it.
        refine ⟨natText d.digits ++ zeros (e.toNat + 1 - (natText d.digits).length),
          [.char '.', .char '0'], [], isWhole_natText_zeros hd _,
          .digits (areDigits_zeros 1) (by decide), .absent, ?_⟩
        simp [Text.ofString]
      · -- The point among the digits.
        refine ⟨(natText d.digits).take (e.toNat + 1), .char '.' :: (natText d.digits).drop (e.toNat + 1),
          [], isWhole_take_natText _ _, .digits (hdrop _) ?_, .absent, ?_⟩
        · rw [← List.length_pos_iff, List.length_drop]
          omega
        · simp [Text.ofString]

/-- A decimal that is read back as a number other than zero has a digit other than zero. -/
theorem digits_ne_zero_of_readsBackAs {d : Binary64.Decimal} {rank : Nat} (hrank : rank ≠ 0)
    (h : d.readsBackAs rank = true) : d.digits ≠ 0 := by
  intro hzero
  have hratio : d.ratio.1 = 0 := by
    rw [Binary64.Decimal.ratio]
    split <;> simp [hzero]
  rw [Binary64.Decimal.readsBackAs, hratio, Binary64.nearestRank, if_pos rfl, beq_iff_eq] at h
  exact hrank h.symm

/-- A finite number is a number of the grammar. The words for the others do not occur, so they
may be any. -/
theorem isNumber_floatText (words : Words) {x : Binary64} (hfin : x.isFinite = true) :
    IsNumber (floatText words x) := by
  have hrank : x.rank < Binary64.infinityRank := of_decide_eq_true hfin
  have hnan : x.isNaN = false := decide_eq_false (by omega)
  have hinf : x.isInfinite = false := beq_false_of_ne (by omega)
  have htext : floatText words x
      = signed x.negative (if x.isZero then "0.0" else decimalText (Binary64.shortest x.rank)) := by
    simp only [floatText, hnan, hinf, Bool.false_eq_true, if_false]
    rfl
  rw [htext]
  split
  · exact .parts x.negative .zero (.digits (areDigits_zeros 1) (by decide)) .absent
  · rename_i hzero
    have hne : x.rank ≠ 0 := fun heq => hzero (beq_iff_eq.mpr heq)
    have hback := Binary64.shortest_readsBackAs (Nat.pos_of_ne_zero hne) hrank
    obtain ⟨whole, fraction, exponent, hwhole, hfraction, hexponent, hparts⟩ :=
      exists_parts_decimalText (digits_ne_zero_of_readsBackAs hne hback)
    rw [hparts]
    exact .parts x.negative hwhole hfraction hexponent

end Json

/-! ### Finite values -/

namespace Value

mutual

/-- Whether the numbers of a value are finite. Keys and the members of a set are written as texts,
so they do not count. -/
def isFinite : Value → Bool
  | .scalar (.float x) => x.isFinite
  | .list items => areFinite items
  | .pair key value => isFinite key && isFinite value
  | .map entries => haveFinite entries
  | _ => true

/-- Whether the elements of a list are finite. -/
def areFinite : List Value → Bool
  | [] => true
  | v :: vs => isFinite v && areFinite vs

/-- Whether the values of a mapping are finite. -/
def haveFinite : List (Scalar × Value) → Bool
  | [] => true
  | (_, v) :: es => isFinite v && haveFinite es

end

end Value

namespace Json

/-! ### Layouts -/

section Layouts

variable (layout : Layout) (depth : Nat)

/-- A line feed and indentation are space. -/
theorem isGap_lineStart (n : Nat) :
    IsGap (("\n" : Text) ++ List.replicate n (CodePoint.char ' ')) := by
  intro c hc
  rcases List.mem_append.mp hc with hc | hc
  · rw [List.mem_singleton.mp hc]
    decide
  · rw [List.eq_of_mem_replicate hc]
    decide

/-- What a layout puts behind an opening bracket is space. -/
theorem isGap_open : IsGap (layout.open_ depth) := by
  cases layout with
  | compact => exact isGap_nil
  | indented width => exact isGap_lineStart _

/-- What a layout puts in front of a closing bracket is space. -/
theorem isGap_close : IsGap (layout.close depth) := by
  cases layout with
  | compact => exact isGap_nil
  | indented width => exact isGap_lineStart _

/-- A comma and space stand between parts, in every layout. -/
theorem exists_between : ∃ gap, IsGap gap ∧ layout.between depth = .char ',' :: gap := by
  cases layout with
  | compact => exact ⟨_, isGap_space, rfl⟩
  | indented width => exact ⟨_, isGap_lineStart _, rfl⟩

end Layouts

/-- A part with space around it. The grammar lets space stand around an element, while a layout
puts it around the commas and brackets. -/
def IsSpaced (parts : List Text) (u : Text) : Prop :=
  ∃ s ∈ parts, ∃ before after, IsGap before ∧ IsGap after ∧ u = before ++ (s ++ after)

/-- A part with space around it is one among more parts too. -/
theorem IsSpaced.cons {parts : List Text} {u : Text} (h : IsSpaced parts u) (t : Text) :
    IsSpaced (t :: parts) u := by
  obtain ⟨s, hs, hspace⟩ := h
  exact ⟨s, List.mem_cons_of_mem t hs, hspace⟩

/-- The space behind a comma belongs to the part that comes next. So parts that a layout divides
are parts that commas alone divide, with space around each. -/
theorem exists_intercalate_spaced {gap before after : Text} (hgap : IsGap gap)
    (hbefore : IsGap before) (hafter : IsGap after) (t : Text) (ts : List Text) :
    ∃ us, us ≠ [] ∧ (∀ u ∈ us, IsSpaced (t :: ts) u) ∧
      before ++ ((CodePoint.char ',' :: gap).intercalate (t :: ts) ++ after)
        = [CodePoint.char ','].intercalate us := by
  induction ts generalizing t before with
  | nil =>
      refine ⟨[before ++ (t ++ after)], by simp, ?_, by simp⟩
      intro u hu
      exact ⟨t, List.mem_cons_self, before, after, hbefore, hafter, List.mem_singleton.mp hu⟩
  | cons t' ts ih =>
      -- For the others, the space behind the comma is what stands in front.
      obtain ⟨us, hne, hus, htext⟩ := ih hgap t'
      obtain ⟨u, us, rfl⟩ := List.exists_cons_of_ne_nil hne
      refine ⟨(before ++ (t ++ [])) :: u :: us, by simp, ?_, ?_⟩
      · intro w hw
        rcases List.mem_cons.mp hw with rfl | hw
        · exact ⟨t, List.mem_cons_self, before, [], hbefore, isGap_nil, rfl⟩
        · exact (hus w hw).cons t
      · rw [List.intercalate_cons_cons, List.intercalate_cons_cons, ← htext]
        simp

/-- The same of parts between brackets, where the first space belongs to the first part and the
last one to the last. -/
theorem exists_enclose_eq (layout : Layout) (depth : Nat) (opening closing : CodePoint)
    {parts : List Text} (hne : parts ≠ []) :
    ∃ us, us ≠ [] ∧ (∀ u ∈ us, IsSpaced parts u) ∧
      layout.enclose depth opening closing parts
        = opening :: ([CodePoint.char ','].intercalate us ++ [closing]) := by
  obtain ⟨t, ts, rfl⟩ := List.exists_cons_of_ne_nil hne
  obtain ⟨gap, hgap, hbetween⟩ := exists_between layout depth
  obtain ⟨us, hus, hspaced, htext⟩ := exists_intercalate_spaced hgap (isGap_open layout depth)
    (isGap_close layout depth) t ts
  refine ⟨us, hus, hspaced, ?_⟩
  rw [Layout.enclose, hbetween, ← htext]
  simp

/-- Values between square brackets are a value, an empty list included. -/
theorem isValue_enclose_list (layout : Layout) (depth : Nat) {parts : List Text}
    (h : ∀ t ∈ parts, IsValue t) : IsValue (layout.enclose depth '[' ']' parts) := by
  by_cases hne : parts = []
  · rw [hne]
    exact .emptyArray isGap_nil
  · obtain ⟨us, hus, hspaced, htext⟩ := exists_enclose_eq layout depth '[' ']' hne
    rw [htext]
    apply IsValue.array hus
    intro u hu
    obtain ⟨s, hs, before, after, hbefore, hafter, rfl⟩ := hspaced u hu
    exact .spaced hbefore (h s hs) hafter

/-- A text that names a value, as the writer puts a name in front of it. -/
def IsEntry (t : Text) : Prop :=
  ∃ name s, IsString name ∧ IsValue s ∧ t = name ++ ": " ++ s

/-- Entries between braces are a value, an empty mapping included. -/
theorem isValue_enclose_map (layout : Layout) (depth : Nat) {parts : List Text}
    (h : ∀ t ∈ parts, IsEntry t) : IsValue (layout.enclose depth '\x7b' '\x7d' parts) := by
  by_cases hne : parts = []
  · rw [hne]
    exact .emptyObject isGap_nil
  · obtain ⟨us, hus, hspaced, htext⟩ := exists_enclose_eq layout depth '\x7b' '\x7d' hne
    rw [htext]
    apply IsValue.object hus
    intro u hu
    obtain ⟨t, ht, before, after, hbefore, hafter, rfl⟩ := hspaced u hu
    obtain ⟨name, s, hname, hs, rfl⟩ := h t ht
    have hmember := IsMember.named hbefore hname isGap_nil (.spaced isGap_space hs hafter)
    simpa [Text.ofString] using hmember

/-- A key that has a text is written as a string, even if it is a number. -/
theorem isString_of_keyText {k : Scalar} {name : Text} (h : keyText k = .ok name) :
    IsString name := by
  have hex : ∃ s, name = stringText s := by
    cases k with
    | bool b => cases b <;> exact ⟨_, (Except.ok.inj h).symm⟩
    | int i =>
        rw [keyText] at h
        obtain ⟨s, -, rfl⟩ := exists_of_map_eq_ok h
        exact ⟨s, rfl⟩
    | null | float _ | str _ => exact ⟨_, (Except.ok.inj h).symm⟩
    | bytes _ | date _ | moment _ => cases h
  obtain ⟨s, rfl⟩ := hex
  exact isString_stringText s

/-- A finite scalar that has a text is written as a value of the grammar. -/
theorem isValue_scalarText {s : Scalar} {t : Text} (hfin : (Value.scalar s).isFinite = true)
    (h : scalarText s = .ok t) : IsValue t := by
  cases s with
  | null =>
      obtain rfl := Except.ok.inj h
      exact .word (by decide)
  | bool b =>
      cases b <;>
      · obtain rfl := Except.ok.inj h
        exact .word (by decide)
  | int i =>
      rw [scalarText] at h
      rw [Yaml.eq_intText_of_intText? (Scalar.intText?_of_literal h)]
      exact .number (isNumber_intText i)
  | float x =>
      obtain rfl := Except.ok.inj h
      exact .number (isNumber_floatText numberWords hfin)
  | str _ | bytes _ | date _ | moment _ =>
      simp only [scalarText] at h
      obtain ⟨s, -, rfl⟩ := exists_of_map_eq_ok h
      exact .string (isString_stringText s)

/-- A pair that has a text is written as a list of its two values, one level further down. -/
theorem valueText_pair_eq_ok {layout : Layout} {depth : Nat} {key value : Value} {t : Text}
    (h : valueText layout depth (.pair key value) = .ok t) :
    ∃ first second, valueText layout (depth + 1) key = .ok first ∧
      valueText layout (depth + 1) value = .ok second ∧
      t = layout.enclose depth '[' ']' [first, second] := by
  rw [valueText] at h
  cases hdepth : checkDepth depth with
  | error f => rw [hdepth] at h; exact nomatch h
  | ok _ =>
      cases hfirst : valueText layout (depth + 1) key with
      | error f => rw [hdepth, hfirst] at h; exact nomatch h
      | ok first =>
          cases hsecond : valueText layout (depth + 1) value with
          | error f => rw [hdepth, hfirst, hsecond] at h; exact nomatch h
          | ok second =>
              rw [hdepth, hfirst, hsecond] at h
              exact ⟨first, second, rfl, rfl, (Except.ok.inj h).symm⟩

mutual

/-- What is written for a finite value is a value of the grammar. The induction is on the value,
with one part for items and one for entries. -/
theorem isValue_valueText {layout : Layout} {depth : Nat} {v : Value} {t : Text}
    (hfin : v.isFinite = true) (h : valueText layout depth v = .ok t) : IsValue t := by
  cases v with
  | scalar s =>
      rw [valueText] at h
      exact isValue_scalarText hfin h
  | list items =>
      obtain ⟨-, parts, hparts, rfl⟩ := valueText_list_eq_ok_iff.mp h
      rw [Value.isFinite] at hfin
      exact isValue_enclose_list layout depth (isValue_itemTexts hfin hparts)
  | pair key value =>
      -- An entry of an ordered list is written as a list of two.
      obtain ⟨first, second, hfirst, hsecond, rfl⟩ := valueText_pair_eq_ok h
      rw [Value.isFinite, Bool.and_eq_true] at hfin
      apply isValue_enclose_list layout depth
      intro t ht
      rcases List.mem_pair.mp ht with rfl | rfl
      · exact isValue_valueText hfin.1 hfirst
      · exact isValue_valueText hfin.2 hsecond
  | set members =>
      rw [valueText] at h
      obtain ⟨s, -, rfl⟩ := exists_of_map_eq_ok h
      exact .string (isString_stringText s)
  | map entries =>
      obtain ⟨-, parts, hparts, rfl⟩ := valueText_map_eq_ok_iff.mp h
      rw [Value.isFinite] at hfin
      exact isValue_enclose_map layout depth (isEntry_entryTexts hfin hparts)
  | loop container => exact nomatch h

/-- The texts of the items of a list are values. -/
theorem isValue_itemTexts {layout : Layout} {depth : Nat} {vs : List Value} {parts : List Text}
    (hfin : Value.areFinite vs = true) (h : itemTexts layout depth vs = .ok parts) :
    ∀ t ∈ parts, IsValue t := by
  cases vs with
  | nil =>
      obtain rfl := Except.ok.inj h
      exact nofun
  | cons v vs =>
      obtain ⟨t, ts, ht, hts, rfl⟩ := itemTexts_cons_eq_ok_iff.mp h
      rw [Value.areFinite, Bool.and_eq_true] at hfin
      exact List.forall_mem_cons.mpr
        ⟨isValue_valueText hfin.1 ht, isValue_itemTexts hfin.2 hts⟩

/-- The texts of the entries of a mapping are entries. -/
theorem isEntry_entryTexts {layout : Layout} {depth : Nat} {es : List (Scalar × Value)}
    {parts : List Text} (hfin : Value.haveFinite es = true)
    (h : entryTexts layout depth es = .ok parts) : ∀ t ∈ parts, IsEntry t := by
  cases es with
  | nil =>
      obtain rfl := Except.ok.inj h
      exact nofun
  | cons e es =>
      obtain ⟨k, v⟩ := e
      obtain ⟨name, t, ts, hname, ht, hts, rfl⟩ := entryTexts_cons_eq_ok_iff.mp h
      rw [Value.haveFinite, Bool.and_eq_true] at hfin
      exact List.forall_mem_cons.mpr
        ⟨⟨name, t, isString_of_keyText hname, isValue_valueText hfin.1 ht, rfl⟩,
          isEntry_entryTexts hfin.2 hts⟩

end

/-! ### Words of numbers without digits -/

/-- The words for the infinities and for what is not a number start with a capital, in JSON too. -/
theorem shows_floatText_of_not_isFinite {x : Binary64} (h : ¬ x.isFinite = true) :
    Shows true (floatText numberWords x) := by
  have hword := Yaml.floatText_of_not_isFinite h
  generalize floatText numberWords x = w at hword
  simp only [List.mem_cons, List.not_mem_nil, or_false] at hword
  rcases hword with rfl | rfl | rfl <;> exact .of_forall_ne (by decide)

/-- The text of a scalar has a capital outside strings exactly if the scalar is a number that is
not finite. -/
theorem shows_scalarText {s : Scalar} {t : Text} (h : scalarText s = .ok t) :
    Shows (!(Value.scalar s).isFinite) t := by
  by_cases hfin : (Value.scalar s).isFinite = true
  · rw [hfin]
    exact (isValue_scalarText hfin h).shows
  · cases s with
    | float x =>
        rw [Value.isFinite] at hfin ⊢
        obtain rfl := Except.ok.inj h
        rw [Bool.eq_false_of_not_eq_true hfin]
        exact shows_floatText_of_not_isFinite hfin
    | null | bool _ | int _ | str _ | bytes _ | date _ | moment _ => exact absurd rfl hfin

/-- Brackets and the space of a layout bring no capital. -/
theorem shows_enclose (layout : Layout) (depth : Nat) {opening closing : CodePoint}
    (hopening : opening ∉ ("\"NI" : Text)) (hclosing : closing ∉ ("\"NI" : Text))
    {parts : List Text} {capital : Bool} (h : Shows capital ((layout.between depth).intercalate parts)) :
    Shows capital (layout.enclose depth opening closing parts) := by
  cases parts with
  | nil => exact h.bracket hopening hclosing
  | cons part parts =>
      have hall := ((isGap_open layout depth).shows.append
        (h.append (isGap_close layout depth).shows)).bracket hopening hclosing
      rw [Bool.false_or, Bool.or_false] at hall
      simpa [Layout.enclose] using hall

/-- Nor does what a layout puts between parts. -/
theorem shows_between (layout : Layout) (depth : Nat) : Shows false (layout.between depth) := by
  obtain ⟨gap, hgap, hbetween⟩ := exists_between layout depth
  rw [hbetween]
  exact hgap.shows.cons (by decide)

mutual

/-- What is written for a value has a capital outside strings if the value is not finite, and none
if it is. The capital is what tells such a text from JSON. -/
theorem shows_valueText {layout : Layout} {depth : Nat} {v : Value} {t : Text}
    (h : valueText layout depth v = .ok t) : Shows (!v.isFinite) t := by
  cases v with
  | scalar s =>
      rw [valueText] at h
      exact shows_scalarText h
  | list items =>
      obtain ⟨-, parts, hparts, rfl⟩ := valueText_list_eq_ok_iff.mp h
      rw [Value.isFinite]
      exact shows_enclose layout depth (by decide) (by decide)
        (shows_itemTexts (shows_between layout depth) hparts)
  -- A pair has two parts, written like the items of a list.
  | pair key value =>
      obtain ⟨first, second, hfirst, hsecond, rfl⟩ := valueText_pair_eq_ok h
      rw [Value.isFinite, Bool.not_and]
      apply shows_enclose layout depth (by decide) (by decide)
      apply (shows_between layout depth).intercalate (shows_valueText hfirst)
      rw [List.intercalate_singleton]
      exact shows_valueText hsecond
  | set members =>
      rw [valueText] at h
      obtain ⟨s, -, rfl⟩ := exists_of_map_eq_ok h
      exact (isString_stringText s).shows
  | map entries =>
      obtain ⟨-, parts, hparts, rfl⟩ := valueText_map_eq_ok_iff.mp h
      rw [Value.isFinite]
      exact shows_enclose layout depth (by decide) (by decide)
        (shows_entryTexts (shows_between layout depth) hparts)
  | loop container => exact nomatch h

/-- The same of the items of a list, joined by what has no capital. -/
theorem shows_itemTexts {layout : Layout} {depth : Nat} {vs : List Value} {parts : List Text}
    {sep : Text} (hsep : Shows false sep) (h : itemTexts layout depth vs = .ok parts) :
    Shows (!Value.areFinite vs) (sep.intercalate parts) := by
  cases vs with
  | nil =>
      obtain rfl := Except.ok.inj h
      exact .nil
  | cons v vs =>
      obtain ⟨t, ts, ht, hts, rfl⟩ := itemTexts_cons_eq_ok_iff.mp h
      rw [Value.areFinite, Bool.not_and]
      exact hsep.intercalate (shows_valueText ht) (shows_itemTexts hsep hts)

/-- The same of the entries of a mapping, whose names are strings. -/
theorem shows_entryTexts {layout : Layout} {depth : Nat} {es : List (Scalar × Value)}
    {parts : List Text} {sep : Text} (hsep : Shows false sep)
    (h : entryTexts layout depth es = .ok parts) :
    Shows (!Value.haveFinite es) (sep.intercalate parts) := by
  cases es with
  | nil =>
      obtain rfl := Except.ok.inj h
      exact .nil
  | cons e es =>
      obtain ⟨k, v⟩ := e
      obtain ⟨name, t, ts, hname, ht, hts, rfl⟩ := entryTexts_cons_eq_ok_iff.mp h
      rw [Value.haveFinite, Bool.not_and]
      have hcolon : Shows false (": " : Text) := isGap_space.shows.cons (by decide)
      have hentry : Shows (!v.isFinite) (name ++ ": " ++ t) :=
        ((isString_of_keyText hname).shows.append hcolon).append (shows_valueText ht)
      exact hsep.intercalate hentry (shows_entryTexts hsep hts)

end

/-- What is written for a value is JSON just if the value is finite: the grammar has no capital
outside strings, and a number that is not finite brings one. -/
theorem isJsonText_iff_of_write {layout : Layout} {v : Value} {t : Text}
    (h : write layout v = .ok t) : IsJsonText t ↔ v.isFinite = true := by
  constructor
  · intro htext
    have hseen : (!v.isFinite) = false :=
      (shows_valueText h).any_bare.symm.trans htext.shows.any_bare
    rwa [Bool.not_eq_eq_eq_not] at hseen
  · intro hfin
    have htext := IsJsonText.spaced isGap_nil (isValue_valueText hfin h) isGap_nil
    rwa [List.nil_append, List.append_nil] at htext

end Json

/-! ### Files -/

namespace Text

/-- Characters are encoded one by one, and none of them fails. -/
theorem mapM_utf8?_map_char (cs : List Char) :
    (cs.map CodePoint.char).mapM CodePoint.utf8? = some (cs.map String.utf8EncodeChar) := by
  induction cs with
  | nil => rfl
  | cons c cs ih =>
      rw [List.map_cons, List.mapM_cons, ih]
      rfl

/-- The UTF-8 form of characters is that of a string of the core library. -/
theorem utf8?_map_char (cs : List Char) :
    utf8? (cs.map .char) = some (cs.flatMap String.utf8EncodeChar) := by
  rw [utf8?, mapM_utf8?_map_char]
  rfl

/-- The UTF-8 form of a text is read back as the text. So what holds of the text holds of
the file. -/
theorem ofUtf8?_of_utf8? {s : Text} {bytes : List UInt8} (h : s.utf8? = some bytes) :
    ofUtf8? bytes = some s := by
  have hplain : IsPlain s := (isSome_utf8?_iff s).mp (by rw [h]; rfl)
  obtain ⟨cs, rfl⟩ : s ∈ Set.range (List.map CodePoint.char) := by
    rw [Set.range_list_map]
    intro c hc
    obtain ⟨ch, rfl⟩ := hplain c hc
    exact ⟨ch, rfl⟩
  rw [utf8?_map_char] at h
  have hbytes : (⟨bytes.toArray⟩ : ByteArray) = cs.utf8Encode := by
    rw [← Option.some.inj h, List.utf8Encode]
    ext1
    simp
  rw [ofUtf8?, hbytes, String.fromUTF8?, dif_pos ByteArray.isValidUTF8_utf8Encode]
  show some (ofString (String.ofList cs)) = _
  rw [ofString, String.toList_ofList]

end Text

namespace Cli

open Json FileTree

/-- Whether a file with these bytes is a JSON text. -/
def IsJsonFile (bytes : List UInt8) : Prop := ∃ text, ofUtf8? bytes = some text ∧ IsJsonText text

/-- The file of a text that can be encoded is a JSON file if the text is JSON. -/
theorem isJsonFile_iff {text : Text} {bytes : List UInt8} (h : text.utf8? = some bytes) :
    IsJsonFile bytes ↔ IsJsonText text := by
  rw [IsJsonFile, ofUtf8?_of_utf8? h]
  simp

/-- The file of a document is a JSON file exactly if the document is finite. -/
theorem isJsonFile_iff_of_documentBytes {d : Value} {bytes : List UInt8}
    (h : documentBytes d = .ok bytes) : IsJsonFile bytes ↔ d.isFinite = true := by
  rw [documentBytes] at h
  cases hwrite : Json.write (.indented 2) d with
  | error f =>
      rw [hwrite] at h
      cases h
  | ok text =>
      rw [hwrite] at h
      simp only [bind, Except.bind] at h
      cases hbytes : text.utf8? with
      | none =>
          rw [hbytes] at h
          cases h
      | some encoded =>
          rw [hbytes] at h
          obtain rfl := Except.ok.inj h
          rw [isJsonFile_iff hbytes, isJsonText_iff_of_write hwrite]

/-- The file that a successful run leaves is JSON just if all numbers of the document are finite. -/
theorem run_isJsonFile_iff {σ : Type} [RandomSource σ] (env : Environment σ) (args : List Text)
    (p : Parsed) (hargs : Command.parse? args = some (.generate p)) (t u : FileTree) (o : Outcome)
    (h : (run env args : StateM FileTree Outcome).run t = (o, u)) (hcode : o.exitCode = 0) :
    ∃ s : Saving env p t, s.Placed u ∧ (IsJsonFile s.bytes ↔ s.document.isFinite = true) := by
  obtain ⟨hfailed, -⟩ | ⟨s, hplaced, -⟩ := run_generate_cases hargs h
  · exact absurd hcode hfailed
  · exact ⟨s, hplaced, isJsonFile_iff_of_documentBytes s.bytes_eq⟩

/-- A directory with an empty manifest, and settings with a licence whose version is no number. -/
def nanFolder : FileTree := folder [("m.yaml", "[]"), ("s.yaml", "license: \x7bversion: .nan\x7d\n")]

/-- A run in that directory. -/
def nanRun : Outcome × FileTree :=
  (run stillWorld ["generate", "m.yaml", "-c", "s.yaml"] : StateM FileTree Outcome).run nanFolder

/-- The run succeeds, and its file has a capital outside strings. -/
theorem nanRun_shows : nanRun.1.exitCode = 0 ∧
    ∃ bytes, nanRun.2.fileAt? ⟨0, ["docs", "openapi.json"]⟩ = some bytes ∧
      ∃ text : Text, text.utf8? = some bytes ∧ (bare .outside text).any isCapital = true := by
  -- All bytes of the file are ASCII, so each is a character.
  have hrun : nanRun.1.exitCode = 0 ∧
      (nanRun.2.fileAt? ⟨0, ["docs", "openapi.json"]⟩).any (fun bytes =>
        let text : Text := bytes.map fun b => .char (Char.ofNat b.toNat)
        text.utf8? = some bytes && (bare .outside text).any isCapital) = true := by
    decide +kernel
  refine ⟨hrun.1, ?_⟩
  obtain ⟨bytes, hfile, hbytes⟩ := (Option.any_eq_true _ _).mp hrun.2
  rw [Bool.and_eq_true, decide_eq_true_iff] at hbytes
  exact ⟨bytes, hfile, _, hbytes⟩

/-- Whether its file is JSON depends on its document. -/
theorem isJsonFile_iff_nanRun : nanRun.1.exitCode = 0 ∧
    ∃ s : Saving stillWorld ⟨[(.config, "s.yaml")], ["m.yaml"]⟩ nanFolder,
      s.Placed nanRun.2 ∧ (IsJsonFile s.bytes ↔ s.document.isFinite = true) :=
  ⟨nanRun_shows.1, run_isJsonFile_iff stillWorld ["generate", "m.yaml", "-c", "s.yaml"] _ (by decide)
    nanFolder nanRun.2 nanRun.1 (Prod.eta nanRun).symm nanRun_shows.1⟩

/-- The file that it leaves is not JSON. -/
theorem not_isJsonFile_nanRun : nanRun.1.exitCode = 0 ∧
    ∃ bytes, nanRun.2.fileAt? ⟨0, ["docs", "openapi.json"]⟩ = some bytes ∧ ¬ IsJsonFile bytes := by
  obtain ⟨hcode, bytes, hfile, text, hbytes, hcapital⟩ := nanRun_shows
  refine ⟨hcode, bytes, hfile, ?_⟩
  intro hjson
  have hseen := ((isJsonFile_iff hbytes).mp hjson).shows.any_bare
  exact Bool.false_ne_true (hseen.symm.trans hcapital)

end Cli

end RouteDocs
