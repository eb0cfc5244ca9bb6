import RouteDocs.Json.Writer
import RouteDocs.Text.Percent
import RouteDocs.Proofs.Draws
import RouteDocs.Proofs.ShownValues

/-!
# `RouteDocs.Proofs.PlainText`: text that can be encoded

A text is plain when it holds characters only, and no surrogate. Plain texts have a UTF-8
form. Numbers and moments are written as plain texts, and so is every JSON text, as it
escapes whatever is not ASCII.

The second half is about values that are alike. Where a text of one can be had, a text of
the other can be had too, as a literal, as a display text and as JSON, and the failures are
the same.
-/

set_option autoImplicit false

namespace RouteDocs

open Number

namespace Text

/-- Whether a text holds characters only. A text of the program may hold surrogates too, which no
encoding has a form for. -/
def IsPlain (s : Text) : Prop := ∀ c ∈ s, ∃ ch : Char, c = .char ch

/-- The empty text is plain. -/
@[simp] theorem isPlain_nil : IsPlain [] := by simp [IsPlain]

/-- A character in front of a text leaves it plain or not, as it was. -/
@[simp] theorem isPlain_cons_char (c : Char) (s : Text) : IsPlain (.char c :: s) ↔ IsPlain s := by
  simp [IsPlain]

/-- Two texts in a row are plain when each of them is. -/
@[simp] theorem isPlain_append (s t : Text) : IsPlain (s ++ t) ↔ IsPlain s ∧ IsPlain t := by
  simp only [IsPlain, List.forall_mem_append]

/-- Texts that the program itself holds are plain: a literal has no surrogates. -/
@[simp] theorem isPlain_ofString (s : String) : IsPlain (Text.ofString s) := by
  simp [IsPlain, ofString]

/-- A text with no code points but those of a plain text is plain. So are its parts, its reversal
and whatever is left of it by trimming. -/
theorem IsPlain.of_subset {s t : Text} (h : IsPlain t) (hst : ∀ c ∈ s, c ∈ t) : IsPlain s :=
  fun c hc => h c (hst c hc)

/-- A text put together from plain pieces, one for each item, is plain. -/
theorem isPlain_flatMap {α : Type} {f : α → Text} (h : ∀ a, IsPlain (f a)) (xs : List α) :
    IsPlain (xs.flatMap f) := by
  intro c hc
  obtain ⟨a, -, hc⟩ := List.mem_flatMap.mp hc
  exact h a c hc

/-- One character many times over is a plain text. Indentation and leading zeros are of
this form. -/
theorem isPlain_replicate (n : Nat) (c : Char) : IsPlain (List.replicate n (.char c)) := by
  intro d hd
  exact ⟨c, List.eq_of_mem_replicate hd⟩

/-- What holds of the code points of the parts, and of those that divide them, holds of all code
points of the whole. Both texts that are plain and texts within a range of characters are joined
this way. -/
theorem forall_mem_intercalate {P : CodePoint → Prop} {sep : Text} (hsep : ∀ c ∈ sep, P c)
    {parts : List Text} (h : ∀ part ∈ parts, ∀ c ∈ part, P c) :
    ∀ c ∈ sep.intercalate parts, P c := by
  induction parts with
  | nil => simp
  | cons part parts ih =>
      rw [List.forall_mem_cons] at h
      cases parts with
      | nil => simpa using h.1
      | cons next parts =>
          rw [List.intercalate_cons_cons]
          simp only [List.forall_mem_append]
          exact ⟨⟨h.1, hsep⟩, ih h.2⟩

/-- Plain parts with a plain divider between them make a plain text. -/
theorem isPlain_intercalate {sep : Text} (hsep : IsPlain sep) {parts : List Text}
    (h : ∀ part ∈ parts, IsPlain part) : IsPlain (sep.intercalate parts) :=
  forall_mem_intercalate hsep h

/-- A plain text has a UTF-8 form, and a text with a surrogate has none. This is the condition on
which a file can be written and a text can be encoded for an address. -/
theorem isSome_utf8?_iff (s : Text) : s.utf8?.isSome = true ↔ IsPlain s := by
  rw [utf8?, Option.isSome_map]
  induction s with
  | nil => simp
  | cons c s ih =>
      rw [List.mapM_cons]
      cases c with
      -- One surrogate is enough for there to be no form.
      | surrogate offset => simp [CodePoint.utf8?, IsPlain]
      | char ch =>
          rw [isPlain_cons_char, ← ih]
          cases s.mapM CodePoint.utf8? <;> simp [CodePoint.utf8?]

/-- The direction of `isSome_utf8?_iff` by which the writer cannot fail. -/
theorem isSome_utf8?_of_isPlain {s : Text} (h : IsPlain s) : s.utf8?.isSome = true :=
  (isSome_utf8?_iff s).mpr h

/-! ### Hexadecimal and decimal digits -/

/-- A code point below the surrogates is a character. -/
theorem isPlain_ofNat {n : Nat} (h : n < 0xd800) : IsPlain [CodePoint.ofNat n] := by
  intro c hc
  rw [List.mem_singleton.mp hc, CodePoint.ofNat, dif_neg (by omega)]
  exact ⟨_, rfl⟩

/-- A number in hexadecimal digits is a plain text, for any number of places. -/
theorem isPlain_toHex (places n : Nat) : IsPlain (toHex places n) := by
  induction places generalizing n with
  | zero => simp [toHex]
  | succ places ih =>
      rw [toHex, isPlain_append]
      refine ⟨ih _, ?_⟩
      unfold hexDigit
      split <;> exact isPlain_ofNat (by omega)

end Text

open Text

/-- A number in decimal digits is a plain text. -/
@[simp] theorem isPlain_natText (n : Nat) : IsPlain (natText n) := by
  simp [IsPlain, natText]

/-- A row of zeros is a plain text. -/
@[simp] theorem isPlain_zeros (n : Nat) : IsPlain (zeros n) := isPlain_replicate n '0'

/-- A number with zeros in front, as the parts of a moment are written, is a plain text. -/
@[simp] theorem isPlain_padded (width n : Nat) : IsPlain (padded width n) := by
  simp [padded]

/-- A whole number with its sign is a plain text. -/
theorem isPlain_intText (i : Int) : IsPlain (intText i) := by
  unfold intText
  split <;> simp

/-- So it is where the number of digits is limited: the text, if there is one, is the same. -/
theorem isPlain_of_intText? {i : Int} {t : Text} (h : intText? i = some t) : IsPlain t := by
  rw [intText?] at h
  by_cases hi : i.natAbs < Nat.pow 10 maxDigits
  · rw [if_pos hi] at h
    exact Option.some.inj h ▸ isPlain_intText i
  · rw [if_neg hi] at h
    exact nomatch h

/-- The literal of a whole number is its decimal text, and so obeys the same limit of digits. -/
theorem Scalar.intText?_of_literal {i : Int} {t : Text} (h : Scalar.literal (.int i) = .ok t) :
    intText? i = some t := by
  rw [Scalar.literal_int] at h
  cases hi : intText? i with
  | none =>
      rw [hi] at h
      exact nomatch h
  | some shown =>
      rw [hi] at h
      exact congrArg some (Except.ok.inj h)

/-- The literal of a whole number is a plain text, if there is one. -/
theorem isPlain_of_intLiteral {i : Int} {t : Text} (h : Scalar.literal (.int i) = .ok t) :
    IsPlain t :=
  isPlain_of_intText? (Scalar.intText?_of_literal h)

/-- A number in decimal notation is a plain text, with an exponent or without. -/
theorem isPlain_decimalText (d : Binary64.Decimal) : IsPlain (decimalText d) := by
  have hdigits : IsPlain (natText d.digits) := isPlain_natText _
  have htake : ∀ n, IsPlain ((natText d.digits).take n) := fun n =>
    hdigits.of_subset fun _ => List.mem_of_mem_take
  have hdrop : ∀ n, IsPlain ((natText d.digits).drop n) := fun n =>
    hdigits.of_subset fun _ => List.mem_of_mem_drop
  -- The digits stand around a point, or in front of an exponent.
  unfold decimalText
  dsimp only
  split
  · split <;> split <;> simp [htake, hdrop, -List.drop_one]
  · split
    · simp
    · split <;> simp [htake, hdrop]

/-- When the words for the infinities and for what is not a number are plain, so is every number
written with them. -/
theorem isPlain_floatText {words : Words} (hinf : IsPlain words.infinity) (hnan : IsPlain words.nan)
    (x : Binary64) : IsPlain (floatText words x) := by
  have hmagnitude : IsPlain
      (if x.isInfinite then words.infinity
        else if x.isZero then "0.0"
        else decimalText (Binary64.shortest x.rank)) := by
    split
    · exact hinf
    · split
      · simp
      · exact isPlain_decimalText _
  -- A sign is put in front of whatever the magnitude is.
  unfold floatText
  dsimp only
  split
  · exact hnan
  · split
    · rw [isPlain_append]
      exact ⟨isPlain_ofString _, hmagnitude⟩
    · exact hmagnitude

namespace Json

/-- A code point is written in JSON as a character or as an escape, which is in ASCII. A surrogate
is always escaped. -/
theorem isPlain_charText (c : CodePoint) : IsPlain (charText c) := by
  have hunits : IsPlain ((units16 c).flatMap fun unit => "\\u" ++ toHex 4 unit) :=
    isPlain_flatMap (fun unit => by simp [isPlain_toHex]) _
  unfold charText
  -- Seven code points have escapes of their own.
  iterate 7
    split
    · simp
  split
  · -- A printable ASCII character stands for itself.
    rename_i h
    cases c with
    | char ch => simp
    | surrogate offset =>
        rw [Bool.and_eq_true, decide_eq_true_iff, decide_eq_true_iff] at h
        exact absurd h.2 (by simp only [CodePoint.toNat]; omega)
  · exact hunits

/-- Whatever a text holds, its JSON form is plain. So JSON can be encoded even where the text it
is made from cannot. -/
theorem isPlain_stringText (s : Text) : IsPlain (stringText s) := by
  simp [stringText, isPlain_flatMap isPlain_charText]

/-- A number in JSON is a plain text, the words for the infinities included. -/
theorem isPlain_numberText (x : Binary64) : IsPlain (floatText numberWords x) :=
  isPlain_floatText (isPlain_ofString _) (isPlain_ofString _) x

/-- The JSON text of a scalar is plain, if the scalar has one. -/
theorem isPlain_of_scalarText {s : Scalar} {t : Text} (h : scalarText s = .ok t) : IsPlain t := by
  cases s with
  | null =>
      cases h
      simp
  | bool b => cases b <;> cases h <;> simp
  | int i =>
      simp only [scalarText] at h
      exact isPlain_of_intLiteral h
  | float x =>
      cases h
      exact isPlain_numberText x
  | str _ | bytes _ | date _ | moment _ =>
      simp only [scalarText] at h
      obtain ⟨shown, -, rfl⟩ := exists_of_map_eq_ok h
      exact isPlain_stringText shown

/-- The JSON text of a key is plain, if the key has one. -/
theorem isPlain_of_keyText {s : Scalar} {t : Text} (h : keyText s = .ok t) : IsPlain t := by
  cases s with
  | bool b => cases b <;> cases h <;> exact isPlain_stringText _
  | int i =>
      simp only [keyText] at h
      obtain ⟨shown, -, rfl⟩ := exists_of_map_eq_ok h
      exact isPlain_stringText shown
  | bytes _ | date _ | moment _ => cases h
  | _ =>
      cases h
      exact isPlain_stringText _

/-- Plain parts between brackets are plain, at any depth and in any layout: brackets, commas, line
feeds and indentation are all characters. -/
theorem Layout.isPlain_enclose (layout : Layout) (depth : Nat) (opening closing : Char)
    {parts : List Text} (h : ∀ part ∈ parts, IsPlain part) :
    IsPlain (layout.enclose depth opening closing parts) := by
  have hopen : IsPlain (layout.open_ depth) := by
    cases layout <;> simp [open_, isPlain_replicate]
  have hbetween : IsPlain (layout.between depth) := by
    cases layout with
    | compact => simp [between]
    | indented width =>
        rw [between, isPlain_append]
        exact ⟨isPlain_ofString _, hopen⟩
  have hclose : IsPlain (layout.close depth) := by
    cases layout <;> simp [close, isPlain_replicate]
  cases parts with
  | nil => simp [enclose]
  | cons part parts =>
      simp [enclose, hopen, hclose, isPlain_intercalate hbetween h]

end Json

/-! ### Scalars that can be written -/

/-- A scalar that has a text of every kind: a whole number of few digits, a plain text, or one
that is written with words or digits anyway. -/
inductive Scalar.IsWritable : Scalar → Prop where
  | null : IsWritable .null
  | bool (b : Bool) : IsWritable (.bool b)
  | int {i : Int} (h : i.natAbs < 100) : IsWritable (.int i)
  | float (x : Binary64) : IsWritable (.float x)
  | str {s : Text} (h : IsPlain s) : IsWritable (.str s)

/-- A number of not too many digits has a text. -/
theorem intText?_of_natAbs_lt {i : Int} {n : Nat} (h : i.natAbs < Nat.pow 10 n)
    (hn : n ≤ maxDigits) : intText? i = some (intText i) := by
  -- The bound is kept abstract, as it is a number of thousands of digits.
  have hbound : ∀ k, n ≤ k → Nat.pow 10 n ≤ Nat.pow 10 k := fun _ =>
    Nat.pow_le_pow_right (by decide)
  rw [intText?, if_pos (Nat.lt_of_lt_of_le h (hbound maxDigits hn))]

namespace Scalar.IsWritable

variable {s : Scalar}

/-- Every writable scalar has a literal. -/
theorem exists_literal (h : s.IsWritable) : ∃ shown, s.literal = .ok shown := by
  cases h with
  | @int i hi =>
      refine ⟨intText i, ?_⟩
      have hbound : Nat.pow 10 2 = 100 := rfl
      rw [Scalar.literal_int, intText?_of_natAbs_lt (n := 2) (by omega) (by decide)]
      rfl
  | bool b => cases b <;> exact ⟨_, rfl⟩
  | _ => exact ⟨_, rfl⟩

/-- Every writable scalar has a JSON text. -/
theorem exists_scalarText (h : s.IsWritable) : ∃ shown, Json.scalarText s = .ok shown := by
  have hliteral := h.exists_literal
  cases h with
  | int _ => exact hliteral
  | bool b => cases b <;> exact ⟨_, rfl⟩
  | _ => exact ⟨_, rfl⟩

end Scalar.IsWritable

namespace Synthesis

end Synthesis

/-! ### Values that are alike -/

section
variable {D G : Scalar → Scalar → Prop}

/-- Whatever the relation of drawn leaves relates can be written. Every result about values that
are alike needs this of `D`, as a failure to write must not depend on the draws. -/
def AllWritable (D : Scalar → Scalar → Prop) : Prop := ∀ s t, D s t → s.IsWritable ∧ t.IsWritable

/-- Scalars at one place of values that are alike both have a literal, or fail by the same fault:
drawn ones have a literal anyway, and given ones are the same. -/
theorem agree_scalarLiteral (hD : AllWritable D) {s t : Scalar} (h : Place.sample.Leaf D G s t) :
    Agree (fun _ _ => True) s.literal t.literal := by
  rcases h with rfl | h
  · exact .refl (fun _ => trivial) _
  · obtain ⟨hs, ht⟩ := hD s t h
    obtain ⟨a, ha⟩ := hs.exists_literal
    obtain ⟨b, hb⟩ := ht.exists_literal
    rw [ha, hb]
    exact .ok trivial

mutual

/-- Values that are alike both have a literal in some room, or fail to have one by the same fault.
They have the same shape, and so they leave the room at the same place. -/
theorem agree_literalWithin (hD : AllWritable D) (room : Nat) : (v w : Value) →
    Alike D G .sample v w → Agree (fun _ _ => True) (v.literalWithin room) (w.literalWithin room)
  -- Only scalars can be different, and the walk does not look at what they are.
  | .scalar s, _, h => by
    cases h with
    | scalar h =>
        simp only [Value.literalWithin]
        exact agree_scalarLiteral hD h
  | .list vs, _, h => by
    cases h with
    | list h =>
        simp only [Value.literalWithin]
        exact (agree_literalItems hD room vs _ h).bind fun _ _ _ => .ok trivial
  | .map es, _, h => by
    cases h with
    | map h =>
        simp only [Value.literalWithin]
        exact (agree_literalEntries hD room es _ h).bind fun _ _ _ => .ok trivial
  | .pair _ _, _, h => by
    cases h
    exact .refl (fun _ => trivial) _
  | .set _, _, h => by
    cases h
    exact .refl (fun _ => trivial) _
  | .loop _, _, h => by
    cases h
    exact .refl (fun _ => trivial) _

/-- The same of the items of a list. The room shrinks along the list, so the step is on both the
room and the items. -/
theorem agree_literalItems (hD : AllWritable D) : (room : Nat) → (vs ws : List Value) →
    AlikeItems D G .sample vs ws →
    Agree (fun _ _ => True) (Value.literalItems room vs) (Value.literalItems room ws)
  | _, [], _, h => by
    cases h
    exact .refl (fun _ => trivial) _
  | 0, _ :: _, _, h => by
    cases h
    exact .error _
  | room + 1, v :: vs, _, h => by
    cases h with
    | cons h hs =>
        refine (agree_literalWithin hD room v _ h).bind fun _ _ _ => ?_
        exact (agree_literalItems hD (room + 1) vs _ hs).bind fun _ _ _ => .ok trivial

/-- The same of the entries of a mapping, whose keys are the same in both. -/
theorem agree_literalEntries (hD : AllWritable D) : (room : Nat) → (es fs : List (Scalar × Value)) →
    AlikeEntries D G .sample es fs →
    Agree (fun _ _ => True) (Value.literalEntries room es) (Value.literalEntries room fs)
  | _, [], _, h => by
    cases h
    exact .refl (fun _ => trivial) _
  | 0, _ :: _, _, h => by
    cases h
    exact .error _
  | room + 1, (k, v) :: es, _, h => by
    cases h with
    | cons h hs =>
        refine (Agree.same k.literal).bind fun _ _ _ => ?_
        refine (agree_literalWithin hD room v _ h).bind fun _ _ _ => ?_
        exact (agree_literalEntries hD (room + 1) es _ hs).bind fun _ _ _ => .ok trivial

end

namespace Json

/-- Scalars at one place of values that are alike both have a JSON text, a plain one, or fail by
the same fault. -/
theorem agree_scalarText (hD : AllWritable D) {s t : Scalar} (h : Place.sample.Leaf D G s t) :
    Agree (fun a b => IsPlain a ∧ IsPlain b) (scalarText s) (scalarText t) := by
  -- Both are written or neither is, and whatever is written is plain.
  have hsucceed : Agree (fun _ _ => True) (scalarText s) (scalarText t) := by
    rcases h with rfl | h
    · exact .refl (fun _ => trivial) _
    · obtain ⟨a, ha⟩ := (hD s t h).1.exists_scalarText
      obtain ⟨b, hb⟩ := (hD s t h).2.exists_scalarText
      rw [ha, hb]
      exact .ok trivial
  cases hs : scalarText s with
  | error f =>
      rw [hs] at hsucceed
      rw [hsucceed.eq_of_error]
      exact .error f
  | ok a =>
      rw [hs] at hsucceed
      obtain ⟨b, hb, -⟩ := hsucceed.exists_of_ok
      rw [hb]
      exact .ok ⟨isPlain_of_scalarText hs, isPlain_of_scalarText hb⟩

/-- A key has a plain text, if it has one. Keys are the same in values that are alike, so this is
of one key. -/
theorem agree_keyText (k : Scalar) :
    Agree (fun a b => IsPlain a ∧ IsPlain b) (keyText k) (keyText k) := by
  cases hk : keyText k with
  | error f => exact .error f
  | ok a => exact .ok ⟨isPlain_of_keyText hk, isPlain_of_keyText hk⟩

/-- An entry is written plainly, if its name and its value are. -/
theorem isPlain_entry {name value : Text} (hname : IsPlain name) (hvalue : IsPlain value) :
    IsPlain (name ++ ": " ++ value) := by
  simp [hname, hvalue]

/-- The parts of two texts, all plain. The parts need not be the same, nor of one length. -/
abbrev PlainParts (ps qs : List Text) : Prop := (∀ p ∈ ps, IsPlain p) ∧ ∀ q ∈ qs, IsPlain q

/-- One plain part more in front of each of two texts. -/
theorem PlainParts.cons {p q : Text} {ps qs : List Text} (h : IsPlain p ∧ IsPlain q)
    (hs : PlainParts ps qs) : PlainParts (p :: ps) (q :: qs) :=
  ⟨List.forall_mem_cons.mpr ⟨h.1, hs.1⟩, List.forall_mem_cons.mpr ⟨h.2, hs.2⟩⟩

mutual

/-- Values that are alike both have a JSON text, a plain one, or fail by the same fault. The
faults are those of depth and of a scalar without a text, and both are at the same place in both
values. -/
theorem agree_valueText (hD : AllWritable D) (layout : Layout) (depth : Nat) :
    (v w : Value) → Alike D G .sample v w →
    Agree (fun a b => IsPlain a ∧ IsPlain b) (valueText layout depth v) (valueText layout depth w)
  | .scalar s, _, h => by
    cases h with
    | scalar h => exact agree_scalarText hD h
  | .list vs, _, h => by
    cases h with
    | list h =>
        refine (Agree.same (checkDepth depth)).bind fun _ _ _ => ?_
        refine (agree_itemTexts hD layout (depth + 1) vs _ h).bind fun ps qs hpq => ?_
        exact .ok ⟨layout.isPlain_enclose depth _ _ hpq.1, layout.isPlain_enclose depth _ _ hpq.2⟩
  | .pair key value, _, h => by
    cases h
    refine (Agree.same (checkDepth depth)).bind fun _ _ _ => ?_
    refine (agree_valueText hD layout (depth + 1) key _ (.refl .sample _)).bind fun p q hpq => ?_
    refine (agree_valueText hD layout (depth + 1) value _ (.refl .sample _)).bind
      fun p' q' hpq' => ?_
    have hparts : PlainParts [p, p'] [q, q'] := .cons hpq (.cons hpq' ⟨by simp, by simp⟩)
    exact .ok ⟨layout.isPlain_enclose depth _ _ hparts.1, layout.isPlain_enclose depth _ _ hparts.2⟩
  | .set members, _, h => by
    cases h
    exact (Agree.same _).map fun _ _ _ => ⟨isPlain_stringText _, isPlain_stringText _⟩
  | .map es, _, h => by
    cases h with
    | map h =>
        refine (Agree.same (checkDepth depth)).bind fun _ _ _ => ?_
        refine (agree_entryTexts hD layout (depth + 1) es _ h).bind fun ps qs hpq => ?_
        exact .ok ⟨layout.isPlain_enclose depth _ _ hpq.1, layout.isPlain_enclose depth _ _ hpq.2⟩
  | .loop _, _, h => by
    cases h
    exact .error Fault.badValue

/-- The same of the items of a list, whose texts are the parts to be enclosed. -/
theorem agree_itemTexts (hD : AllWritable D) (layout : Layout) (depth : Nat) :
    (vs ws : List Value) → AlikeItems D G .sample vs ws →
    Agree PlainParts (itemTexts layout depth vs) (itemTexts layout depth ws)
  | [], _, h => by
    cases h
    exact .ok ⟨by simp, by simp⟩
  | v :: vs, _, h => by
    cases h with
    | cons h hs =>
        refine (agree_valueText hD layout depth v _ h).bind fun p q hpq => ?_
        refine (agree_itemTexts hD layout depth vs _ hs).bind fun ps qs hpqs => ?_
        exact .ok (.cons hpq hpqs)

/-- The same of the entries of a mapping, name and value together. -/
theorem agree_entryTexts (hD : AllWritable D) (layout : Layout) (depth : Nat) :
    (es fs : List (Scalar × Value)) → AlikeEntries D G .sample es fs →
    Agree PlainParts (entryTexts layout depth es) (entryTexts layout depth fs)
  | [], _, h => by
    cases h
    exact .ok ⟨by simp, by simp⟩
  | (k, v) :: es, _, h => by
    cases h with
    | cons h hs =>
        refine (agree_keyText k).bind fun name name' hname => ?_
        refine (agree_valueText hD layout depth v _ h).bind fun p q hpq => ?_
        refine (agree_entryTexts hD layout depth es _ hs).bind fun ps qs hpqs => ?_
        exact .ok (.cons ⟨isPlain_entry hname.1 hpq.1, isPlain_entry hname.2 hpq.2⟩ hpqs)

end

end Json

end

end RouteDocs
