import RouteDocs.Json.Reader
import RouteDocs.Proofs.FloatText

/-!
# `RouteDocs.Proofs.JsonGrammar`: the grammar of JSON

`IsJsonText` is the grammar, with one predicate for each of its rules. A text is a value with space
around it, and so is an element of an array.

`bare` gives the characters of a text that stand outside strings. No text of the grammar has a
capital `N` or `I` there (`IsJsonText.shows`), so a word like `NaN` is enough to see that a text
does not follow it.
-/

set_option autoImplicit false

namespace RouteDocs.Json

open Text Number

/-! ### The rules -/

/-- Space between the parts of a text. -/
def IsGap (s : Text) : Prop := ∀ c ∈ s, isSpace c = true

/-- The whole part of a number. -/
inductive IsWhole : Text → Prop where
  /-- Zero alone. -/
  | zero : IsWhole [.char '0']
  /-- Digits that do not start with zero. -/
  | digits {d : CodePoint} {ds : Text} (hd : d.isDigit = true) (hzero : d ≠ .char '0')
      (hds : AreDigits ds) : IsWhole (d :: ds)

/-- The fraction of a number. -/
inductive IsFraction : Text → Prop where
  /-- No fraction. -/
  | absent : IsFraction []
  /-- A point and digits. -/
  | digits {ds : Text} (hds : AreDigits ds) (hne : ds ≠ []) : IsFraction (.char '.' :: ds)

/-- The exponent of a number. -/
inductive IsExponent : Text → Prop where
  /-- No exponent. -/
  | absent : IsExponent []
  /-- A mark, a sign or none, and digits. -/
  | digits {mark : CodePoint} (hmark : mark = .char 'e' ∨ mark = .char 'E') {sign ds : Text}
      (hsign : sign ∈ [([] : Text), "+", "-"]) (hds : AreDigits ds) (hne : ds ≠ []) :
      IsExponent (mark :: (sign ++ ds))

/-- A number. -/
inductive IsNumber : Text → Prop where
  /-- A minus or none, and the three parts. -/
  | parts (negative : Bool) {whole fraction exponent : Text} (hwhole : IsWhole whole)
      (hfraction : IsFraction fraction) (hexponent : IsExponent exponent) :
      IsNumber (signed negative (whole ++ (fraction ++ exponent)))

/-- The characters between the quotes of a string. -/
inductive AreChars : Text → Prop where
  /-- No characters. -/
  | nil : AreChars []
  /-- A character that stands for itself. -/
  | itself {ch : Char} (hlow : 0x20 ≤ ch.toNat) (hquote : ch ≠ '"') (hslash : ch ≠ '\\') {s : Text}
      (hs : AreChars s) : AreChars (.char ch :: s)
  /-- An escape of one letter. -/
  | escape {letter : CodePoint} (hletter : letter ∈ ("\"\\/bfnrt" : Text)) {s : Text}
      (hs : AreChars s) : AreChars (.char '\\' :: letter :: s)
  /-- An escape of four hexadecimal digits. -/
  | unit {ds : Text} (hlength : ds.length = 4) (hds : ∀ d ∈ ds, (hexValue? d).isSome = true)
      {s : Text} (hs : AreChars s) : AreChars (.char '\\' :: .char 'u' :: (ds ++ s))

/-- A string. -/
inductive IsString : Text → Prop where
  /-- Characters between quotes. -/
  | quoted {s : Text} (hs : AreChars s) : IsString (.char '"' :: (s ++ [.char '"']))

mutual

/-- A value. -/
inductive IsValue : Text → Prop where
  /-- One of three words. -/
  | word {w : Text} (hw : w ∈ [("null" : Text), "true", "false"]) : IsValue w
  /-- A number. -/
  | number {s : Text} (hs : IsNumber s) : IsValue s
  /-- A string. -/
  | string {s : Text} (hs : IsString s) : IsValue s
  /-- An array without elements. -/
  | emptyArray {gap : Text} (hgap : IsGap gap) : IsValue (.char '[' :: (gap ++ [.char ']']))
  /-- Elements with commas between them. -/
  | array {parts : List Text} (hne : parts ≠ []) (hparts : ∀ s ∈ parts, IsJsonText s) :
      IsValue (.char '[' :: ([CodePoint.char ','].intercalate parts ++ [.char ']']))
  /-- An object without members. -/
  | emptyObject {gap : Text} (hgap : IsGap gap) :
      IsValue (.char '\x7b' :: (gap ++ [.char '\x7d']))
  /-- Members with commas between them. -/
  | object {parts : List Text} (hne : parts ≠ []) (hparts : ∀ s ∈ parts, IsMember s) :
      IsValue (.char '\x7b' :: ([CodePoint.char ','].intercalate parts ++ [.char '\x7d']))

/-- A member of an object. -/
inductive IsMember : Text → Prop where
  /-- A name, a colon and a value, with space around each. -/
  | named {before name after s : Text} (hbefore : IsGap before) (hname : IsString name)
      (hafter : IsGap after) (hs : IsJsonText s) :
      IsMember (before ++ (name ++ (after ++ .char ':' :: s)))

/-- A JSON text, or an element of an array. -/
inductive IsJsonText : Text → Prop where
  /-- A value with space around it. -/
  | spaced {before s after : Text} (hbefore : IsGap before) (hs : IsValue s)
      (hafter : IsGap after) : IsJsonText (before ++ (s ++ after))

end

/-- No space is space too. -/
theorem isGap_nil : IsGap [] := nofun

/-- One space, as it follows a colon. -/
theorem isGap_space : IsGap [.char ' '] := by
  intro c hc
  rw [List.mem_singleton.mp hc]
  decide

/-! ### Capitals outside strings -/

/-- Where a character stands in a text. -/
inductive Place where
  /-- Outside strings. -/
  | outside
  /-- In a string. -/
  | inside
  /-- Right behind a backslash of a string. -/
  | escaped
deriving DecidableEq, Repr

/-- The characters that stand outside strings. -/
def bare : Place → Text → Text
  | _, [] => []
  | .outside, c :: s => if c = '"' then bare .inside s else c :: bare .outside s
  | .inside, c :: s =>
    bare (if c = '"' then .outside else if c = '\\' then .escaped else .inside) s
  | .escaped, _ :: s => bare .inside s

/-- The capitals that start the words of numbers without digits. -/
def isCapital (c : CodePoint) : Bool := c = 'N' || c = 'I'

/-- A text that ends outside its strings, and whether it has a capital there. -/
def Shows (capital : Bool) (s : Text) : Prop :=
  ∃ seen, (∀ rest, bare .outside (s ++ rest) = seen ++ bare .outside rest) ∧
    seen.any isCapital = capital

namespace Shows

variable {s t : Text} {a b : Bool}

/-- What a text shows is what stands outside strings in all of it, and nothing has to follow
for that. -/
theorem any_bare (h : Shows a s) : (bare .outside s).any isCapital = a := by
  obtain ⟨seen, hseen, rfl⟩ := h
  have hs := hseen []
  rw [List.append_nil, bare, List.append_nil] at hs
  rw [hs]

/-- The empty text shows nothing. -/
theorem nil : Shows false [] := ⟨[], fun _ => rfl, rfl⟩

/-- Two texts in a row show what each of them shows. The first ends outside its strings, so the
second starts there. -/
theorem append (hs : Shows a s) (ht : Shows b t) : Shows (a || b) (s ++ t) := by
  obtain ⟨seen, hseen, rfl⟩ := hs
  obtain ⟨seen', hseen', rfl⟩ := ht
  refine ⟨seen ++ seen', ?_, List.any_append⟩
  intro rest
  rw [List.append_assoc, hseen, hseen', List.append_assoc]

/-- A character that is not a quote, in front of a text. -/
theorem cons_of_ne {c : CodePoint} (hc : c ≠ .char '"') (h : Shows a s) :
    Shows (isCapital c || a) (c :: s) := by
  obtain ⟨seen, hseen, rfl⟩ := h
  refine ⟨c :: seen, ?_, List.any_cons⟩
  intro rest
  rw [List.cons_append, bare, if_neg hc, hseen, List.cons_append]

/-- A text without quotes is outside strings. -/
theorem of_forall_ne (h : ∀ c ∈ s, c ≠ .char '"') : Shows (s.any isCapital) s := by
  induction s with
  | nil => exact .nil
  | cons c s ih =>
      obtain ⟨hc, hs⟩ := List.forall_mem_cons.mp h
      exact (ih hs).cons_of_ne hc

/-- Other characters in front of a text make no difference. -/
theorem cons {c : CodePoint} (hc : c ∉ ("\"NI" : Text)) (h : Shows a s) : Shows a (c :: s) := by
  have hletters : ("\"NI" : Text) = [.char '"', .char 'N', .char 'I'] := rfl
  simp only [hletters, List.mem_cons, List.not_mem_nil, or_false, not_or] at hc
  have hcapital : isCapital c = false := by simp [isCapital, hc.2.1, hc.2.2]
  have hall := h.cons_of_ne hc.1
  rwa [hcapital, Bool.false_or] at hall

/-- Texts of a class of characters that has neither quotes nor those capitals. -/
theorem of_class {p : CodePoint → Bool} (hp : ∀ c ∈ ("\"NI" : Text), p c = false)
    (h : ∀ c ∈ s, p c = true) : Shows false s := by
  induction s with
  | nil => exact .nil
  | cons c s ih =>
      obtain ⟨hc, hs⟩ := List.forall_mem_cons.mp h
      apply (ih hs).cons
      intro hmem
      exact Bool.false_ne_true ((hp c hmem).symm.trans hc)

/-- A part, and the others behind what stands between. -/
theorem intercalate {sep : Text} {ts : List Text} (hsep : Shows false sep) (ht : Shows a t)
    (hts : Shows b (sep.intercalate ts)) : Shows (a || b) (sep.intercalate (t :: ts)) := by
  cases ts with
  | nil =>
      rw [List.intercalate_singleton, ← List.append_nil t]
      exact ht.append hts
  | cons t' ts =>
      rw [List.intercalate_cons_cons, List.append_assoc]
      exact ht.append (hsep.append hts)

end Shows

/-- The digits of an escape stand inside the string. -/
theorem bare_inside_hex {ds : Text} (h : ∀ d ∈ ds, (hexValue? d).isSome = true) (rest : Text) :
    bare .inside (ds ++ rest) = bare .inside rest := by
  induction ds with
  | nil => rfl
  | cons d ds ih =>
      obtain ⟨hd, hds⟩ := List.forall_mem_cons.mp h
      have hquote : d ≠ .char '"' := fun heq => absurd (heq ▸ hd) (by decide)
      have hslash : d ≠ .char '\\' := fun heq => absurd (heq ▸ hd) (by decide)
      rw [List.cons_append, bare, if_neg hquote, if_neg hslash, ih hds]

/-- The characters of a string leave it open, and none of them is outside. The induction is on the
rules, one case for each kind of escape. -/
theorem AreChars.bare_inside {s : Text} (h : AreChars s) (rest : Text) :
    bare .inside (s ++ rest) = bare .inside rest := by
  induction h with
  | nil => rfl
  | itself _ hquote hslash _ ih =>
      rw [List.cons_append, bare, if_neg fun heq => hquote (CodePoint.char.inj heq),
        if_neg fun heq => hslash (CodePoint.char.inj heq), ih]
  | escape _ _ ih => exact ih
  | @unit ds _ hds s _ ih =>
      show bare .inside (ds ++ s ++ rest) = bare .inside rest
      rw [List.append_assoc, bare_inside_hex hds, ih]

/-- A string shows nothing: it ends outside, and all its characters were inside. -/
theorem IsString.shows {s : Text} (h : IsString s) : Shows false s := by
  obtain ⟨hs⟩ := h
  refine ⟨[], ?_, rfl⟩
  intro rest
  rw [List.cons_append, List.append_assoc, bare, if_pos rfl, hs.bare_inside]
  rfl

/-- Digits are outside strings and show no capital. -/
theorem shows_digits {ds : Text} (h : AreDigits ds) : Shows false ds := .of_class (by decide) h

/-- Space shows no capital. -/
theorem IsGap.shows {s : Text} (h : IsGap s) : Shows false s := .of_class (by decide) h

/-- The whole part of a number shows no capital. -/
theorem IsWhole.shows {s : Text} (h : IsWhole s) : Shows false s := by
  cases h with
  | zero => exact .cons (by decide) .nil
  | digits hd _ hds => exact shows_digits (List.forall_mem_cons.mpr ⟨hd, hds⟩)

/-- A fraction shows no capital. -/
theorem IsFraction.shows {s : Text} (h : IsFraction s) : Shows false s := by
  cases h with
  | absent => exact .nil
  | digits hds _ => exact .cons (by decide) (shows_digits hds)

/-- An exponent shows no capital: its mark is an `e` of either case. -/
theorem IsExponent.shows {s : Text} (h : IsExponent s) : Shows false s := by
  cases h with
  | absent => exact .nil
  | @digits mark hmark sign ds hsign hds _ =>
      have hpower : Shows false (sign ++ ds) := by
        simp only [List.mem_cons, List.not_mem_nil, or_false] at hsign
        rcases hsign with rfl | rfl | rfl
        · exact shows_digits hds
        · exact .cons (by decide) (shows_digits hds)
        · exact .cons (by decide) (shows_digits hds)
      rcases hmark with rfl | rfl
      · exact .cons (by decide) hpower
      · exact .cons (by decide) hpower

/-- So a number of the grammar shows no capital, with its sign. -/
theorem IsNumber.shows {s : Text} (h : IsNumber s) : Shows false s := by
  obtain ⟨negative, hwhole, hfraction, hexponent⟩ := h
  have hparts := hwhole.shows.append (hfraction.shows.append hexponent.shows)
  cases negative with
  | false => exact hparts
  | true => exact .cons (by decide) hparts

/-- Brackets and what is between them. -/
theorem Shows.bracket {capital : Bool} {s : Text} (h : Shows capital s) {opening closing : CodePoint}
    (hopening : opening ∉ ("\"NI" : Text)) (hclosing : closing ∉ ("\"NI" : Text)) :
    Shows capital (opening :: (s ++ [closing])) := by
  have hrest := h.append (Shows.nil.cons hclosing)
  rw [Bool.or_false] at hrest
  exact hrest.cons hopening

/-- Parts that show nothing, joined by what shows nothing, show nothing. -/
theorem shows_intercalate {sep : Text} (hsep : Shows false sep) {parts : List Text}
    (h : ∀ s ∈ parts, Shows false s) : Shows false (sep.intercalate parts) := by
  induction parts with
  | nil => exact .nil
  | cons s parts ih =>
      obtain ⟨hs, hparts⟩ := List.forall_mem_cons.mp h
      exact hsep.intercalate hs (ih hparts)

/-- A comma shows nothing. -/
theorem shows_comma : Shows false [.char ','] := .cons (by decide) .nil

/-- The grammar has no capital `N` or `I` outside strings. The words of the infinities and of what
is not a number start with these, so no text with one of them is JSON. -/
theorem IsJsonText.shows {s : Text} (h : IsJsonText s) : Shows false s := by
  -- One induction for values, members and texts, each with the same property.
  refine @IsJsonText.rec (fun s _ => Shows false s) (fun s _ => Shows false s)
    (fun s _ => Shows false s) ?word ?number ?string ?emptyArray ?array ?emptyObject ?object ?named
    ?spaced s h
  case word =>
    intro w hw
    simp only [List.mem_cons, List.not_mem_nil, or_false] at hw
    rcases hw with rfl | rfl | rfl <;> exact .of_forall_ne (by decide)
  case number =>
    intro s hs
    exact hs.shows
  case string =>
    intro s hs
    exact hs.shows
  case emptyArray =>
    intro gap hgap
    exact hgap.shows.bracket (by decide) (by decide)
  case emptyObject =>
    intro gap hgap
    exact hgap.shows.bracket (by decide) (by decide)
  case array =>
    intro parts _ _ ih
    exact (shows_intercalate shows_comma ih).bracket (by decide) (by decide)
  case object =>
    intro parts _ _ ih
    exact (shows_intercalate shows_comma ih).bracket (by decide) (by decide)
  case named =>
    intro before name after s hbefore hname hafter _ ih
    exact hbefore.shows.append (hname.shows.append (hafter.shows.append (ih.cons (by decide))))
  case spaced =>
    intro before s after hbefore _ hafter ih
    exact hbefore.shows.append (ih.append hafter.shows)

/-- The same of a value, with its elements or members as JSON texts. -/
theorem IsValue.shows {s : Text} (h : IsValue s) : Shows false s := by
  have htext := IsJsonText.spaced isGap_nil h isGap_nil
  rw [List.nil_append, List.append_nil] at htext
  exact htext.shows

end RouteDocs.Json
