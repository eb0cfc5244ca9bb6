import RouteDocs.Proofs.ResponseText

/-!
# `RouteDocs.Proofs.LiteralExample`: examples in brackets read back

A parameter whose type is `object` or `array` has its example on a line of its own: the marker,
and a literal in the brackets of the type, which may go on over more lines. A property block may
stand above it. `LiteralParameter` and `BlockParameter` have the parts of such a text and what is
asked of each.

The example is cut first, at the leftmost line feed that leads to a marker with a bracket behind
it. `cutLiteral?_append` says that this is the line feed in front of the example that was
written, where no line above starts like one; markers inside of the literal come later. The
block is then cut from what is left, and the header that was written is the first, as it is for
responses.

`parseParameter_blockText` puts this together. Without a block it takes a description
(`parseParameter_literalText`): the line feed in front of the example belongs to the blanks behind
the type and the marker, which are dropped, so an example with nothing in front of it is not
found.
-/

set_option autoImplicit false

namespace RouteDocs.Tag

open Text

/-! ### Literals -/

/-- A literal in the brackets of its type. -/
inductive IsLiteral : (type literal : Text) → Prop where
  /-- Objects are in braces. -/
  | object (inner : Text) :
      IsLiteral CanonicalType.object.name (.char '\x7b' :: (inner ++ [.char '\x7d']))
  /-- Lists are in brackets. -/
  | array (inner : Text) :
      IsLiteral CanonicalType.array.name (.char '[' :: (inner ++ [.char ']']))

/-- A text that starts with the marker of an example and a bracket. Blanks may stand in front of
both. -/
def StartsLiteral (opening : CodePoint) (s : Text) : Prop :=
  ∃ indent gap rest, s = indent ++ (exampleMarker ++ (gap ++ opening :: rest)) ∧
    (∀ c ∈ indent, isBlank c = true) ∧ ∀ c ∈ gap, isBlank c = true

/-- A line of a text starts with the marker of an example and a bracket. -/
def HasLiteralLine (opening : CodePoint) (s : Text) : Prop :=
  ∃ above line, s = above ++ line ∧ (∀ c ∈ above.getLast?, c = .char '\n') ∧
    StartsLiteral opening line

/-- The brackets that are looked for. -/
structure AreBrackets (type : Text) (opening closing : CodePoint) : Prop where
  literalBrackets?_eq : literalBrackets? type = some (opening, closing)
  isBlank_opening : isBlank opening = false
  isBlank_closing : isBlank closing = false
  /-- A marker is not taken for a bracket. -/
  opening_ne : ∀ c ∈ exampleMarker.head?, c ≠ opening
  /-- A literal keeps its text. -/
  castExample_eq : ∀ tag text, castExample tag type text = .ok (.str (trim text))

/-- A literal stands in the brackets of its type. -/
theorem IsLiteral.exists_brackets {type literal : Text} (h : IsLiteral type literal) :
    ∃ opening closing inner, literal = opening :: (inner ++ [closing]) ∧
      AreBrackets type opening closing := by
  cases h with
  | object inner => exact ⟨_, _, inner, rfl, rfl, by decide, by decide, by decide, fun _ _ => rfl⟩
  | array inner => exact ⟨_, _, inner, rfl, rfl, by decide, by decide, by decide, fun _ _ => rfl⟩

/-- What stands in brackets has no blanks around it. -/
theorem AreBrackets.trim_eq {type : Text} {opening closing : CodePoint}
    (h : AreBrackets type opening closing) (inner : Text) :
    trim (opening :: (inner ++ [closing])) = opening :: (inner ++ [closing]) := by
  rw [trim, trimStart_cons_of_not h.isBlank_opening, trimEnd_cons_of_not h.isBlank_opening,
    trimEnd_concat, if_neg (by simp [h.isBlank_closing])]

/-! ### The first line that starts a literal -/

/-- Where a literal starts, as its parts are found: the marker behind blanks, then the bracket
behind blanks. -/
theorem startsLiteral_iff {opening : CodePoint} (h : isBlank opening = false) {s : Text} :
    StartsLiteral opening s ↔ ∃ after, dropStart? exampleMarker (trimStart s) = some after ∧
      (trimStart after).head? = some opening := by
  constructor
  · rintro ⟨indent, gap, rest, rfl, hindent, hgap⟩
    have hmarker : trimStart (exampleMarker ++ (gap ++ opening :: rest)) = _ :=
      trimStart_append (trimStart_of_trim isWord_exampleMarker.trim_eq) isWord_exampleMarker.1 _
    refine ⟨gap ++ opening :: rest, ?_, ?_⟩
    · rw [trimStart_append_of_blank hindent, hmarker, dropStart?_append]
    · rw [trimStart_append_of_blank hgap, trimStart_cons_of_not h]
      rfl
  · rintro ⟨after, hafter, hhead⟩
    obtain ⟨indent, hs, hindent⟩ := eq_append_trimStart s
    obtain ⟨gap, hgap, hblanks⟩ := eq_append_trimStart after
    obtain ⟨rest, hrest⟩ := List.head?_eq_some_iff.mp hhead
    refine ⟨indent, gap, rest, ?_, hindent, hblanks⟩
    rw [← hrest, ← hgap, ← eq_append_of_dropStart? hafter]
    exact hs

/-- A line that starts a literal is looked for at every place of the text. -/
theorem hasLiteralLine_iff {opening : CodePoint} (h : isBlank opening = false) {s : Text} :
    HasLiteralLine opening s ↔ ∃ k, k < s.length + 1 ∧
      (∀ c ∈ (s.take k).getLast?, c = .char '\n') ∧
      ∃ after ∈ dropStart? exampleMarker (trimStart (s.drop k)),
        (trimStart after).head? = some opening := by
  constructor
  · rintro ⟨above, line, rfl, habove, hline⟩
    refine ⟨above.length, by simp only [List.length_append]; omega, ?_, ?_⟩
    · rwa [List.take_left]
    · rw [List.drop_left]
      exact (startsLiteral_iff h).mp hline
  · rintro ⟨k, -, habove, hline⟩
    exact ⟨s.take k, s.drop k, (List.take_append_drop k s).symm, habove,
      (startsLiteral_iff h).mpr hline⟩

/-- What is taken for a literal stands behind the marker of an example, without the blanks around
it, and starts with the bracket. -/
theorem exists_of_literalAt? {opening closing : CodePoint} {s literal : Text}
    (h : literalAt? opening closing s = some literal) :
    ∃ after, dropStart? exampleMarker (trimStart s) = some after ∧
      literal = trimEnd (trimStart after) ∧ literal.head? = some opening := by
  obtain ⟨after, hafter, h⟩ := Option.bind_eq_some_iff.mp h
  dsimp only at h
  split at h
  · rename_i hends
    rw [Bool.and_eq_true, decide_eq_true_eq] at hends
    obtain rfl := Option.some.inj h
    exact ⟨after, hafter, rfl, hends.1⟩
  · exact nomatch h

/-- A literal is found only where one starts. -/
theorem startsLiteral_of_literalAt? {opening closing : CodePoint} (h : isBlank opening = false)
    {s literal : Text} (hs : literalAt? opening closing s = some literal) :
    StartsLiteral opening s := by
  obtain ⟨after, hafter, rfl, hhead⟩ := exists_of_literalAt? hs
  refine (startsLiteral_iff h).mpr ⟨after, hafter, ?_⟩
  obtain ⟨rest, hrest⟩ : trimEnd (trimStart after) <+: trimStart after :=
    List.rdropWhile_prefix isBlank _
  rw [← hrest, List.head?_append, hhead]
  rfl

/-- It is no longer than the text it was found in. -/
theorem length_le_of_literalAt? {opening closing : CodePoint} {s literal : Text}
    (h : literalAt? opening closing s = some literal) : literal.length ≤ s.length := by
  obtain ⟨after, hafter, rfl, -⟩ := exists_of_literalAt? h
  have hend : (trimEnd (trimStart after)).length ≤ (trimStart after).length :=
    (List.rdropWhile_prefix isBlank _).length_le
  have hstart : (trimStart after).length ≤ after.length := (List.dropWhile_suffix _).length_le
  have hs : (trimStart s).length ≤ s.length := (List.dropWhile_suffix _).length_le
  rw [eq_append_of_dropStart? hafter, List.length_append] at hs
  omega

/-- An example below a line that has some text starts no literal on that line. -/
theorem StartsLiteral.of_append {opening : CodePoint} (hblank : isBlank opening = false)
    (hmarker : ∀ c ∈ exampleMarker.head?, c ≠ opening) {line rest : Text}
    (htext : ∃ c ∈ line, isBlank c = false)
    (h : StartsLiteral opening (line ++ .char '\n' :: (exampleMarker ++ rest))) :
    StartsLiteral opening line := by
  rw [startsLiteral_iff hblank, trimStart_append_of_ne_nil (trimStart_ne_nil htext)] at h
  obtain ⟨after, hafter, hhead⟩ := h
  -- The marker stands at the start of the line itself, or the line starts no literal.
  by_cases hline : exampleMarker <+: trimStart line
  · obtain ⟨behind, hbehind⟩ := hline
    rw [← hbehind, List.append_assoc, dropStart?_append] at hafter
    obtain rfl := Option.some.inj hafter
    refine (startsLiteral_iff hblank).mpr ⟨behind, by rw [← hbehind, dropStart?_append], ?_⟩
    by_cases htext' : ∃ c ∈ behind, isBlank c = false
    · obtain ⟨c, cs, hcs⟩ := List.exists_cons_of_ne_nil (trimStart_ne_nil htext')
      rw [trimStart_append_of_ne_nil (trimStart_ne_nil htext'), hcs] at hhead
      rw [hcs]
      exact hhead
    · -- Then the next word is the marker of the example below, and no bracket.
      have hblanks : ∀ c ∈ behind, isBlank c = true := by simpa using htext'
      rw [trimStart_append_of_blank hblanks, trimStart_cons_blank (by decide),
        trimStart_append (trimStart_of_trim isWord_exampleMarker.trim_eq) isWord_exampleMarker.1]
        at hhead
      exact absurd (Option.some.inj hhead) (hmarker _ rfl)
  · rw [dropStart?_eq_none (by decide) hline] at hafter
    exact nomatch hafter

/-- Behind the marker of an example stands the literal, brackets and all. -/
theorem literalAt?_marker {type : Text} {opening closing : CodePoint}
    (h : AreBrackets type opening closing) (inner : Text) :
    literalAt? opening closing (exampleMarker ++ .char ' ' :: opening :: (inner ++ [closing]))
      = some (opening :: (inner ++ [closing])) := by
  rw [literalAt?,
    trimStart_append (trimStart_of_trim isWord_exampleMarker.trim_eq) isWord_exampleMarker.1,
    dropStart?_append]
  have htrim := h.trim_eq inner
  rw [trim] at htrim
  show (if _ then _ else _) = _
  rw [trimStart_cons_blank (by decide), htrim, if_pos]
  rw [Bool.and_eq_true, decide_eq_true_eq, decide_eq_true_eq, ← List.cons_append,
    List.getLast?_concat]
  exact ⟨rfl, rfl⟩

/-- The example is cut at its own line feed if no line above starts a literal. The induction is
on the text above. -/
theorem cutLiteral?_append {type : Text} {opening closing : CodePoint}
    (h : AreBrackets type opening closing) {s : Text}
    (htext : ∀ above line, s = above ++ .char '\n' :: line → ∃ c ∈ line, isBlank c = false)
    (hline : ∀ above line, s = above ++ .char '\n' :: line → ¬ StartsLiteral opening line)
    (inner : Text) :
    cutLiteral? opening closing
        (s ++ .char '\n' :: (exampleMarker ++ .char ' ' :: opening :: (inner ++ [closing])))
      = some (s, opening :: (inner ++ [closing])) := by
  induction s with
  | nil => rw [List.nil_append, cutLiteral?, if_pos rfl, literalAt?_marker h]
  | cons c s ih =>
      -- A literal that is found from this line on would start on the line without the example.
      have hnone : (if c = .char '\n' then literalAt? opening closing
          (s ++ .char '\n' :: (exampleMarker ++ .char ' ' :: opening :: (inner ++ [closing])))
          else none) = none := by
        split
        · rename_i hc
          subst hc
          cases hliteral : literalAt? opening closing
              (s ++ .char '\n' :: (exampleMarker ++ .char ' ' :: opening :: (inner ++ [closing]))) with
          | none => rfl
          | some literal =>
              have hstarts := startsLiteral_of_literalAt? h.isBlank_opening hliteral
              exact absurd (hstarts.of_append h.isBlank_opening h.opening_ne (htext [] s rfl))
                (hline [] s rfl)
        · rfl
      have htail := ih (fun above line hs => htext (c :: above) line (by rw [hs]; rfl))
        (fun above line hs => hline (c :: above) line (by rw [hs]; rfl))
      rw [List.cons_append, cutLiteral?, hnone, htail]
      rfl

/-! ### Parts and text -/

/-- A parameter with an example in brackets, in the parts that are written. -/
structure LiteralParameter where
  /-- The name. -/
  name : Text
  /-- The word for the type. -/
  type : Text
  /-- Whether it has to be given. -/
  required : Bool
  /-- The prose, which may be empty. -/
  description : Text
  /-- The example, as text of one line or more. -/
  literal : Text
  isWord_name : IsWord name
  isWord_type : IsWord type
  isPhrase_description : IsPhrase description
  /-- The prose does not start with the word that makes a parameter required. -/
  description_ne_marker : required = false → (takeToken description).1 ≠ requiredMarker
  isLiteral : IsLiteral (normalizeType type) literal

namespace LiteralParameter

variable (p : LiteralParameter)

/-- The type that the parameter has. -/
def typeName : Text := normalizeType p.type

/-- The first line. -/
def head : Text :=
  spaced ([p.name, p.type] ++ (if p.required then [requiredMarker] else []) ++
    (if p.description = [] then [] else [p.description]))

/-- The line of the example, and those that follow it. -/
def exampleText : Text := exampleMarker ++ .char ' ' :: p.literal

/-- The text of a parameter. -/
def text : Text := p.head ++ .char '\n' :: p.exampleText

/-- Behind the words in front there is one blank. It is a line feed where there is no prose. -/
theorem exists_head_append (rest : Text) :
    ∃ b, isBlank b = true ∧ p.head ++ .char '\n' :: rest = p.name ++ .char ' ' :: (p.type ++
      (if p.required then .char ' ' :: (requiredMarker ++ b :: atop p.description rest)
        else b :: atop p.description rest)) := by
  rw [head, atop]
  by_cases hd : p.description = []
  · refine ⟨.char '\n', by decide, ?_⟩
    cases p.required <;> simp [hd, spaced_cons_cons, spaced_singleton]
  · refine ⟨.char ' ', by decide, ?_⟩
    cases p.required <;> simp [hd, spaced_cons_cons, spaced_singleton]

/-- The words in front are found, and the lines below the first go with the prose. The line feed
between them stays only where there is prose. -/
theorem splitParameter_head (tag : Text) {rest : Text} (hrest : trim rest = rest) (hne : rest ≠ [])
    (hmarker : (takeToken rest).1 ≠ requiredMarker) :
    splitParameter tag (p.head ++ .char '\n' :: rest)
      = .ok ⟨p.name, p.type, p.required, atop p.description rest⟩ := by
  obtain ⟨b, hb, htext⟩ := p.exists_head_append rest
  rw [htext]
  cases hrequired : p.required with
  | true =>
      rw [if_pos rfl, splitParameter_words tag p.isWord_name p.isWord_type (by decide)]
      simp only [isWord_requiredMarker.takeToken_append hb, beq_self_eq_true, if_true,
        trim_trimStart, trim_atop p.isPhrase_description hrest hne]
  | false =>
      -- Without the marker of a required parameter all that follows is prose.
      have hprose : ((takeToken (atop p.description rest)).1 == requiredMarker) = false := by
        rw [beq_eq_false_iff_ne, atop]
        split
        · exact hmarker
        · rename_i hd
          rw [takeToken_append (trimStart_of_trim p.isPhrase_description.trimmed) hd (by decide)]
          exact p.description_ne_marker hrequired
      rw [if_neg Bool.false_ne_true, splitParameter_words tag p.isWord_name p.isWord_type hb]
      simp only [hprose, Bool.false_eq_true, if_false, trim_atop p.isPhrase_description hrest hne]

/-- The line of the example is not empty. -/
theorem exampleText_ne_nil : p.exampleText ≠ [] := by
  exact List.append_ne_nil_of_left_ne_nil isWord_exampleMarker.1 _

/-- It starts with the marker and ends with the bracket, so it has no blanks around it. -/
theorem trim_exampleText : trim p.exampleText = p.exampleText := by
  obtain ⟨opening, closing, inner, hliteral, hbrackets⟩ := p.isLiteral.exists_brackets
  have h := trim_append isWord_exampleMarker.trim_eq isWord_exampleMarker.1
    (hbrackets.trim_eq inner) (List.cons_ne_nil _ _) [.char ' ']
  rw [exampleText, hliteral]
  rwa [List.append_assoc] at h

/-- Its first word is that of the marker, which is not the one for required parameters. -/
theorem takeToken_exampleText : (takeToken p.exampleText).1 ≠ requiredMarker := by
  rw [exampleText, isWord_exampleMarker.takeToken_append (by decide)]
  show exampleMarker ≠ requiredMarker
  decide

end LiteralParameter

/-! ### Parameters with an example -/

/-- What a line feed leads to, in a text that starts with a part without one. -/
theorem exists_of_append_eq {start rest before after : Text} (h : .char '\n' ∉ start)
    (heq : start ++ rest = before ++ .char '\n' :: after) :
    ∃ between, rest = between ++ .char '\n' :: after := by
  rcases List.append_eq_append_iff.mp heq with ⟨between, -, hrest⟩ | ⟨between, hstart, hafter⟩
  · exact ⟨between, hrest⟩
  · cases between with
    | nil => exact ⟨[], hafter.symm⟩
    | cons c between =>
        obtain ⟨rfl, -⟩ := List.cons.inj hafter
        simp [hstart] at h

/-- What is cut as a literal stands behind a line feed. -/
theorem exists_of_cutLiteral? {opening closing : CodePoint} {s before literal : Text}
    (h : cutLiteral? opening closing s = some (before, literal)) :
    ∃ after, s = before ++ .char '\n' :: after ∧
      literalAt? opening closing after = some literal := by
  induction s generalizing before with
  | nil => cases h
  | cons c s ih =>
      rw [cutLiteral?] at h
      split at h
      · rename_i found hfound
        obtain ⟨rfl, rfl⟩ := Prod.mk.inj (Option.some.inj h)
        split at hfound
        · rename_i hc
          exact ⟨s, by rw [hc]; rfl, hfound⟩
        · cases hfound
      · obtain ⟨r, hr, heq⟩ := Option.map_eq_some_iff.mp h
        obtain ⟨rfl, rfl⟩ := Prod.mk.inj heq
        obtain ⟨after, hs, hliteral⟩ := ih hr
        exact ⟨after, by rw [hs]; rfl, hliteral⟩

/-- A description of a type with brackets: the literal is cut off, then the block. -/
theorem parseDescription_eq {type : Text} {opening closing : CodePoint}
    (h : AreBrackets type opening closing) (tag text : Text) :
    parseDescription tag type text =
      match cutLiteral? opening closing text with
      | none => (splitBlock tag text).map fun r => ⟨trim r.1, none, r.2⟩
      | some (before, literal) =>
        (splitBlock tag before).map fun r => ⟨trim r.1, some (.str (trim literal)), r.2⟩ := by
  simp only [parseDescription, parseDescriptionWith, h.literalBrackets?_eq, splitBlock]
  cases cutLiteral? opening closing text with
  | none =>
      dsimp only
      rw [Yaml.ok_bind]
      dsimp only
      cases splitBlockWith (parseBlock tag) text <;> rfl
  | some r =>
      dsimp only
      rw [h.castExample_eq]
      show (splitBlockWith (parseBlock tag) r.1 >>= _) = _
      cases splitBlockWith (parseBlock tag) r.1 <;> rfl

/-- A text of one line has no block. -/
theorem splitBlock_eq {text : Text} (h : .char '\n' ∉ text) (tag : Text) :
    splitBlock tag text = .ok (text, none) :=
  splitBlockWith_eq _ h

/-- A parameter is read from the prose and the lines below it. -/
theorem LiteralParameter.parseParameter_head (p : LiteralParameter) (tag : Text) {rest : Text}
    (hrest : trim rest = rest) (hne : rest ≠ []) (hmarker : (takeToken rest).1 ≠ requiredMarker) :
    parseParameter tag (p.head ++ .char '\n' :: rest)
      = (parseDescription tag p.typeName (atop p.description rest)).map fun d =>
          ⟨p.name, p.typeName, p.required, d.prose, d.sample, d.properties⟩ := by
  rw [parseParameter, parseParameterWith, p.splitParameter_head tag hrest hne hmarker, Yaml.ok_bind]
  show (parseDescription tag p.typeName (atop p.description rest) >>= _) = _
  cases parseDescription tag p.typeName (atop p.description rest) <;> rfl

/-- An example with nothing in front of it is not found: what is found is shorter. -/
theorem LiteralParameter.sample_ne (p : LiteralParameter) (tag : Text) {d : Description}
    (h : parseDescription tag p.typeName p.exampleText = .ok d) :
    d.sample ≠ some (.str p.literal) := by
  obtain ⟨opening, closing, inner, -, hbrackets⟩ := p.isLiteral.exists_brackets
  have hlead : .char '\n' ∉ exampleMarker ++ [.char ' '] := by decide
  rw [typeName, parseDescription_eq hbrackets] at h
  cases hcut : cutLiteral? opening closing p.exampleText with
  | none =>
      rw [hcut] at h
      obtain ⟨r, -, rfl⟩ := exists_of_map_eq_ok h
      exact nofun
  | some r =>
      obtain ⟨before, literal⟩ := r
      rw [hcut] at h
      obtain ⟨r, -, rfl⟩ := exists_of_map_eq_ok h
      obtain ⟨after, hafter, hliteral⟩ := exists_of_cutLiteral? hcut
      have htext : (exampleMarker ++ [.char ' ']) ++ p.literal = before ++ .char '\n' :: after := by
        rw [← hafter, exampleText, List.append_assoc]
        rfl
      obtain ⟨between, hbetween⟩ := exists_of_append_eq hlead htext
      -- What is found stands behind a line feed in the literal, so it is shorter.
      have hshort := length_le_of_literalAt? hliteral
      intro heq
      have hsame : trim literal = p.literal := Scalar.str.inj (Option.some.inj heq)
      have htrim : (trim literal).length ≤ literal.length :=
        ((List.rdropWhile_prefix isBlank _).length_le).trans (List.dropWhile_suffix _).length_le
      rw [hsame, hbetween, List.length_append, List.length_cons] at htrim
      omega

/-- The example is read, and the prose is left as the description, exactly where there is prose.
An example of one line with none in front of it is left in the description. -/
theorem parseParameter_literalText (p : LiteralParameter) (tag : Text) :
    (parseParameter tag p.text
        = .ok ⟨p.name, p.typeName, p.required, p.description, some (.str p.literal), none⟩ ↔
      p.description ≠ []) ∧
      (p.description = [] → .char '\n' ∉ p.literal →
        parseParameter tag p.text
          = .ok ⟨p.name, p.typeName, p.required, p.exampleText, none, none⟩) := by
  obtain ⟨opening, closing, inner, hliteral, hbrackets⟩ := p.isLiteral.exists_brackets
  have hread := p.parseParameter_head tag p.trim_exampleText p.exampleText_ne_nil
    p.takeToken_exampleText
  rw [LiteralParameter.text, hread]
  refine ⟨⟨?_, ?_⟩, ?_⟩
  · intro h hnil
    obtain ⟨d, hd, heq⟩ := exists_of_map_eq_ok h
    rw [atop, if_pos hnil] at hd
    exact p.sample_ne tag hd (ParameterTag.mk.inj heq).2.2.2.2.1
  · intro hne
    have hline := p.isPhrase_description.one_line
    -- The prose is one line, so no line above the example can start a literal.
    have hcut : cutLiteral? opening closing (atop p.description p.exampleText)
        = some (p.description, p.literal) := by
      rw [atop, if_neg hne, LiteralParameter.exampleText, hliteral]
      refine cutLiteral?_append hbrackets ?_ ?_ inner
      · intro above line h
        exact absurd (by simp [h]) hline
      · intro above line h
        exact absurd (by simp [h]) hline
    rw [LiteralParameter.typeName, parseDescription_eq hbrackets, hcut]
    dsimp only
    rw [splitBlock_eq hline, hliteral, hbrackets.trim_eq]
    show Except.ok (ParameterTag.mk _ _ _ (trim p.description) _ _) = _
    rw [p.isPhrase_description.trimmed]
  · intro hnil hone
    -- Without a line feed nothing is cut off, and all of it is prose.
    have hline : .char '\n' ∉ p.exampleText := by
      rw [LiteralParameter.exampleText, List.mem_append, List.mem_cons, not_or, not_or]
      exact ⟨by decide, by decide, hone⟩
    rw [atop, if_pos hnil, LiteralParameter.typeName,
      parseDescription_eq hbrackets, cutLiteral?_eq_none _ _ hline]
    dsimp only
    rw [splitBlock_eq hline]
    show Except.ok (ParameterTag.mk _ _ _ (trim p.exampleText) _ _) = _
    rw [p.trim_exampleText]

/-- A required parameter whose example holds one of its own. -/
def orderParameter : LiteralParameter where
  name := "order"
  type := "object"
  required := true
  description := "required data"
  literal := "\x7b\nExample: \x7b\x7d\x7d"
  isWord_name := ⟨by decide, by decide⟩
  isWord_type := ⟨by decide, by decide⟩
  isPhrase_description := ⟨by decide, by decide⟩
  description_ne_marker := nofun
  isLiteral := .object "\nExample: \x7b\x7d"

/-- No text at all may be a description. -/
theorem isPhrase_nil : IsPhrase [] := ⟨rfl, List.not_mem_nil⟩

/-- A list with an example and nothing else. -/
def bareParameter : LiteralParameter where
  name := "ids"
  type := "array"
  required := false
  description := ""
  literal := "[1, 2]"
  isWord_name := ⟨by decide, by decide⟩
  isWord_type := ⟨by decide, by decide⟩
  isPhrase_description := isPhrase_nil
  description_ne_marker := by decide
  isLiteral := .array "1, 2"

/-- The first is read as it was meant. Of the second all is taken for prose. -/
theorem parseParameter_order_bare :
    parseParameter "bodyParam"
          "order object required required data\nExample: \x7b\nExample: \x7b\x7d\x7d"
        = .ok ⟨"order", "object", true, "required data", some (.str "\x7b\nExample: \x7b\x7d\x7d"),
            none⟩ ∧
      parseParameter "bodyParam" "ids array\nExample: [1, 2]"
        = .ok ⟨"ids", "array", false, "Example: [1, 2]", none, none⟩ := by
  have horder : ("order object required required data\nExample: \x7b\nExample: \x7b\x7d\x7d" : Text)
      = orderParameter.text := by decide +kernel
  have hbare : ("ids array\nExample: [1, 2]" : Text) = bareParameter.text := by decide +kernel
  rw [horder, hbare]
  exact ⟨(parseParameter_literalText orderParameter "bodyParam").1.mpr (by decide),
    (parseParameter_literalText bareParameter "bodyParam").2 (by decide) (by decide)⟩

/-- An object with an example and nothing else. The example is not found. -/
theorem parseParameter_bareObject_ne :
    parseParameter "bodyParam" "meta object\nExample: \x7b\"a\": 1\x7d"
      ≠ .ok ⟨"meta", "object", false, "", some (.str "\x7b\"a\": 1\x7d"), none⟩ := by
  decide +kernel

/-! ### Parameters with a block and an example -/

/-- A parameter with a property block and an example in brackets, in the parts that are
written. -/
structure BlockParameter extends LiteralParameter where
  /-- The lines below the header of the block. -/
  block : Text
  opensBlock_block : OpensBlock block
  /-- The block does not end in a blank. -/
  isBlank_last : ∀ c ∈ block.getLast?, isBlank c = false
  /-- No line of the block starts an example with the bracket of the literal. -/
  not_hasLiteralLine : ∀ opening ∈ literal.head?, ¬ HasLiteralLine opening block

/-- A block is not empty. -/
theorem OpensBlock.ne_nil {b : Text} (h : OpensBlock b) : b ≠ [] := by
  cases h <;> simp

/-- The header is a word. -/
theorem isWord_blockMarker : IsWord blockMarker := by
  exact ⟨by decide, by decide⟩

/-- So nothing is cut in front of it. -/
theorem trimStart_blockMarker (rest : Text) :
    trimStart (blockMarker ++ rest) = blockMarker ++ rest :=
  trimStart_append (trimStart_of_trim isWord_blockMarker.trim_eq) isWord_blockMarker.1 rest

namespace BlockParameter

variable (p : BlockParameter)

/-- The header and the lines of the block. -/
def headedText : Text := blockMarker ++ .char '\n' :: p.block

/-- The text of a parameter. -/
def text : Text := p.head ++ .char '\n' :: (p.headedText ++ .char '\n' :: p.exampleText)

/-- Below a line feed above the example stands the header, or a line of the block. -/
theorem eq_or_exists_of_atop {before line : Text}
    (h : atop p.description p.headedText = before ++ .char '\n' :: line) :
    line = p.headedText ∨
      ∃ front, p.block = front ++ line ∧ ∀ c ∈ front.getLast?, c = .char '\n' := by
  -- The header has no line feed of its own, so a line below it starts in the block.
  have hheaded : ∀ {before : Text}, p.headedText = before ++ .char '\n' :: line →
      ∃ front, p.block = front ++ line ∧ ∀ c ∈ front.getLast?, c = .char '\n' := by
    intro before h
    obtain ⟨between, hbetween⟩ := exists_of_append_eq (by decide) h
    cases between with
    | nil => exact ⟨[], (List.cons.inj hbetween).2, by simp⟩
    | cons c between =>
        refine ⟨between ++ [.char '\n'], ?_, by simp⟩
        rw [(List.cons.inj hbetween).2, List.append_assoc]
        rfl
  rw [atop] at h
  split at h
  · exact .inr (hheaded h)
  · obtain ⟨between, hbetween⟩ := exists_of_append_eq p.isPhrase_description.one_line h
    cases between with
    | nil => exact .inl (List.cons.inj hbetween).2.symm
    | cons c between => exact .inr (hheaded (List.cons.inj hbetween).2)

/-- The example is cut below the block. -/
theorem cutLiteral?_atop {opening closing : CodePoint} {inner : Text}
    (h : AreBrackets p.typeName opening closing)
    (hliteral : p.literal = opening :: (inner ++ [closing])) :
    cutLiteral? opening closing (atop p.description (p.headedText ++ .char '\n' :: p.exampleText))
      = some (atop p.description p.headedText, p.literal) := by
  rw [atop_append, LiteralParameter.exampleText, hliteral]
  refine cutLiteral?_append h ?_ ?_ inner
  · intro before line hline
    rcases p.eq_or_exists_of_atop hline with rfl | ⟨front, hblock, hfront⟩
    · exact ⟨.char 'p', List.mem_append_left _ (by decide), by decide⟩
    · -- The block does not end in the line feed, so its last character is in the line.
      rcases List.eq_nil_or_concat line with rfl | ⟨start, c, rfl⟩
      · obtain ⟨c, hc⟩ := Option.ne_none_iff_exists'.mp
          (mt List.getLast?_eq_none_iff.mp p.opensBlock_block.ne_nil)
        rw [List.append_nil] at hblock
        have hblank := p.isBlank_last c hc
        rw [hfront c (hblock ▸ hc)] at hblank
        exact absurd hblank (by decide)
      · exact ⟨c, by simp, p.isBlank_last c (by simp [hblock])⟩
  · intro before line hline
    rcases p.eq_or_exists_of_atop hline with rfl | ⟨front, hblock, hfront⟩
    -- The header is another word than the marker of an example.
    · rw [startsLiteral_iff h.isBlank_opening, headedText, trimStart_blockMarker]
      rintro ⟨after, hafter, -⟩
      exact nomatch hafter
    · intro hstarts
      exact p.not_hasLiteralLine opening (by rw [hliteral]; rfl)
        ⟨front, line, hblock, hfront, hstarts⟩

end BlockParameter

/-- A block and an example below it are read apart: the properties are those of the block alone,
the example is the literal as it is written, and the reader fails where that of the block does. -/
theorem parseParameter_blockText (p : BlockParameter) (tag : Text) :
    parseParameter tag p.text = (parseBlock tag p.block).map fun properties =>
      ⟨p.name, p.typeName, p.required, p.description, some (.str p.literal), some properties⟩ := by
  obtain ⟨opening, closing, inner, hliteral, hbrackets⟩ := p.isLiteral.exists_brackets
  have htrim : trim (p.headedText ++ .char '\n' :: p.exampleText)
      = p.headedText ++ .char '\n' :: p.exampleText := by
    have h := trim_append isWord_blockMarker.trim_eq isWord_blockMarker.1 p.trim_exampleText
      p.exampleText_ne_nil (.char '\n' :: (p.block ++ [.char '\n']))
    simpa [BlockParameter.headedText] using h
  -- Below the head stands the header, which is no marker of a required parameter.
  have hmarker : (takeToken (p.headedText ++ .char '\n' :: p.exampleText)).1 ≠ requiredMarker := by
    rw [BlockParameter.headedText, List.append_assoc, List.cons_append,
      isWord_blockMarker.takeToken_append (by decide)]
    show blockMarker ≠ requiredMarker
    decide
  obtain ⟨prose, hprose, hsplit⟩ := splitBlock_atop p.isPhrase_description p.opensBlock_block tag
  rw [BlockParameter.text, p.parseParameter_head tag htrim (by simp) hmarker,
    LiteralParameter.typeName, parseDescription_eq hbrackets, p.cutLiteral?_atop hbrackets hliteral]
  dsimp only
  rw [BlockParameter.headedText, hsplit, hliteral, hbrackets.trim_eq]
  cases parseBlock tag p.block with
  | error e => rfl
  | ok properties =>
      show Except.ok (ParameterTag.mk _ _ _ (trim prose) _ _) = _
      rw [hprose]
      rfl

/-- A parameter with a header and a marker in its block, and with an example inside of its
example. -/
def sizedParameter : BlockParameter where
  name := "box"
  type := "object"
  required := false
  description := "properties:"
  literal := "\x7b\nExample: \x7b\x7d\x7d"
  isWord_name := ⟨by decide, by decide⟩
  isWord_type := ⟨by decide, by decide⟩
  isPhrase_description := ⟨by decide, by decide⟩
  description_ne_marker := by decide
  isLiteral := .object "\nExample: \x7b\x7d"
  block := "\n  a:\n    properties:\n      Example: 5"
  opensBlock_block := opensBlock_of_startsIndented (by decide +kernel)
  isBlank_last := by decide
  not_hasLiteralLine := by
    intro opening hopening
    obtain rfl := Option.some.inj hopening
    rw [hasLiteralLine_iff (by decide)]
    decide +kernel

/-- It is read as it was meant. -/
theorem parseParameter_sized :
    parseParameter "bodyParam" ("box object properties:\nproperties:\n\n  a:\n" ++
        "    properties:\n      Example: 5\nExample: \x7b\nExample: \x7b\x7d\x7d")
      = .ok ⟨"box", "object", false, "properties:", some (.str "\x7b\nExample: \x7b\x7d\x7d"),
          some [(.str "a", .object [("properties", .object [("Example", .int 5)])])]⟩ := by
  have hblock : parseBlock "bodyParam" sizedParameter.block
      = .ok [(.str "a", .object [("properties", .object [("Example", .int 5)])])] := by
    decide +kernel
  have htext : ("box object properties:\nproperties:\n\n  a:\n" ++
        "    properties:\n      Example: 5\nExample: \x7b\nExample: \x7b\x7d\x7d" : Text)
      = sizedParameter.text := by
    decide +kernel
  rw [htext, parseParameter_blockText sizedParameter "bodyParam", hblock]
  rfl

end RouteDocs.Tag
