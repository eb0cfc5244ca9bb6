import RouteDocs.Proofs.NumberLiteral
import RouteDocs.Proofs.Shorthand

/-!
# `RouteDocs.Proofs.ParameterText`: parameters of scalar types read back

An author writes a parameter of a scalar type as a name, a type, the marker if it is required,
prose, and an example behind its own marker. `ScalarParameter` has these parts and what is asked
of each, and `ScalarParameter.text` joins them with single spaces.

The reader has to find the boundaries again. `splitParameter_text` says that the words in front
are found, and that prose is not taken for the marker. `takeInline_prose` says that the example is
found where it starts, at the leftmost marker that stands at the start or behind a blank; a
marker inside of the example comes later. `parseParameter_scalarText` puts both together: the
parts come back, with the example cast to the type, and the reader fails exactly where the cast
does. `castExample_eq_error_iff` says where that is, by the literals of numbers.
-/

set_option autoImplicit false

namespace RouteDocs.Tag

open Text Number

/-! ### Parts and text -/

/-- Words on one line, without blanks around them. -/
structure IsPhrase (s : Text) : Prop where
  /-- There are no blanks at either end. -/
  trimmed : trim s = s
  /-- It is one line. -/
  one_line : .char '\n' ∉ s

/-- The marker of an example stands at the start of a text or behind a blank. -/
def MarksExample (s : Text) : Prop :=
  ∃ before after, s = before ++ (exampleMarker ++ after) ∧ ∀ c ∈ before.getLast?, isBlank c = true

/-- A marker is looked for at every place of the text. -/
instance (s : Text) : Decidable (MarksExample s) :=
  decidable_of_iff (∃ k, k < s.length + 1 ∧ exampleMarker <+: s.drop k ∧
      ∀ c ∈ (s.take k).getLast?, isBlank c = true) <| by
    constructor
    · intro h
      obtain ⟨k, -, hmarker, hblank⟩ := h
      obtain ⟨after, hafter⟩ := hmarker
      exact ⟨s.take k, after, by rw [hafter, List.take_append_drop], hblank⟩
    · intro h
      obtain ⟨before, after, rfl, hblank⟩ := h
      refine ⟨before.length, by simp only [List.length_append]; omega, ?_, ?_⟩
      · rw [List.drop_left]
        exact List.prefix_append exampleMarker after
      · rwa [List.take_left]

/-- A parameter of a scalar type, in the parts that are written. -/
structure ScalarParameter where
  /-- The name. -/
  name : Text
  /-- The word for the type. -/
  type : Text
  /-- Whether it has to be given. -/
  required : Bool
  /-- The prose, which may be empty. -/
  description : Text
  /-- The example, as text. -/
  sample : Text
  isWord_name : IsWord name
  isWord_type : IsWord type
  /-- Examples of objects are written in another way. -/
  type_ne_object : normalizeType type ≠ CanonicalType.object.name
  /-- Examples of lists are written in another way. -/
  type_ne_array : normalizeType type ≠ CanonicalType.array.name
  isPhrase_description : IsPhrase description
  /-- The prose does not start an example. -/
  not_marksExample : ¬ MarksExample description
  /-- The prose does not start with the word that makes a parameter required. -/
  description_ne_marker : required = false → (takeToken description).1 ≠ requiredMarker
  isPhrase_sample : IsPhrase sample
  sample_ne_nil : sample ≠ []

/-- Texts with single spaces between them. -/
def spaced (parts : List Text) : Text := (" " : Text).intercalate parts

namespace ScalarParameter

/-- The text of a parameter. -/
def text (p : ScalarParameter) : Text :=
  spaced ([p.name, p.type] ++ (if p.required then [requiredMarker] else []) ++
    (if p.description = [] then [] else [p.description]) ++ [exampleMarker, p.sample])

/-- The type that the parameter has. -/
def typeName (p : ScalarParameter) : Text := normalizeType p.type

/-- The text behind the type and the marker of a required parameter. -/
def prose (p : ScalarParameter) : Text :=
  spaced ((if p.description = [] then [] else [p.description]) ++ [exampleMarker, p.sample])

end ScalarParameter

/-- The first part stands in front of a space and the others. -/
theorem spaced_cons_cons (s t : Text) (parts : List Text) :
    spaced (s :: t :: parts) = s ++ .char ' ' :: spaced (t :: parts) := by
  rw [spaced, List.intercalate_cons_cons, List.append_assoc]
  rfl

/-- A single part has no space around it. -/
theorem spaced_singleton (s : Text) : spaced [s] = s := List.intercalate_singleton

/-- The marker for required parameters is a word. -/
theorem isWord_requiredMarker : IsWord requiredMarker := by
  exact ⟨by decide, by decide⟩

/-- So is the one for an example. -/
theorem isWord_exampleMarker : IsWord exampleMarker := by
  exact ⟨by decide, by decide⟩

/-- The two words in front are found, whatever blanks follow them, and the marker if it comes
next. -/
theorem splitParameter_words (tag : Text) {name type : Text} (hname : IsWord name)
    (htype : IsWord type) {b : CodePoint} (hb : isBlank b = true) (rest : Text) :
    splitParameter tag (name ++ .char ' ' :: (type ++ b :: rest))
      = .ok ⟨name, type, (takeToken rest).1 == requiredMarker,
          trim (if (takeToken rest).1 == requiredMarker then (takeToken rest).2 else rest)⟩ := by
  have hspace : isBlank (.char ' ') = true := by decide
  have hstart : trimStart (type ++ b :: rest) = type ++ b :: rest :=
    trimStart_append (trimStart_of_trim htype.trim_eq) htype.1 _
  rw [splitParameter, words_append hname hspace, words_append htype hb, if_neg (by simp)]
  simp only [hname.takeToken_append hspace, hstart, htype.takeToken_append hb, takeToken_trimStart]
  split
  · rfl
  · rw [trim_trimStart]

namespace ScalarParameter

variable (p : ScalarParameter)

/-- What is written behind the type and the marker: the description, if there is any, and
the example. -/
theorem prose_eq : p.prose = if p.description = [] then exampleMarker ++ .char ' ' :: p.sample
    else p.description ++ .char ' ' :: (exampleMarker ++ .char ' ' :: p.sample) := by
  rw [prose]
  split
  · show spaced [exampleMarker, p.sample] = _
    rw [spaced_cons_cons, spaced_singleton]
  · show spaced [p.description, exampleMarker, p.sample] = _
    rw [spaced_cons_cons, spaced_cons_cons, spaced_singleton]

/-- The text of the parameter, word by word. -/
theorem text_eq : p.text = p.name ++ .char ' ' :: (p.type ++ .char ' ' ::
    (if p.required then requiredMarker ++ .char ' ' :: p.prose else p.prose)) := by
  have hprose : ∃ first others, (if p.description = [] then [] else [p.description]) ++
      [exampleMarker, p.sample] = first :: others := by
    split
    · exact ⟨_, _, rfl⟩
    · exact ⟨_, _, rfl⟩
  rw [text, prose, List.append_assoc]
  obtain ⟨first, others, hparts⟩ := hprose
  rw [hparts]
  cases p.required with
  | false =>
      show spaced (p.name :: p.type :: first :: others) = _
      rw [spaced_cons_cons, spaced_cons_cons]
      rfl
  | true =>
      show spaced (p.name :: p.type :: requiredMarker :: first :: others) = _
      rw [spaced_cons_cons, spaced_cons_cons, spaced_cons_cons]
      rfl

/-- The prose starts and ends with a word. -/
theorem trim_prose : trim p.prose = p.prose := by
  rw [prose_eq]
  split
  · have h := trim_append isWord_exampleMarker.trim_eq isWord_exampleMarker.1
      p.isPhrase_sample.trimmed p.sample_ne_nil [.char ' ']
    rwa [List.append_assoc] at h
  · rename_i hne
    have h := trim_append p.isPhrase_description.trimmed hne p.isPhrase_sample.trimmed
      p.sample_ne_nil (.char ' ' :: (exampleMarker ++ [.char ' ']))
    simpa using h

/-- The prose is on one line. -/
theorem lineFeed_not_mem_prose : .char '\n' ∉ p.prose := by
  have hmarker : .char '\n' ∉ exampleMarker := by decide
  have hspace : CodePoint.char '\n' ≠ .char ' ' := by decide
  rw [prose_eq]
  split
  · simp [hmarker, p.isPhrase_sample.one_line]
  · simp [hmarker, p.isPhrase_sample.one_line, p.isPhrase_description.one_line]

/-- Prose is not taken for the marker of a required parameter. -/
theorem takeToken_prose (h : p.required = false) : (takeToken p.prose).1 ≠ requiredMarker := by
  have hblank : isBlank (.char ' ') = true := by decide
  rw [prose_eq]
  split
  · rw [isWord_exampleMarker.takeToken_append hblank]
    show exampleMarker ≠ requiredMarker
    decide
  · rename_i hne
    rw [takeToken_append (trimStart_of_trim p.isPhrase_description.trimmed) hne hblank]
    exact p.description_ne_marker h

/-- The words in front of the prose are found. -/
theorem splitParameter_text (tag : Text) :
    splitParameter tag p.text = .ok ⟨p.name, p.type, p.required, p.prose⟩ := by
  have hblank : isBlank (.char ' ') = true := by decide
  have hprose := trimStart_of_trim p.trim_prose
  rw [text_eq, splitParameter_words tag p.isWord_name p.isWord_type hblank]
  cases hrequired : p.required with
  | true =>
      simp only [if_true, isWord_requiredMarker.takeToken_append hblank, beq_self_eq_true, hprose,
        p.trim_prose]
  | false =>
      have hmarker : ((takeToken p.prose).1 == requiredMarker) = false := by
        simpa using p.takeToken_prose hrequired
      simp only [Bool.false_eq_true, if_false, hmarker, p.trim_prose]

end ScalarParameter

/-! ### The example in the prose -/

/-- A text that starts with another one is left with the rest. -/
theorem dropStart?_append (start rest : Text) : dropStart? start (start ++ rest) = some rest := by
  induction start with
  | nil => rfl
  | cons c start ih => rw [List.cons_append, dropStart?, if_pos rfl, ih]

/-- A start without a character is found before that character, or not at all. -/
theorem dropStart?_eq_none {start s : Text} {b : CodePoint} (hb : b ∉ start)
    (hs : ¬ start <+: s) (t : Text) : dropStart? start (s ++ b :: t) = none := by
  cases h : dropStart? start (s ++ b :: t) with
  | none => rfl
  | some rest =>
      have heq := eq_append_of_dropStart? h
      obtain ⟨middle, hstart, hrest⟩ | ⟨middle, hs', -⟩ := List.append_eq_append_iff.mp heq
      · cases middle with
        | nil =>
            rw [List.append_nil] at hstart
            exact absurd (hstart ▸ List.prefix_rfl) hs
        | cons c middle =>
            obtain ⟨rfl, -⟩ := List.cons.inj hrest
            rw [hstart] at hb
            simp at hb
      · exact absurd ⟨middle, hs'.symm⟩ hs

/-- An example is cut at its marker if no marker stands before it. The induction is on the prose;
a marker at its very start counts only in the first step. -/
theorem cutInline?_append {s : Text} {start : Bool}
    (hstart : start = true → ¬ exampleMarker <+: s)
    (hinside : ∀ before b after, s = before ++ b :: (exampleMarker ++ after) → isBlank b = false)
    (rest : Text) :
    cutInline? start (s ++ .char ' ' :: (exampleMarker ++ rest))
      = some (s, rest.takeWhile (· ≠ (.char '\n' : CodePoint)),
          rest.dropWhile (· ≠ (.char '\n' : CodePoint))) := by
  have hspace : .char ' ' ∉ exampleMarker := by decide
  induction s generalizing start with
  | nil =>
      have hnone : (if start = true then
          dropStart? exampleMarker (.char ' ' :: (exampleMarker ++ rest)) else none) = none := by
        split
        · exact dropStart?_eq_none (s := []) hspace (by decide) _
        · rfl
      have hblank : isBlank (.char ' ') = true := by decide
      rw [List.nil_append, cutInline?, hnone, if_pos hblank, dropStart?_append]
  | cons c s ih =>
      have hnone : (if start = true then
          dropStart? exampleMarker (c :: (s ++ .char ' ' :: (exampleMarker ++ rest))) else none)
            = none := by
        split
        · rename_i htrue
          exact dropStart?_eq_none (s := c :: s) hspace (hstart htrue) _
        · rfl
      -- A marker right behind `c` would stand in the prose, behind a blank.
      have hafter : (if isBlank c = true then
          dropStart? exampleMarker (s ++ .char ' ' :: (exampleMarker ++ rest)) else none) = none := by
        split
        · rename_i hc
          apply dropStart?_eq_none hspace
          intro hprefix
          obtain ⟨after, hafter⟩ := hprefix
          rw [hinside [] c after (by rw [← hafter]; rfl)] at hc
          cases hc
        · rfl
      have htail : cutInline? false (s ++ .char ' ' :: (exampleMarker ++ rest))
          = some (s, rest.takeWhile (· ≠ (.char '\n' : CodePoint)),
              rest.dropWhile (· ≠ (.char '\n' : CodePoint))) := by
        apply ih
        · exact nofun
        · intro before b after hs
          exact hinside (c :: before) b after (by rw [hs]; rfl)
      rw [List.cons_append, cutInline?, hnone, hafter, htail]
      rfl

/-- The prose is cut behind the description, and the example takes the rest of it. -/
theorem ScalarParameter.cutInline?_prose (p : ScalarParameter) :
    cutInline? true p.prose = some (p.description, .char ' ' :: p.sample, []) := by
  have hline : .char '\n' ∉ (.char ' ' :: p.sample : Text) := by
    simp [p.isPhrase_sample.one_line]
  rw [prose_eq]
  split
  · -- Without a description the marker comes first, and that is allowed at the start only.
    rename_i hnil
    rw [hnil]
    show cutInline? true (.char 'E' :: (("xample:" : Text) ++ .char ' ' :: p.sample)) = _
    have hstart : dropStart? exampleMarker
        (.char 'E' :: (("xample:" : Text) ++ .char ' ' :: p.sample)) = some (.char ' ' :: p.sample) :=
      dropStart?_append exampleMarker _
    rw [cutInline?, if_pos rfl, hstart]
    show some ([], _, _) = _
    rw [takeWhile_ne_eq_self hline, dropWhile_ne_eq_nil hline]
  · -- The description has no marker, so the first one found is the one behind it.
    rw [cutInline?_append, takeWhile_ne_eq_self hline, dropWhile_ne_eq_nil hline]
    · intro _ hprefix
      obtain ⟨after, hafter⟩ := hprefix
      exact p.not_marksExample ⟨[], after, by rw [← hafter]; rfl, by simp⟩
    · intro before b after hs
      rw [Bool.eq_false_iff]
      intro hb
      refine p.not_marksExample ⟨before ++ [b], after, by rw [hs, List.append_assoc]; rfl, ?_⟩
      intro c hc
      rw [List.getLast?_concat, Option.mem_some_iff] at hc
      rw [← hc]
      exact hb

/-- The prose is taken apart into the description and the example. -/
theorem ScalarParameter.takeInline_prose (p : ScalarParameter) :
    takeInline p.prose = (p.description, some p.sample) := by
  have htrim : trim (.char ' ' :: p.sample) = p.sample := by
    rw [trim, trimStart_cons_blank (by decide), ← trim, p.isPhrase_sample.trimmed]
  rw [takeInline, p.cutInline?_prose]
  simp only [htrim, List.append_nil, p.isPhrase_description.trimmed, List.isEmpty_iff,
    p.sample_ne_nil, if_false]

/-! ### Casting the example -/

/-- Every type is found under its name, and under no other text. -/
theorem ofName?_eq_some_iff {type : Text} {t : CanonicalType} :
    CanonicalType.ofName? type = some t ↔ type = t.name := by
  constructor
  · intro h
    have hname : t.name = type := by simpa using List.find?_some h
    exact hname.symm
  · intro h
    rw [h]
    cases t <;> decide

/-- Only objects and lists have brackets. -/
theorem literalBrackets?_eq_none {type : Text} (hobject : type ≠ CanonicalType.object.name)
    (harray : type ≠ CanonicalType.array.name) : literalBrackets? type = none := by
  rw [literalBrackets?]
  split
  · rename_i heq
    exact absurd (ofName?_eq_some_iff.mp heq) hobject
  · rename_i heq
    exact absurd (ofName?_eq_some_iff.mp heq) harray
  · rfl

/-- A text that is no literal of its type, which is numeric. -/
def NoLiteral (type text : Text) : Prop :=
  type = CanonicalType.integer.name ∧ (∀ i, ¬ IsIntLiteral text i) ∨
    (type = CanonicalType.number.name ∨ type = CanonicalType.float.name) ∧ ¬ IsFloatLiteral text

/-- What is no literal is not read. -/
theorem noLiteral_iff (type text : Text) : NoLiteral type text ↔
    CanonicalType.ofName? type = some .integer ∧ readInt? text = none ∨
      (CanonicalType.ofName? type = some .number ∨ CanonicalType.ofName? type = some .float) ∧
        readFloat? text = none := by
  have hwhole : (∀ i, ¬ IsIntLiteral text i) ↔ readInt? text = none := by
    rw [Option.eq_none_iff_forall_ne_some]
    exact forall_congr' fun i => not_congr readInt?_eq_some_iff.symm
  have hfraction : ¬ IsFloatLiteral text ↔ readFloat? text = none := by
    rw [← isSome_readFloat?_iff, Option.not_isSome_iff_eq_none]
  rw [NoLiteral, hwhole, hfraction, ofName?_eq_some_iff, ofName?_eq_some_iff, ofName?_eq_some_iff]

/-- A cast fails for texts that are no literals of a numeric type, and for no others. -/
theorem castExample_eq_error_iff {tag type text : Text} (h : trim text = text) (e : Error) :
    castExample tag type text = .error e ↔
      NoLiteral type text ∧ e = .malformedTag tag (.badExample text type) := by
  rw [castExample, h, noLiteral_iff]
  cases hname : CanonicalType.ofName? type with
  | none => simp
  | some t =>
      cases t with
      | integer => cases readInt? text <;> simp [eq_comm]
      | number => cases readFloat? text <;> simp [eq_comm]
      | float => cases readFloat? text <;> simp [eq_comm]
      | _ => simp

/-- The numeral of a whole number is cast to it. -/
theorem castExample_intText (tag : Text) {i : Int} (h : (natText i.natAbs).length ≤ maxDigits)
    (htrim : trim (intText i) = intText i) :
    castExample tag CanonicalType.integer.name (intText i) = .ok (.int i) := by
  have hname : CanonicalType.ofName? CanonicalType.integer.name = some .integer := by decide
  rw [castExample, htrim, hname]
  simp only [readInt?_eq_some_iff.mpr (isIntLiteral_intText h)]

/-! ### Parameters -/

/-- A parameter of a scalar type is read as its parts, with the example cast to the type. The
reader fails where the cast does, which is where the example is no literal of a numeric type;
and a numeral of at most `maxDigits` digits is an example for its whole number. -/
theorem parseParameter_scalarText (p : ScalarParameter) (tag : Text) :
    parseParameter tag p.text
        = (castExample tag p.typeName p.sample).map (fun s =>
            ⟨p.name, p.typeName, p.required, p.description, some s, none⟩) ∧
      (∀ e, parseParameter tag p.text = .error e ↔
        NoLiteral p.typeName p.sample ∧ e = .malformedTag tag (.badExample p.sample p.typeName)) ∧
      (∀ i : Int, p.typeName = CanonicalType.integer.name → p.sample = intText i →
        (natText i.natAbs).length ≤ maxDigits →
        parseParameter tag p.text
          = .ok ⟨p.name, p.typeName, p.required, p.description, some (.int i), none⟩) := by
  have hbrackets : literalBrackets? p.typeName = none :=
    literalBrackets?_eq_none p.type_ne_object p.type_ne_array
  have hread : parseParameter tag p.text
      = (castExample tag p.typeName p.sample).map (fun s =>
          ⟨p.name, p.typeName, p.required, p.description, some s, none⟩) := by
    have htype : normalizeType p.type = p.typeName := rfl
    simp only [parseParameter, parseParameterWith, p.splitParameter_text, Yaml.ok_bind, htype,
      parseDescriptionWith, hbrackets, splitBlockWith_eq _ p.lineFeed_not_mem_prose,
      p.takeInline_prose, p.isPhrase_description.trimmed]
    cases castExample tag p.typeName p.sample <;> rfl
  refine ⟨hread, ?_, ?_⟩
  · intro e
    rw [hread, ← castExample_eq_error_iff p.isPhrase_sample.trimmed]
    cases castExample tag p.typeName p.sample with
    | error e' => simp [Except.map]
    | ok s => simp [Except.map]
  · intro i htype hsample hdigits
    have htrim := p.isPhrase_sample.trimmed
    rw [hsample] at htrim
    rw [hread, htype, hsample, castExample_intText tag hdigits htrim]
    rfl

/-- A parameter with both markers inside of its prose, and one inside of its example. -/
def hintParameter : ScalarParameter where
  name := "hint"
  type := "str"
  required := false
  description := "Not required, see #Example:"
  sample := "say Example: 1"
  isWord_name := ⟨by decide, by decide⟩
  isWord_type := ⟨by decide, by decide⟩
  type_ne_object := by decide
  type_ne_array := by decide
  isPhrase_description := ⟨by decide, by decide⟩
  not_marksExample := by decide
  description_ne_marker := by decide
  isPhrase_sample := ⟨by decide, by decide⟩
  sample_ne_nil := by decide

/-- A required parameter without prose. -/
def shiftParameter : ScalarParameter where
  name := "shift"
  type := "int"
  required := true
  description := ""
  sample := "-42"
  isWord_name := ⟨by decide, by decide⟩
  isWord_type := ⟨by decide, by decide⟩
  type_ne_object := by decide
  type_ne_array := by decide
  isPhrase_description := ⟨by decide, by decide⟩
  not_marksExample := by decide
  description_ne_marker := by decide
  isPhrase_sample := ⟨by decide, by decide⟩
  sample_ne_nil := by decide

/-- Both parameters come back. -/
theorem parseParameter_hint_shift :
    parseParameter "queryParam" "hint str Not required, see #Example: Example: say Example: 1"
        = .ok ⟨"hint", "str", false, "Not required, see #Example:", some (.str "say Example: 1"),
            none⟩ ∧
      parseParameter "queryParam" "shift int required Example: -42"
        = .ok ⟨"shift", "integer", true, "", some (.int (-42)), none⟩ :=
  ⟨(parseParameter_scalarText hintParameter "queryParam").1,
    (parseParameter_scalarText shiftParameter "queryParam").2.2 (-42) (by decide) (by decide)
      (by decide)⟩

end RouteDocs.Tag
