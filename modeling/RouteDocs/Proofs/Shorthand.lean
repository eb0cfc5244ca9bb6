import RouteDocs.Proofs.FlowContent
import RouteDocs.Proofs.ReadingFaults
import RouteDocs.Proofs.Words

/-!
# `RouteDocs.Proofs.Shorthand`: shorthand lines against the parameters they stand for

A shorthand line of a property block is read as a parameter text. Its parameter is written as
a line of JSON, and this line is read as YAML. `IsShorthandLine.parseBlock_eq` says what comes
out for every line: the name and the schema of the parameter `asRead`, or a report where the
name is too long for a key of YAML.

The two formats do not agree on everything, so `asRead` is not the identity. A character beyond
the basic plane comes out as two surrogates, and a float without a point as a text.
`parseBlock_eq_map_iff` says that these, and long names, are the only differences: a line keeps
what it says if and only if its parameter `Survives`.
-/

set_option autoImplicit false

namespace RouteDocs

open Text

/-! ### Shorthand lines -/

namespace Tag

/-- A line that reads like a parameter text, and not like YAML. -/
structure IsShorthandLine (line : Text) : Prop where
  /-- It is a single line. -/
  unbroken : ∀ c ∈ line, isLineBreak c = false
  /-- It starts with its first word, but for spaces and tabs. -/
  flush : ∀ c ∈ (line.dropWhile isIndent).head?, isBlank c = false
  /-- There are a name and a type. -/
  two_words : 2 ≤ (words line).length
  /-- The name is no key of YAML. -/
  no_colon : .char ':' ∉ (takeToken line).1
  /-- The name has no mark of YAML in front. -/
  no_mark : ∀ c ∈ (takeToken line).1.head?, c ∉ lineMarks

/-- Indentation is of blanks. -/
theorem isBlank_of_isIndent {c : CodePoint} (h : isIndent c = true) : isBlank c = true := by
  rw [isIndent, Bool.or_eq_true, decide_eq_true_eq, decide_eq_true_eq] at h
  obtain rfl | rfl := h <;> decide

/-- Blanks in front are cut, whether the indentation is taken off first or not. -/
theorem trimStart_dropWhile_isIndent (s : Text) :
    trimStart (s.dropWhile isIndent) = trimStart s := by
  induction s with
  | nil => rfl
  | cons c s ih =>
      rw [List.dropWhile_cons]
      split
      · rename_i hc
        rw [ih, trimStart_cons_blank (isBlank_of_isIndent hc)]
      · rfl

namespace IsShorthandLine

variable {line : Text}

/-- The line is one line. -/
theorem no_lineFeed (h : IsShorthandLine line) : .char '\n' ∉ line := by
  intro hmem
  exact absurd (h.unbroken _ hmem) (by decide)

/-- The blanks in front of the line are its indentation. -/
theorem trimStart_eq (h : IsShorthandLine line) : trimStart line = line.dropWhile isIndent := by
  rw [← trimStart_dropWhile_isIndent]
  have hflush := h.flush
  cases hline : line.dropWhile isIndent with
  | nil => rfl
  | cons c s =>
      rw [hline] at hflush
      exact trimStart_cons_of_not (hflush c rfl) s

/-- The line has more than blanks. -/
theorem trim_ne_nil (h : IsShorthandLine line) : trim line ≠ [] := by
  intro hnil
  have hwords := h.two_words
  rw [← words_trim, hnil] at hwords
  exact absurd hwords (by decide)

/-- The line is taken for shorthand when its blanks are off. -/
theorem isShorthand_trim (h : IsShorthandLine line) : isShorthand (trim line) = true := by
  have hfirst : (takeToken (trim line)).1 = (takeToken line).1 := by rw [takeToken_trim]
  have hcolon := h.no_colon
  have hmark := h.no_mark
  have htwo := h.two_words
  rw [← hfirst] at hcolon hmark
  rw [← words_trim] at htwo
  have hstart : trimStart (trim line) = trim line := by
    rw [trim, trimStart_trimEnd, trim, trimStart, trimStart, List.dropWhile_idempotent]
  cases hline : trim line with
  | nil => exact absurd hline h.trim_ne_nil
  | cons c s =>
      rw [hline] at hcolon hmark htwo hstart
      have hc : isBlank c = false :=
        Bool.eq_false_iff.mpr (List.dropWhile_eq_self_iff.mp hstart (Nat.zero_lt_succ _))
      have hhead : (takeToken (c :: s)).1.head? = some c := by
        simp [takeToken, hstart, hc]
      rw [hhead] at hmark
      simp [isShorthand, hmark, hcolon, htwo]

end IsShorthandLine

/-! ### The parameter of a line -/

section

variable {text : Text}

/-- Blanks around a text of two words or more have no part in how it is split. -/
theorem splitParameter_trim (tag : Text) (h : 2 ≤ (words text).length) :
    splitParameter tag (trim text) = splitParameter tag text := by
  unfold splitParameter
  rw [words_trim, if_neg (by omega), if_neg (by omega)]
  simp only [takeToken_trim, takeToken_trimEnd]
  split
  · rw [trim_trimEnd]
  · rw [trim_trimEnd]

/-- A text of one line has no literal example, which stands behind a line feed. -/
theorem cutLiteral?_eq_none (opening closing : CodePoint) (h : .char '\n' ∉ text) :
    cutLiteral? opening closing text = none := by
  induction text with
  | nil => rfl
  | cons c cs ih =>
      rw [List.mem_cons, not_or] at h
      rw [cutLiteral?, if_neg (Ne.symm h.1), ih h.2]
      rfl

/-- A text that has a block in it has a line feed, behind the header. -/
theorem lineFeed_mem_of_cutBlock? {lineStart : Bool} {prose block : Text}
    (h : cutBlock? lineStart text = some (prose, block)) : .char '\n' ∈ text := by
  obtain ⟨gap, -, hpart⟩ := headed_of_cutBlock? h
  exact hpart.subset (by simp)

/-- So a text of one line has no block. -/
theorem splitBlockWith_eq (readBlock : Text → Except Error Properties) (h : .char '\n' ∉ text) :
    splitBlockWith readBlock text = .ok (text, none) := by
  rw [splitBlockWith]
  cases hcut : cutBlock? true text with
  | none => rfl
  | some r => exact absurd (lineFeed_mem_of_cutBlock? hcut) h

/-- On a single line no block is found, so nothing asks for its reader. -/
theorem parseDescriptionWith_congr (readBlock other : Text → Except Error Properties)
    (tag type : Text) (h : .char '\n' ∉ text) :
    parseDescriptionWith readBlock tag type text = parseDescriptionWith other tag type text := by
  simp only [parseDescriptionWith, cutLiteral?_eq_none _ _ h, splitBlockWith_eq _ h, Yaml.ok_bind]

/-- The description is a part of the text. -/
theorem description_isPart {tag : Text} {head : ParameterHead}
    (h : splitParameter tag text = .ok head) : head.description <:+: text := by
  have hends := splitParameter_ends tag text
  rw [h] at hends
  cases hends with
  | ok hpart => exact hpart

/-- On a single line no reader of blocks is missed. -/
theorem parseLine_eq_parseParameter (tag : Text) (h : .char '\n' ∉ text) :
    parseLine tag text = parseParameter tag text := by
  rw [parseLine, parseParameter, parseParameterWith, parseParameterWith]
  cases hsplit : splitParameter tag text with
  | error e => rfl
  | ok head =>
      have hfeed : .char '\n' ∉ head.description :=
        fun hmem => h ((description_isPart hsplit).subset hmem)
      simp only [Yaml.ok_bind, parseDescriptionWith_congr _ (parseBlock tag) tag _ hfeed]

/-- A line is read as a parameter tag is, without the blanks around it. -/
theorem IsShorthandLine.parseLine_trim {line : Text} (h : IsShorthandLine line) (tag : Text) :
    parseLine tag (trim line) = parseParameter tag line := by
  have hfeed : .char '\n' ∉ trim line :=
    fun hmem => h.no_lineFeed ((trim_isPart line).subset hmem)
  rw [parseLine_eq_parseParameter tag hfeed, parseParameter, parseParameter, parseParameterWith,
    parseParameterWith, splitParameter_trim tag h.two_words]

end

/-! ### The type of a line -/

/-- A word stays one when it is written and read: surrogates are no blanks. -/
theorem isBlank_of_mem_asUnits {word : Text} (h : ∀ c ∈ word, isBlank c = false) {d : CodePoint}
    (hd : d ∈ word.asUnits) : isBlank d = false := by
  obtain ⟨c, hc, hd⟩ := List.mem_flatMap.mp hd
  by_cases hplane : c.toNat < 0x10000
  · rw [CodePoint.asUnits_of_lt hplane, List.mem_singleton] at hd
    rw [hd]
    exact h c hc
  · have hsurrogate := CodePoint.surrogate_of_mem_asUnits (by omega) hd
    have hblanks : ∀ range ∈ blankRanges, range.2 < 0xd800 := by decide
    rw [isBlank, within, List.any_eq_false]
    intro range hrange
    have hlast := hblanks range hrange
    simp only [Bool.and_eq_true, decide_eq_true_eq]
    omega

/-- A word for a type is given its canonical name, or stays. -/
theorem normalizeType_cases {word : Text} (h : ∀ c ∈ word, isBlank c = false) :
    (∃ t : CanonicalType, normalizeType word = t.name) ∨
      normalizeType word = word ∧ word ≠ [] ∧ typeSynonyms.lookup word = none := by
  rw [normalizeType, trim_eq_self h]
  split
  · exact .inl ⟨_, rfl⟩
  · rename_i hne
    split
    · exact .inl ⟨_, rfl⟩
    · rename_i hlookup
      exact .inr ⟨rfl, hne, hlookup⟩

/-- A normalised type has no other spelling, also not after it was written and read. -/
theorem normalizeType_asUnits {word : Text} (h : ∀ c ∈ word, isBlank c = false) :
    normalizeType (normalizeType word).asUnits = (normalizeType word).asUnits := by
  obtain ⟨t, ht⟩ | ⟨hword, hne, hlookup⟩ := normalizeType_cases h
  · rw [ht]
    cases t <;> decide
  · have hnames : ∀ e ∈ typeSynonyms, ∀ c ∈ e.1, c.toNat < 0xd800 := by decide
    have hother : typeSynonyms.lookup word.asUnits = none := by
      rw [List.lookup_eq_none_iff] at hlookup ⊢
      intro e he
      have hne : word ≠ e.1 := by simpa using hlookup e he
      simpa using fun heq => hne (eq_of_asUnits_eq heq (hnames e he))
    have hunits : word.asUnits ≠ Text.ofString "" :=
      fun heq => hne (eq_of_asUnits_eq heq (by decide))
    rw [hword, normalizeType, trim_eq_self fun c => isBlank_of_mem_asUnits h, if_neg hunits, hother]

/-- The type of a line is a normal one already, in UTF-16 too, so reading the schema leaves it. -/
theorem normalizeType_type {readBlock : Text → Except Error Properties} {tag text : Text}
    {p : ParameterTag} (h : parseParameterWith readBlock tag text = .ok p) :
    normalizeType p.type.asUnits = p.type.asUnits := by
  have htype : Ends (fun head => ∀ c ∈ head.type, isBlank c = false) (fun _ => True)
      (splitParameter tag text) := by
    unfold splitParameter
    split
    · exact .error trivial
    · exact .ok fun c hc => by simpa using List.mem_takeWhile_imp hc
  have hall : Ends (fun p => normalizeType p.type.asUnits = p.type.asUnits) (fun _ => True)
      (parseParameterWith readBlock tag text) := by
    refine htype.bind fun head hhead => ?_
    dsimp only
    cases parseDescriptionWith readBlock tag (normalizeType head.type) head.description with
    | error e => exact .error trivial
    | ok d => exact .ok (normalizeType_asUnits hhead)
  rw [h] at hall
  cases hall with
  | ok hp => exact hp

/-! ### The schema of a line -/

/-- The fields of the schema that a line stands for. -/
def leafFields (p : ParameterTag) : List (String × Scalar) :=
  [("type", .str p.type), ("description", .str p.description)] ++
    (if p.required then [("required", .bool true)] else []) ++
    p.sample.toList.map fun s => ("example", s)

/-- The schema of a line is the mapping of its fields. -/
theorem leafSchema_eq (p : ParameterTag) :
    leafSchema p = .map ((leafFields p).map fun f => (.str f.1, .scalar f.2)) := by
  rw [leafSchema, leafFields]
  cases p.required <;> cases p.sample <;> rfl

/-- A parameter as it comes out of its line, which is written as JSON and read as YAML. -/
def ParameterTag.asRead (p : ParameterTag) : ParameterTag :=
  { p with
    name := p.name.asUnits
    type := p.type.asUnits
    description := p.description.asUnits
    sample := p.sample.map Scalar.asRead }

/-- The fields of what is read are those of the line, each as it is read. -/
theorem leafFields_asRead (p : ParameterTag) :
    leafFields p.asRead = (leafFields p).map fun f => (f.1, f.2.asRead) := by
  rw [leafFields, leafFields, ParameterTag.asRead]
  cases p.required <;> cases p.sample <;> rfl

/-- Every field of the line has a JSON text: three of them always have, and the example by
hypothesis. -/
theorem exists_scalarText_of_mem {p : ParameterTag}
    (h : ∀ s, p.sample = some s → ∃ t, Json.scalarText s = .ok t) {f : String × Scalar}
    (hf : f ∈ leafFields p) : ∃ t, Json.scalarText f.2 = .ok t := by
  simp only [leafFields, List.mem_append, List.mem_cons, List.not_mem_nil, or_false,
    List.mem_ite_nil_right, List.mem_map, Option.mem_toList] at hf
  obtain ((rfl | rfl) | ⟨-, rfl⟩) | ⟨s, hs, rfl⟩ := hf
  · exact ⟨_, rfl⟩
  · exact ⟨_, rfl⟩
  · exact ⟨_, rfl⟩
  · exact h s hs

/-- The keys that the schema of a line can have. -/
def leafKeys : List String := ["type", "description", "required", "example"]

/-- The keys of the fields are some of the four, in their order. -/
theorem keys_leafFields (p : ParameterTag) : ((leafFields p).map Prod.fst).Sublist leafKeys := by
  have hkeys : (leafFields p).map Prod.fst = ["type", "description"] ++
      (if p.required then ["required"] else []) ++
      (if p.sample.isSome then ["example"] else []) := by
    rw [leafFields]
    cases p.required <;> cases p.sample <;> rfl
  have hall : ∀ required sample : Bool, (["type", "description"] ++
      (if required then ["required"] else []) ++ (if sample then ["example"] else [])).Sublist
        leafKeys := by
    decide
  rw [hkeys]
  exact hall _ _

/-- The keys are short, and read as they are written. -/
theorem key_of_mem_leafFields {p : ParameterTag} {f : String × Scalar} (hf : f ∈ leafFields p) :
    (Json.stringText f.1).length ≤ 1024 ∧ (Text.ofString f.1).asUnits = f.1 := by
  have hall : ∀ key ∈ leafKeys,
      (Json.stringText key).length ≤ 1024 ∧ (Text.ofString key).asUnits = key := by decide
  exact hall f.1 ((keys_leafFields p).subset (List.mem_map_of_mem hf))

/-- No two keys are the same. -/
theorem pairwise_leafFields (p : ParameterTag) :
    (leafFields p).Pairwise fun f g => (Scalar.str f.1 == Scalar.str g.1) = false := by
  have hdistinct : List.Pairwise
      (fun a b : String => (Scalar.str a == Scalar.str b) = false) leafKeys := by decide
  exact List.pairwise_map.mp (hdistinct.sublist (keys_leafFields p))

/-- Fields that JSON can write are written as entries that YAML reads. -/
theorem exists_entryTexts {fields : List (String × Scalar)}
    (h : ∀ f ∈ fields, ∃ t, Json.scalarText f.2 = .ok t) (depth : Nat) :
    ∃ entries : List (Text × Yaml.Atom),
      entries.map (fun e => (e.1, e.2.value))
        = fields.map (fun f => (Text.ofString f.1, f.2.asRead)) ∧
      Json.entryTexts .compact depth (fields.map fun f => (.str f.1, .scalar f.2))
        = .ok (entries.map Yaml.Scanner.entryText) := by
  induction fields with
  | nil => exact ⟨[], rfl, rfl⟩
  | cons f fields ih =>
      rw [List.forall_mem_cons] at h
      obtain ⟨t, ht⟩ := h.1
      obtain ⟨a, ha, hvalue⟩ := Yaml.exists_atom ht
      obtain ⟨entries, hentries, htexts⟩ := ih h.2
      refine ⟨(f.1, a) :: entries, ?_, ?_⟩
      · rw [List.map_cons, List.map_cons, hentries, hvalue]
      · rw [List.map_cons, Json.entryTexts, htexts, Json.valueText, ht, List.map_cons,
          Yaml.Scanner.entryText, ha]
        rfl

/-- The schema of a line has nothing but scalars, and a name under `type`. -/
theorem hasTypes_leafSchema {p : ParameterTag} (h : IsNormal p.type) :
    HasTypes IsNormal (leafSchema p) := by
  obtain ⟨others, hothers⟩ : ∃ others, leafFields p = ("type", .str p.type) :: others := ⟨_, rfl⟩
  have hpairwise := pairwise_leafFields p
  rw [hothers, List.pairwise_cons] at hpairwise
  rw [leafSchema_eq, hothers]
  refine .map (fun e he => ?_) fun v hv => ?_
  · obtain ⟨f, -, rfl⟩ := List.mem_map.mp he
    exact .scalar f.2
  · -- The first field has the type; no other field has its key.
    obtain hfirst | hrest := List.mem_cons.mp hv
    · cases hfirst
      exact .name h
    · obtain ⟨f, hf, heq⟩ := List.mem_map.mp hrest
      have hkey : Scalar.str f.1 = typeKey := (Prod.mk.inj heq).1
      simpa [hkey, typeKey] using hpairwise.1 f hf

/-- The walk over the schema of a line goes one step down. -/
theorem descent_leafSchema_le (p : ParameterTag) : (leafSchema p).descent ≤ 1 := by
  rw [leafSchema_eq, Value.descent, Value.entriesDescent_le_iff]
  intro e he
  obtain ⟨f, -, rfl⟩ := List.mem_map.mp he
  exact le_rfl

/-- A schema whose type is normalised stays as it is, under any name. -/
theorem normalizeEntries_leafSchema (tag : Text) (key : Scalar) {p : ParameterTag}
    (h : IsNormal p.type) :
    normalizeEntries tag maxSchemaDepth [(key, leafSchema p)] = .ok [(key, leafSchema p)] := by
  refine normalizeEntries_eq_self_iff.mpr ⟨.map (fun e he => ?_) fun v hv => ?_, ?_⟩
  · rw [List.mem_singleton.mp he]
    exact hasTypes_leafSchema h
  · -- A field with the name `type` has a schema, and no name of a type.
    obtain ⟨-, rfl⟩ := Prod.mk.inj (List.mem_singleton.mp hv)
    rw [leafSchema_eq]
    exact .map _
  · rw [Value.descent, Value.entriesDescent_le_iff]
    intro e he
    rw [List.mem_singleton.mp he]
    have hdescent := descent_leafSchema_le p
    have hroom : 2 ≤ maxSchemaDepth := by decide
    dsimp only
    omega

/-! ### Reading a line -/

/-- A line is written out as its name and the entries of its schema. -/
theorem exists_expandLine {tag line : Text} {p : ParameterTag}
    (hshort : isShorthand (trim line) = true) (hindent : line.takeWhile isBlank = [])
    (hp : parseLine tag (trim line) = .ok p) :
    ∃ entries : List (Text × Yaml.Atom),
      entries.map (fun e => (e.1, e.2.value))
        = (leafFields p).map (fun f => (Text.ofString f.1, f.2.asRead)) ∧
      expandLine tag line = .ok (Yaml.Scanner.lineText p.name entries) := by
  -- An example that has been read can be written, and so can the other fields.
  have hsample : Ends (fun p => ∀ s, p.sample = some s → ∃ t, Json.scalarText s = .ok t)
      (MalformedOr fun _ => False) (parseLine tag (trim line)) :=
    parseParameterWith_ends (fun _ _ => .ok trivial) tag
  rw [hp] at hsample
  cases hsample with
  | ok hsample =>
      obtain ⟨entries, hentries, htexts⟩ :=
        exists_entryTexts (fun f hf => exists_scalarText_of_mem hsample hf) 1
      refine ⟨entries, hentries, ?_⟩
      have hwrite : Json.write .compact (leafSchema p)
          = .ok (Json.Layout.compact.enclose 0 '\x7b' '\x7d'
            (entries.map Yaml.Scanner.entryText)) := by
        rw [leafSchema_eq, Json.write, Json.valueText, htexts]
        rfl
      simp only [expandLine, if_pos hshort, hp, hwrite, Except.mapError, Yaml.ok_bind, hindent]
      rfl

/-- The entries of a line are read as the schema. -/
theorem map_ofList_entries {p : ParameterTag} {entries : List (Text × Yaml.Atom)}
    (h : entries.map (fun e => (e.1, e.2.value))
      = (leafFields p).map (fun f => (Text.ofString f.1, f.2.asRead))) :
    Value.map (Entries.ofList (entries.map fun e => (.str e.1.asUnits, .scalar e.2.value)))
      = leafSchema p.asRead := by
  have hentries : entries.map (fun e => (Scalar.str e.1.asUnits, Value.scalar e.2.value))
      = (leafFields p.asRead).map fun f => (.str f.1, .scalar f.2) := by
    calc entries.map (fun e => (Scalar.str e.1.asUnits, Value.scalar e.2.value))
        = (entries.map fun e => (e.1, e.2.value)).map fun e => (.str e.1.asUnits, .scalar e.2) := by
          rw [List.map_map]; rfl
      _ = (leafFields p).map fun f => (.str (Text.ofString f.1).asUnits, .scalar f.2.asRead) := by
          rw [h, List.map_map]; rfl
      _ = (leafFields p).map fun f => (.str f.1, .scalar f.2.asRead) :=
          List.map_congr_left fun f hf => by rw [(key_of_mem_leafFields hf).2]
      _ = (leafFields p.asRead).map fun f => (.str f.1, .scalar f.2) := by
          rw [leafFields_asRead, List.map_map]; rfl
  rw [hentries, Entries.ofList_eq_self (List.pairwise_map.mpr (pairwise_leafFields p.asRead)),
    leafSchema_eq]

/-- The keys of the schema are short enough for YAML, which reads a long key as none. -/
theorem length_key_le_of_entries {p : ParameterTag} {entries : List (Text × Yaml.Atom)}
    (h : entries.map (fun e => (e.1, e.2.value))
      = (leafFields p).map (fun f => (Text.ofString f.1, f.2.asRead))) :
    ∀ e ∈ entries, (Json.stringText e.1).length ≤ 1024 := by
  intro e he
  have hmem : (e.1, e.2.value) ∈ (leafFields p).map (fun f => (Text.ofString f.1, f.2.asRead)) :=
    h ▸ List.mem_map_of_mem he
  obtain ⟨f, hf, heq⟩ := List.mem_map.mp hmem
  rw [← (Prod.mk.inj heq).1]
  exact (key_of_mem_leafFields hf).1

/-- No blanks are in front of a text whose blanks are cut there. -/
theorem takeWhile_trimStart (s : Text) : (trimStart s).takeWhile isBlank = [] := by
  have happend : (trimStart s).takeWhile isBlank ++ trimStart (trimStart s) = trimStart s :=
    List.takeWhile_append_dropWhile
  rw [trimStart_trimStart] at happend
  exact List.append_left_eq_self.mp happend

/-- Without its indentation the line is still one line. -/
theorem IsShorthandLine.breakLines_dedent {line : Text} (h : IsShorthandLine line) :
    breakLines (dedent line) = [trimStart line] := by
  have hne : trimStart line ≠ [] := by
    intro hnil
    exact h.trim_ne_nil (by rw [trim, hnil]; rfl)
  have hindent : line.all isIndent = false := by
    rw [h.trimStart_eq] at hne
    by_contra hall
    exact hne (List.dropWhile_eq_nil_iff.mpr (by simpa using hall))
  rw [dedent_eq_dropWhile (fun c hc heq => h.no_lineFeed (heq ▸ hc)) hindent, ← h.trimStart_eq]
  exact breakLines_eq_singleton hne fun c hc => h.unbroken c ((trimStart_suffix line).subset hc)

/-- What a line is read as: its name and the schema of its parameter, as they come out of the
writing and reading, unless the name is too long for a key. -/
theorem IsShorthandLine.parseBlock_eq {line : Text} (h : IsShorthandLine line) (tag : Text) :
    parseBlock tag line = (do
      let p ← parseParameter tag line
      if 1024 < (Json.stringText p.name).length then .error (.malformedTag tag .badBlock)
      else .ok [(.str p.asRead.name, leafSchema p.asRead)]) := by
  have hshort : isShorthand (trim (trimStart line)) = true := by
    rw [trim_trimStart]
    exact h.isShorthand_trim
  have hparse : parseLine tag (trim (trimStart line)) = parseParameter tag line := by
    rw [trim_trimStart, h.parseLine_trim]
  rw [parseBlock, h.breakLines_dedent, List.mapM_cons, List.mapM_nil]
  cases hp : parseParameter tag line with
  | error e =>
      simp only [expandLine, if_pos hshort, hparse, hp]
      rfl
  | ok p =>
      rw [hp] at hparse
      obtain ⟨entries, hentries, hexpand⟩ := exists_expandLine hshort (takeWhile_trimStart line) hparse
      have hunlines : unlines [Yaml.Scanner.lineText p.name entries]
          = Yaml.Scanner.lineText p.name entries := List.intercalate_singleton
      rw [hexpand]
      simp only [Yaml.ok_bind, pure, Except.pure, hunlines]
      split
      -- Such a name is no key, so the block is malformed.
      · rename_i hlong
        rw [Yaml.read_longName hlong]
        rfl
      · rename_i hshortName
        have hread := Yaml.read_line (Nat.le_of_not_lt hshortName)
          (length_key_le_of_entries hentries)
        rw [map_ofList_entries hentries] at hread
        cases hpart : Yaml.read (Yaml.Scanner.lineText p.name entries) with
        | error e => rw [hpart] at hread; cases hread
        | ok part =>
            rw [hpart] at hread
            have hvalue : part.value = .map [(.str p.asRead.name, leafSchema p.asRead)] :=
              Except.ok.inj hread
            simp only [Except.mapError, Yaml.ok_bind, hvalue]
            exact normalizeEntries_leafSchema tag _ (normalizeType_type hparse)

end Tag

/-! ### Lines that keep what they say -/

/-- A scalar that YAML reads as JSON writes it: a text in the basic plane, and a float with a
point in its text. -/
def Scalar.Survives : Scalar → Prop
  | .null | .bool _ | .int _ => True
  | .float x => .char '.' ∈ Number.floatText Json.numberWords x
  | .str s => ∀ c ∈ s, c.toNat < 0x10000
  | _ => False

/-- A text is read with its code points as UTF-16 has them. -/
theorem Scalar.asRead_str (s : Text) : (Scalar.str s).asRead = .str s.asUnits := rfl

/-- A scalar is read as it is exactly if it survives. -/
theorem Scalar.asRead_eq_self_iff (s : Scalar) : s.asRead = s ↔ s.Survives := by
  cases s with
  | float x =>
      rw [asRead, Survives]
      split
      · rename_i h
        exact iff_of_true rfl h
      · rename_i h
        exact iff_of_false nofun h
  | str s => rw [asRead_str, Scalar.str.injEq, Text.asUnits_eq_self_iff, Survives]
  | null => exact iff_of_true rfl trivial
  | bool b => exact iff_of_true rfl trivial
  | int i => exact iff_of_true rfl trivial
  | _ => exact iff_of_false nofun id

namespace Tag

/-- A parameter that comes out of its line as it is. -/
structure ParameterTag.Survives (p : ParameterTag) : Prop where
  /-- The name is short enough for a key of YAML. -/
  short_name : (Json.stringText p.name).length ≤ 1024
  /-- The name is in the basic plane. -/
  name : ∀ c ∈ p.name, c.toNat < 0x10000
  /-- The type is in the basic plane. -/
  type : ∀ c ∈ p.type, c.toNat < 0x10000
  /-- The description is in the basic plane. -/
  description : ∀ c ∈ p.description, c.toNat < 0x10000
  /-- The example survives. -/
  sample : ∀ s, p.sample = some s → s.Survives

/-- The schema comes out as it is exactly if type, description and example do. -/
theorem leafSchema_asRead_eq_iff (p : ParameterTag) :
    leafSchema p.asRead = leafSchema p ↔
      p.type.asUnits = p.type ∧ p.description.asUnits = p.description ∧
        ∀ s, p.sample = some s → s.asRead = s := by
  rw [leafSchema_eq, leafSchema_eq, leafFields_asRead, leafFields]
  cases p.required <;> cases p.sample <;>
    simp [Scalar.asRead_str, Scalar.asRead_eq_self_iff, Scalar.Survives]

/-- A parameter comes out as it is exactly if its name is short enough for a key, and the name and
the schema come out as they are. -/
theorem ParameterTag.survives_iff (p : ParameterTag) :
    p.Survives ↔ (Json.stringText p.name).length ≤ 1024 ∧ p.asRead.name = p.name ∧
      leafSchema p.asRead = leafSchema p := by
  rw [leafSchema_asRead_eq_iff, ParameterTag.asRead]
  simp only [asUnits_eq_self_iff, Scalar.asRead_eq_self_iff]
  constructor
  · rintro ⟨hshort, hname, htype, hdescription, hsample⟩
    exact ⟨hshort, hname, htype, hdescription, hsample⟩
  · rintro ⟨hshort, hname, htype, hdescription, hsample⟩
    exact ⟨hshort, hname, htype, hdescription, hsample⟩

/-- A line gives its name and the schema that its parameter stands for, and fails as the
parameter does, if and only if the parameter survives. -/
theorem parseBlock_eq_map_iff {line : Text} (h : IsShorthandLine line) (tag : Text) :
    parseBlock tag line = (parseParameter tag line).map (fun p => [(.str p.name, leafSchema p)]) ↔
      ∀ p, parseParameter tag line = .ok p → p.Survives := by
  rw [h.parseBlock_eq]
  cases parseParameter tag line with
  | error e => exact iff_of_true rfl nofun
  | ok p =>
      have hall : (∀ q, (.ok p : Except Error ParameterTag) = .ok q → q.Survives) ↔ p.Survives :=
        ⟨fun hq => hq p rfl, fun hp q hq => Except.ok.inj hq ▸ hp⟩
      rw [hall, p.survives_iff, Yaml.ok_bind]
      split
      · rename_i hlong
        exact iff_of_false nofun fun hs => absurd hs.1 (by omega)
      · rename_i hshort
        simp only [Except.map, Except.ok.injEq, List.cons.injEq, Prod.mk.injEq,
          Scalar.str.injEq, and_true]
        exact (and_iff_right (Nat.le_of_not_lt hshort)).symm

/-- A line with a marker, a description and an example. -/
def priceLine : Text := "  price double required Unit price. Example: 12.50"

/-- The line survives, with the name of its type and the value of its example. -/
theorem parseBlock_priceLine :
    parseBlock "bodyParam" priceLine = .ok [(.str "price", .object [("type", .str "float"),
      ("description", .str "Unit price."), ("required", .bool true),
      ("example", .scalar (.float ⟨false, 4623226492472524800⟩))])] := by
  have hline : IsShorthandLine priceLine := ⟨by decide, by decide, by decide, by decide, by decide⟩
  have hparse : parseParameter "bodyParam" priceLine = .ok ⟨"price", "float", true, "Unit price.",
      some (.float ⟨false, 4623226492472524800⟩), none⟩ := by decide +kernel
  have hsurvives : ∀ p, parseParameter "bodyParam" priceLine = .ok p → p.Survives := by
    rw [hparse]
    rintro _ ⟨⟩
    refine ⟨by decide, by decide, by decide, by decide, ?_⟩
    rintro _ ⟨⟩
    show _ ∈ _
    decide +kernel
  rw [(parseBlock_eq_map_iff hline "bodyParam").mpr hsurvives, hparse]
  rfl

/-- A line with a power of ten as its example. -/
def powerLine : Text := "mass number Example: 1e22"

/-- JSON writes the power without a point, so the example comes out as a text. -/
theorem parseBlock_powerLine_ne :
    IsShorthandLine powerLine ∧ parseBlock "bodyParam" powerLine ≠
      (parseParameter "bodyParam" powerLine).map fun p => [(.str p.name, leafSchema p)] :=
  ⟨⟨by decide, by decide, by decide, by decide, by decide⟩, by decide +kernel⟩

end Tag

end RouteDocs
